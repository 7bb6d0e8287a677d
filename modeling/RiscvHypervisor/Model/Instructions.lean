import RiscvHypervisor.Model.Base

namespace RiscvHypervisor

open ByteMem

/-!
# Model — instruction decoding

The unpacking of `instructions.h` and the two address decoders of `vmem.c`,
`parseSourceAddress` for loads and `parseDestinationAddress` for stores.  Instruction words and
their fields are natural numbers; the C bit-fields only ever hold what `extractBits` gives them.
-/

/-- `EXTRACT_BITS`. -/
def extractBits (num lower count : Nat) : Nat := (num >>> lower) &&& ((1 <<< count) - 1)

/-- `EXTEND_SIGN`, as the `int` it is assigned to. -/
def extendSign (num fromBits : Nat) : Int :=
  if num &&& (1 <<< (fromBits - 1)) ≠ 0 then (num : Int) - 2 ^ fromBits else num

/-- `UnpackedInstruction`. -/
structure UnpackedInstruction where
  opcode : Nat
  rd : Nat
  funct3 : Nat
  rs1 : Nat
  rs2 : Nat
  funct7 : Nat
deriving DecidableEq, Repr

/-- `UnpackedCompressedInstruction`. -/
structure UnpackedCompressedInstruction where
  opcode : Nat
  rs2 : Nat
  rs1 : Nat
  funct4 : Nat
deriving DecidableEq, Repr

/-- `dereference_instruction`: the second half-word is read only if the first asks for it. -/
def dereferenceInstruction (m : Mem) (ptr : Nat) : Nat :=
  let half := load m ptr 2
  if half &&& 3 = 3 then half ||| (load m (ptr + 2) 2 <<< 16) else half

/-- `unpack_instruction`. -/
def unpackInstruction (p : Nat) : UnpackedInstruction where
  opcode := extractBits p 0 7
  rd := extractBits p 7 5
  funct3 := extractBits p 12 3
  rs1 := extractBits p 15 5
  rs2 := extractBits p 20 5
  funct7 := extractBits p 25 7

/-- `unpack_compressed_instruction`, of the low half-word. -/
def unpackCompressedInstruction (packed : Nat) : UnpackedCompressedInstruction :=
  let p := packed % 2 ^ 16
  { opcode := extractBits p 0 2
    rs2 := extractBits p 2 5
    rs1 := extractBits p 7 5
    funct4 := extractBits p 12 4 }

/-- `MemoryAccessWidth`. -/
inductive MemoryAccessWidth where
  | w8
  | w16
  | w32
  | w64
deriving DecidableEq, Repr

/-- What the decoders return: the address, and their out-parameters. -/
structure DecodedAccess where
  address : Word
  width : MemoryAccessWidth
  reg : Nat
  pcAdvance : Nat
  isSigned : Bool
deriving DecidableEq, Repr

/-- The value of a register in an address computation; `x0` reads as zero. -/
def readReg (regs : SavedRegisters) (r : Nat) : Word := if r = 0 then 0 else regs (r - 1)

/-- The value of `sp` (`x2`). -/
def readSp (regs : SavedRegisters) : Word := regs 1

/-- The zero-extended immediate of `C.LW` and `C.SW`, from the `rs1`, `rs2` and `funct4` fields. -/
def compressedImmWord (u : UnpackedCompressedInstruction) : Nat :=
  ((u.funct4 &&& 1) <<< 5) ||| ((u.rs1 >>> 4) <<< 4) ||| (((u.rs1 >>> 3) &&& 1) <<< 3) |||
    ((u.rs2 >>> 4) <<< 2) ||| (((u.rs2 >>> 3) &&& 1) <<< 6)

/-- The zero-extended immediate of `C.LD` and `C.SD`. -/
def compressedImmDouble (u : UnpackedCompressedInstruction) : Nat :=
  ((u.funct4 &&& 1) <<< 5) ||| ((u.rs1 >>> 4) <<< 4) ||| (((u.rs1 >>> 3) &&& 1) <<< 3) |||
    ((u.rs2 >>> 4) <<< 7) ||| (((u.rs2 >>> 3) &&& 1) <<< 6)

/-- The zero-extended immediate of `C.LWSP` and `C.SWSP`. -/
def stackImmWord (immUnordered : Nat) : Nat :=
  (immUnordered >>> 2 <<< 2) ||| ((immUnordered &&& 3) <<< 6)

/-- The zero-extended immediate of `C.LDSP` and `C.SDSP`. -/
def stackImmDouble (immUnordered : Nat) : Nat :=
  (immUnordered >>> 3 <<< 3) ||| ((immUnordered &&& 7) <<< 6)

/-- `parse_source_address`. -/
def parseSourceAddress (packed : Nat) (regs : SavedRegisters) : Except Panic DecodedAccess :=
  if packed &&& 3 = 3 then
    let u := unpackInstruction packed
    if u.opcode = 0b0000011 then
      let imm := extendSign ((u.funct7 <<< 5) ||| u.rs2) 12
      let addr := readReg regs u.rs1 + BitVec.ofInt 64 imm
      match u.funct3 with
      | 0 => .ok ⟨addr, .w8, u.rd, 4, true⟩
      | 4 => .ok ⟨addr, .w8, u.rd, 4, false⟩
      | 1 => .ok ⟨addr, .w16, u.rd, 4, true⟩
      | 5 => .ok ⟨addr, .w16, u.rd, 4, false⟩
      | 2 => .ok ⟨addr, .w32, u.rd, 4, true⟩
      | 6 => .ok ⟨addr, .w32, u.rd, 4, false⟩
      | 3 => .ok ⟨addr, .w64, u.rd, 4, false⟩
      | _ => .error .extractSourceAddress
    else .error .extractSourceAddress
  else
    let u := unpackCompressedInstruction packed
    let funct3 := u.funct4 >>> 1
    match u.opcode with
    | 0 =>
      let data := 8 + (u.rs2 &&& 7)
      let regValue := regs (8 + (u.rs1 &&& 7) - 1)
      match funct3 with
      | 2 => .ok ⟨regValue + BitVec.ofNat 64 (compressedImmWord u), .w32, data, 2, true⟩
      | 3 => .ok ⟨regValue + BitVec.ofNat 64 (compressedImmDouble u), .w64, data, 2, false⟩
      | _ => .error .extractSourceAddress
    | 2 =>
      let immUnordered := u.rs2 + ((u.funct4 &&& 1) <<< 5)
      match funct3 with
      -- C.LWSP leaves the sign flag at its initial `false`
      | 2 => .ok ⟨readSp regs + BitVec.ofNat 64 (stackImmWord immUnordered), .w32, u.rs1, 2, false⟩
      | 3 =>
        .ok ⟨readSp regs + BitVec.ofNat 64 (stackImmDouble immUnordered), .w64, u.rs1, 2, false⟩
      | _ => .error .extractSourceAddress
    | _ => .error .extractSourceAddress

/-- `parse_destination_address`. -/
def parseDestinationAddress (packed : Nat) (regs : SavedRegisters) :
    Except Panic DecodedAccess :=
  if packed &&& 3 = 3 then
    let u := unpackInstruction packed
    if u.opcode = 0b0100011 then
      let imm := extendSign ((u.funct7 <<< 5) ||| u.rd) 12
      let addr := readReg regs u.rs1 + BitVec.ofInt 64 imm
      match u.funct3 with
      | 0 => .ok ⟨addr, .w8, u.rs2, 4, false⟩
      | 1 => .ok ⟨addr, .w16, u.rs2, 4, false⟩
      | 2 => .ok ⟨addr, .w32, u.rs2, 4, false⟩
      | 3 => .ok ⟨addr, .w64, u.rs2, 4, false⟩
      | _ => .error .extractDestinationAddress
    else .error .extractDestinationAddress
  else
    let u := unpackCompressedInstruction packed
    let funct3 := u.funct4 >>> 1
    match u.opcode with
    | 0 =>
      let data := 8 + (u.rs2 &&& 7)
      let regValue := regs (8 + (u.rs1 &&& 7) - 1)
      match funct3 with
      | 6 => .ok ⟨regValue + BitVec.ofNat 64 (compressedImmWord u), .w32, data, 2, false⟩
      | 7 => .ok ⟨regValue + BitVec.ofNat 64 (compressedImmDouble u), .w64, data, 2, false⟩
      | _ => .error .extractDestinationAddress
    | 2 =>
      let immUnordered := u.rs1 + ((u.funct4 &&& 1) <<< 5)
      match funct3 with
      | 6 => .ok ⟨readSp regs + BitVec.ofNat 64 (stackImmWord immUnordered), .w32, u.rs2, 2, false⟩
      | 7 =>
        .ok ⟨readSp regs + BitVec.ofNat 64 (stackImmDouble immUnordered), .w64, u.rs2, 2, false⟩
      | _ => .error .extractDestinationAddress
    | _ => .error .extractDestinationAddress

end RiscvHypervisor
