import RiscvHypervisor.Lib.Outcome
import RiscvHypervisor.Lib.Rv64
import RiscvHypervisor.Model.Instructions

namespace RiscvHypervisor

open ByteMem Except

/-!
# The decoders against the encoding

`parseSourceAddress` and `parseDestinationAddress` read the loads and stores of `Rv64` back.  The
words are unpacked by arithmetic, once per format (`unpackInstruction_iType` and its siblings); the
scrambled offsets of the compressed formats are then a matter of five or six bits each.

* `parseSourceAddress_load` — what is decoded from a load: everything but the sign flag, which
  `C.LWSP` never gets;
* `parseDestinationAddress_store`, `parseDestinationAddress_spec` — stores are decoded, and nothing
  else is;
* `loadDecoded_iff` — a load fetched from memory is decoded as the encoding says, except `C.LWSP`.
-/

/-! ### Bits as numbers -/

/-- A field of an instruction, by division instead of shifts and masks. -/
theorem extractBits_eq (p lower count : Nat) :
    extractBits p lower count = p / 2 ^ lower % 2 ^ count := by
  unfold extractBits
  rw [Nat.one_shiftLeft, Nat.and_two_pow_sub_one_eq_mod, Nat.shiftRight_eq_div_pow]

/-- The two bits that tell compressed instructions from the others. -/
theorem and_three (x : Nat) : x &&& 3 = x % 4 := Nat.and_two_pow_sub_one_eq_mod x 2

/-- The three bits of a compressed register number. -/
theorem and_seven (x : Nat) : x &&& 7 = x % 8 := Nat.and_two_pow_sub_one_eq_mod x 3

/-- The 12-bit immediate of both decoders, from its two fields. -/
theorem extendSign_fields (imm : BitVec 12) :
    BitVec.ofInt 64 (extendSign ((imm.toNat / 2 ^ 5) <<< 5 ||| imm.toNat % 2 ^ 5) 12) =
      imm.signExtend 64 := by
  have hor : (imm.toNat / 2 ^ 5) <<< 5 ||| imm.toNat % 2 ^ 5 = imm.toNat := by
    rw [← Nat.shiftLeft_add_eq_or_of_lt (Nat.mod_lt _ (by decide)), Nat.shiftLeft_eq]
    omega
  have hsign : extendSign imm.toNat 12 = imm.toInt := by
    have hbit : imm.toNat &&& 1 <<< (12 - 1) ≠ 0 ↔ 2 ^ 11 ≤ imm.toNat := by
      have hlt := imm.isLt
      rw [Nat.one_shiftLeft, Nat.and_two_pow, Nat.testBit_eq_decide_div_mod_eq]
      by_cases h : imm.toNat / 2 ^ (12 - 1) % 2 = 1
      · rw [decide_eq_true h]
        exact ⟨fun _ => by omega, fun _ => by decide⟩
      · rw [decide_eq_false h]
        exact ⟨fun hne => absurd rfl hne, fun hle => by omega⟩
    unfold extendSign
    rw [BitVec.toInt_eq_toNat_cond]
    by_cases h : 2 ^ 11 ≤ imm.toNat
    · rw [if_pos (hbit.mpr h), if_neg (by omega)]
      rfl
    · rw [if_neg (fun hne => h (hbit.mp hne)), if_pos (by omega)]
  rw [hor, hsign]
  rfl

/-! ### Unpacking -/

/-- All six fields of an instruction. -/
theorem unpackInstruction_eq (p : Nat) :
    unpackInstruction p = ⟨p % 2 ^ 7, p / 2 ^ 7 % 2 ^ 5, p / 2 ^ 12 % 2 ^ 3, p / 2 ^ 15 % 2 ^ 5,
      p / 2 ^ 20 % 2 ^ 5, p / 2 ^ 25 % 2 ^ 7⟩ := by
  unfold unpackInstruction
  simp only [extractBits_eq, pow_zero, Nat.div_one]

/-- All four fields of a compressed instruction. -/
theorem unpackCompressedInstruction_eq {p : Nat} (h : p < 2 ^ 16) :
    unpackCompressedInstruction p =
      ⟨p % 2 ^ 2, p / 2 ^ 2 % 2 ^ 5, p / 2 ^ 7 % 2 ^ 5, p / 2 ^ 12⟩ := by
  have htop : p / 2 ^ 12 % 2 ^ 4 = p / 2 ^ 12 := by omega
  unfold unpackCompressedInstruction
  simp only [extractBits_eq, pow_zero, Nat.div_one, Nat.mod_eq_of_lt h, htop]

/-- The fields of an encoded instruction of type I. -/
theorem unpackInstruction_iType (imm : BitVec 12) (rs1 : BitVec 5) (funct3 : BitVec 3)
    (rd : BitVec 5) (opcode : BitVec 7) :
    unpackInstruction (Rv64.iType imm rs1 funct3 rd opcode).toNat =
      ⟨opcode.toNat, rd.toNat, funct3.toNat, rs1.toNat, imm.toNat % 2 ^ 5, imm.toNat / 2 ^ 5⟩ := by
  have himm := imm.isLt
  have hrs1 := rs1.isLt
  have hfunct3 := funct3.isLt
  have hrd := rd.isLt
  have hopcode := opcode.isLt
  rw [unpackInstruction_eq, Rv64.toNat_iType]
  congr 1 <;> omega

/-- The fields of an encoded instruction of type S. -/
theorem unpackInstruction_sType (imm : BitVec 12) (rs2 rs1 : BitVec 5) (funct3 : BitVec 3)
    (opcode : BitVec 7) :
    unpackInstruction (Rv64.sType imm rs2 rs1 funct3 opcode).toNat =
      ⟨opcode.toNat, imm.toNat % 2 ^ 5, funct3.toNat, rs1.toNat, rs2.toNat,
        imm.toNat / 2 ^ 5⟩ := by
  have himm := imm.isLt
  have hrs2 := rs2.isLt
  have hrs1 := rs1.isLt
  have hfunct3 := funct3.isLt
  have hopcode := opcode.isLt
  have hlow : imm.toNat % 2 ^ 5 < 2 ^ 5 := Nat.mod_lt _ (by decide)
  have hhigh : imm.toNat / 2 ^ 5 < 2 ^ 7 := by omega
  rw [unpackInstruction_eq, Rv64.toNat_sType]
  -- the two halves of the immediate are fields of their own
  generalize imm.toNat % 2 ^ 5 = low at *
  generalize imm.toNat / 2 ^ 5 = high at *
  clear himm
  congr 1 <;> omega

/-- The two low bits tell the formats apart. -/
theorem and_three_iType (imm : BitVec 12) (rs1 : BitVec 5) (funct3 : BitVec 3) (rd : BitVec 5)
    (opcode : BitVec 7) :
    (Rv64.iType imm rs1 funct3 rd opcode).toNat &&& 3 = opcode.toNat % 4 := by
  rw [and_three, Rv64.toNat_iType]
  omega

/-- The length bits of an encoded instruction are those of its opcode. -/
theorem and_three_sType (imm : BitVec 12) (rs2 rs1 : BitVec 5) (funct3 : BitVec 3)
    (opcode : BitVec 7) :
    (Rv64.sType imm rs2 rs1 funct3 opcode).toNat &&& 3 = opcode.toNat % 4 := by
  rw [and_three, Rv64.toNat_sType]
  omega

/-- Those of a compressed one are its opcode: here for types CL and CS, -/
theorem and_three_cType (funct3 high rs1 : BitVec 3) (low : BitVec 2) (r : BitVec 3)
    (op : BitVec 2) : (Rv64.cType funct3 high rs1 low r op).toNat &&& 3 = op.toNat := by
  have hop := op.isLt
  rw [and_three, Rv64.toNat_cType]
  omega

/-- for type CI, -/
theorem and_three_ciType (funct3 : BitVec 3) (high : BitVec 1) (rd low : BitVec 5)
    (op : BitVec 2) : (Rv64.ciType funct3 high rd low op).toNat &&& 3 = op.toNat := by
  have hop := op.isLt
  rw [and_three, Rv64.toNat_ciType]
  omega

/-- and for type CSS. -/
theorem and_three_cssType (funct3 : BitVec 3) (imm : BitVec 6) (rs2 : BitVec 5)
    (op : BitVec 2) : (Rv64.cssType funct3 imm rs2 op).toNat &&& 3 = op.toNat := by
  have hop := op.isLt
  rw [and_three, Rv64.toNat_cssType]
  omega

/-- The fields of an encoded instruction of types CL and CS: the bits of its offset lie above the
    register numbers. -/
theorem unpackCompressedInstruction_cType (funct3 high rs1 : BitVec 3) (low : BitVec 2)
    (r : BitVec 3) (op : BitVec 2) :
    unpackCompressedInstruction (Rv64.cType funct3 high rs1 low r op).toNat =
      ⟨op.toNat, r.toNat + 8 * low.toNat, rs1.toNat + 8 * (high.toNat % 4),
        high.toNat / 4 + 2 * funct3.toNat⟩ := by
  have hfunct3 := funct3.isLt
  have hhigh := high.isLt
  have hrs1 := rs1.isLt
  have hlow := low.isLt
  have hr := r.isLt
  have hop := op.isLt
  rw [unpackCompressedInstruction_eq (BitVec.isLt _), Rv64.toNat_cType]
  congr 1 <;> omega

/-- The fields of an encoded instruction of type CI. -/
theorem unpackCompressedInstruction_ciType (funct3 : BitVec 3) (high : BitVec 1)
    (rd low : BitVec 5) (op : BitVec 2) :
    unpackCompressedInstruction (Rv64.ciType funct3 high rd low op).toNat =
      ⟨op.toNat, low.toNat, rd.toNat, high.toNat + 2 * funct3.toNat⟩ := by
  have hfunct3 := funct3.isLt
  have hhigh := high.isLt
  have hrd := rd.isLt
  have hlow := low.isLt
  have hop := op.isLt
  rw [unpackCompressedInstruction_eq (BitVec.isLt _), Rv64.toNat_ciType]
  congr 1 <;> omega

/-- The fields of an encoded instruction of type CSS. -/
theorem unpackCompressedInstruction_cssType (funct3 : BitVec 3) (imm : BitVec 6)
    (rs2 : BitVec 5) (op : BitVec 2) :
    unpackCompressedInstruction (Rv64.cssType funct3 imm rs2 op).toNat =
      ⟨op.toNat, rs2.toNat, imm.toNat % 2 ^ 5, imm.toNat / 2 ^ 5 + 2 * funct3.toNat⟩ := by
  have hfunct3 := funct3.isLt
  have himm := imm.isLt
  have hrs2 := rs2.isLt
  have hop := op.isLt
  rw [unpackCompressedInstruction_eq (BitVec.isLt _), Rv64.toNat_cssType]
  congr 1 <;> omega

/-! ### The offsets of the compressed formats -/

section Offsets

variable {op r rs1 low mid b funct3 : Nat}

/-- Bit 5 of an offset, below `funct3`. -/
theorem and_one_of_funct4 (hb : b < 2) : (b + 2 * funct3) &&& 1 = b := by
  rw [Nat.and_one_is_mod]
  omega

/-- `funct3` is `funct4` without its lowest bit, which belongs to the offset. -/
theorem shiftRight_one_of_funct4 (hb : b < 2) : (b + 2 * funct3) >>> 1 = funct3 := by
  rw [Nat.shiftRight_eq_div_pow]
  omega

/-- The upper one of two offset bits above a register. -/
theorem shiftRight_four (hr : r < 8) : (r + 8 * low) >>> 4 = low / 2 := by
  rw [Nat.shiftRight_eq_div_pow]
  omega

/-- The lower one. -/
theorem shiftRight_three_and_one (hr : r < 8) : ((r + 8 * low) >>> 3) &&& 1 = low % 2 := by
  rw [Nat.shiftRight_eq_div_pow, Nat.and_one_is_mod]
  omega

/-- That bit is one bit. -/
theorem high_lt (high : BitVec 3) : high.toNat / 4 < 2 := by
  have := high.isLt
  omega

/-- The offset of `C.LW` and `C.SW`, from the fields it is scattered over. -/
theorem compressedImmWord_fields (hr : r < 8) (hrs1 : rs1 < 8) (hb : b < 2) :
    compressedImmWord ⟨op, r + 8 * low, rs1 + 8 * mid, b + 2 * funct3⟩ =
      b <<< 5 ||| (mid / 2) <<< 4 ||| (mid % 2) <<< 3 ||| (low / 2) <<< 2 ||| (low % 2) <<< 6 := by
  unfold compressedImmWord
  rw [and_one_of_funct4 hb, shiftRight_four hrs1, shiftRight_three_and_one hrs1,
    shiftRight_four hr, shiftRight_three_and_one hr]

/-- The offset of `C.LD` and `C.SD`. -/
theorem compressedImmDouble_fields (hr : r < 8) (hrs1 : rs1 < 8) (hb : b < 2) :
    compressedImmDouble ⟨op, r + 8 * low, rs1 + 8 * mid, b + 2 * funct3⟩ =
      b <<< 5 ||| (mid / 2) <<< 4 ||| (mid % 2) <<< 3 ||| (low / 2) <<< 7 ||| (low % 2) <<< 6 := by
  unfold compressedImmDouble
  rw [and_one_of_funct4 hb, shiftRight_four hrs1, shiftRight_three_and_one hrs1,
    shiftRight_four hr, shiftRight_three_and_one hr]

/-- The offset of `C.LW` and `C.SW`. -/
theorem compressedImmWord_eq (hr : r < 8) (hrs1 : rs1 < 8) (uimm : BitVec 5) :
    compressedImmWord ⟨op, r + 8 * (uimm.extractLsb' 0 1 ++ uimm.extractLsb' 4 1).toNat,
      rs1 + 8 * ((uimm.extractLsb' 1 3).toNat % 4),
      (uimm.extractLsb' 1 3).toNat / 4 + 2 * funct3⟩ = 4 * uimm.toNat := by
  rw [compressedImmWord_fields hr hrs1 (high_lt _)]
  revert uimm
  decide

/-- The offset of `C.LD` and `C.SD`. -/
theorem compressedImmDouble_eq (hr : r < 8) (hrs1 : rs1 < 8) (uimm : BitVec 5) :
    compressedImmDouble ⟨op, r + 8 * (uimm.extractLsb' 3 2).toNat,
      rs1 + 8 * ((uimm.extractLsb' 0 3).toNat % 4),
      (uimm.extractLsb' 0 3).toNat / 4 + 2 * funct3⟩ = 8 * uimm.toNat := by
  rw [compressedImmDouble_fields hr hrs1 (high_lt _)]
  revert uimm
  decide

end Offsets

/-- The offset of `C.LWSP`. -/
theorem stackImmWord_ci (uimm : BitVec 6) :
    stackImmWord ((uimm.extractLsb' 0 3 ++ uimm.extractLsb' 4 2).toNat +
      (uimm.extractLsb' 3 1).toNat <<< 5) = 4 * uimm.toNat := by
  revert uimm
  decide

/-- The offset of `C.LDSP`. -/
theorem stackImmDouble_ci (uimm : BitVec 6) :
    stackImmDouble ((uimm.extractLsb' 0 2 ++ uimm.extractLsb' 3 3).toNat +
      (uimm.extractLsb' 2 1).toNat <<< 5) = 8 * uimm.toNat := by
  revert uimm
  decide

/-- The offset of `C.SWSP`. -/
theorem stackImmWord_css (uimm : BitVec 6) :
    stackImmWord ((uimm.extractLsb' 0 4 ++ uimm.extractLsb' 4 2).toNat % 2 ^ 5 +
      ((uimm.extractLsb' 0 4 ++ uimm.extractLsb' 4 2).toNat / 2 ^ 5) <<< 5) = 4 * uimm.toNat := by
  revert uimm
  decide

/-- The offset of `C.SDSP`. -/
theorem stackImmDouble_css (uimm : BitVec 6) :
    stackImmDouble ((uimm.extractLsb' 0 3 ++ uimm.extractLsb' 3 3).toNat % 2 ^ 5 +
      ((uimm.extractLsb' 0 3 ++ uimm.extractLsb' 3 3).toNat / 2 ^ 5) <<< 5) = 8 * uimm.toNat := by
  revert uimm
  decide

/-! ### Loads -/

/-- The width of the architecture, in the words of the source. -/
def accessWidth : Rv64.Width → MemoryAccessWidth
  | .byte   => .w8
  | .half   => .w16
  | .word   => .w32
  | .double => .w64

/-- The sign flag `parseSourceAddress` leaves behind, which is not always the one of the
    architecture (`signFlag_iff`). -/
def signFlag : Rv64.Load → Bool
  | .base op .. => op.signed && op != .ld
  | .clw ..     => true
  | _           => false

/-- The flag is right but for `C.LWSP`.  A doubleword fills the register, so that its flag does not
    matter. -/
theorem signFlag_iff (i : Rv64.Load) (x : Nat → Word) (hwidth : (i.access x).width ≠ .double) :
    signFlag i = (i.access x).signed ↔ ∀ rd uimm, i ≠ .clwsp rd uimm := by
  cases i with
  | base op rd rs1 imm =>
    refine iff_of_true ?_ nofun
    cases op with
    | ld => exact absurd rfl hwidth
    | _  => rfl
  | clw rd rs1 uimm => exact iff_of_true rfl nofun
  | cld rd rs1 uimm => exact absurd rfl hwidth
  | clwsp rd uimm =>
    -- the flag of `C.LWSP` is `false`, a word is sign-extended
    exact iff_of_false Bool.false_ne_true (fun hne => hne rd uimm rfl)
  | cldsp rd uimm => exact absurd rfl hwidth

/-- The registers of the three-bit fields are never `x0`. -/
theorem readReg_eight_add (regs : SavedRegisters) (r : Nat) :
    regs (8 + r - 1) = readReg regs (8 + r) := by
  unfold readReg
  rw [if_neg (by omega)]

/-- A compressed register number, with what lies above it. -/
theorem and_seven_of_lt {r : Nat} (low : Nat) (hr : r < 8) : (r + 8 * low) &&& 7 = r := by
  rw [and_seven]
  omega

/-- What is decoded from a load. -/
theorem parseSourceAddress_load (i : Rv64.Load) (regs : SavedRegisters) :
    parseSourceAddress i.encode regs =
      .ok ⟨(i.access (readReg regs)).address, accessWidth (i.access (readReg regs)).width,
        (i.access (readReg regs)).reg, i.size, signFlag i⟩ := by
  -- One case per encoding: its fields are unpacked, and what is left computes.  The compressed
  -- encodings differ in where the offset is put together from.
  cases i with
  | base op rd rs1 imm =>
    unfold parseSourceAddress
    rw [Rv64.Load.encode, and_three_iType, if_pos (by decide), unpackInstruction_iType]
    simp only [extendSign_fields]
    cases op <;> rfl
  | clw rd rs1 uimm =>
    unfold parseSourceAddress
    rw [Rv64.Load.encode, and_three_cType, if_neg (by decide), unpackCompressedInstruction_cType]
    simp only [compressedImmWord_eq rd.isLt rs1.isLt, and_seven_of_lt _ rd.isLt,
      and_seven_of_lt _ rs1.isLt, readReg_eight_add, shiftRight_one_of_funct4 (high_lt _)]
    rfl
  | cld rd rs1 uimm =>
    unfold parseSourceAddress
    rw [Rv64.Load.encode, and_three_cType, if_neg (by decide), unpackCompressedInstruction_cType]
    simp only [compressedImmDouble_eq rd.isLt rs1.isLt, and_seven_of_lt _ rd.isLt,
      and_seven_of_lt _ rs1.isLt, readReg_eight_add, shiftRight_one_of_funct4 (high_lt _)]
    rfl
  | clwsp rd uimm =>
    unfold parseSourceAddress
    rw [Rv64.Load.encode, and_three_ciType, if_neg (by decide), unpackCompressedInstruction_ciType]
    simp only [and_one_of_funct4 (BitVec.isLt (uimm.extractLsb' 3 1)),
      shiftRight_one_of_funct4 (BitVec.isLt (uimm.extractLsb' 3 1)), stackImmWord_ci]
    rfl
  | cldsp rd uimm =>
    unfold parseSourceAddress
    rw [Rv64.Load.encode, and_three_ciType, if_neg (by decide), unpackCompressedInstruction_ciType]
    simp only [and_one_of_funct4 (BitVec.isLt (uimm.extractLsb' 2 1)),
      shiftRight_one_of_funct4 (BitVec.isLt (uimm.extractLsb' 2 1)), stackImmDouble_ci]
    rfl

/-! ### Stores -/

/-- What is decoded from a store. -/
theorem parseDestinationAddress_store (i : Rv64.Store) (regs : SavedRegisters) :
    parseDestinationAddress i.encode regs =
      .ok ⟨(i.access (readReg regs)).address, accessWidth (i.access (readReg regs)).width,
        (i.access (readReg regs)).reg, i.size, false⟩ := by
  cases i with
  | base op rs2 rs1 imm =>
    unfold parseDestinationAddress
    rw [Rv64.Store.encode, and_three_sType, if_pos (by decide), unpackInstruction_sType]
    simp only [extendSign_fields]
    cases op <;> rfl
  | csw rs2 rs1 uimm =>
    unfold parseDestinationAddress
    rw [Rv64.Store.encode, and_three_cType, if_neg (by decide), unpackCompressedInstruction_cType]
    simp only [compressedImmWord_eq rs2.isLt rs1.isLt, and_seven_of_lt _ rs2.isLt,
      and_seven_of_lt _ rs1.isLt, readReg_eight_add, shiftRight_one_of_funct4 (high_lt _)]
    rfl
  | csd rs2 rs1 uimm =>
    unfold parseDestinationAddress
    rw [Rv64.Store.encode, and_three_cType, if_neg (by decide), unpackCompressedInstruction_cType]
    simp only [compressedImmDouble_eq rs2.isLt rs1.isLt, and_seven_of_lt _ rs2.isLt,
      and_seven_of_lt _ rs1.isLt, readReg_eight_add, shiftRight_one_of_funct4 (high_lt _)]
    rfl
  | cswsp rs2 uimm =>
    have hhigh : (uimm.extractLsb' 0 4 ++ uimm.extractLsb' 4 2).toNat / 2 ^ 5 < 2 := by
      have := (uimm.extractLsb' 0 4 ++ uimm.extractLsb' 4 2).isLt
      omega
    unfold parseDestinationAddress
    rw [Rv64.Store.encode, and_three_cssType, if_neg (by decide),
      unpackCompressedInstruction_cssType]
    simp only [and_one_of_funct4 hhigh, shiftRight_one_of_funct4 hhigh, stackImmWord_css]
    rfl
  | csdsp rs2 uimm =>
    have hhigh : (uimm.extractLsb' 0 3 ++ uimm.extractLsb' 3 3).toNat / 2 ^ 5 < 2 := by
      have := (uimm.extractLsb' 0 3 ++ uimm.extractLsb' 3 3).isLt
      omega
    unfold parseDestinationAddress
    rw [Rv64.Store.encode, and_three_cssType, if_neg (by decide),
      unpackCompressedInstruction_cssType]
    simp only [and_one_of_funct4 hhigh, shiftRight_one_of_funct4 hhigh, stackImmDouble_css]
    rfl

/-- The words that reach one of the `return`s of `parseDestinationAddress`. -/
structure StoreWord (w : Nat) : Prop where
  long : w &&& 3 = 3 → (unpackInstruction w).opcode = 0b0100011 ∧ (unpackInstruction w).funct3 < 4
  short : w &&& 3 ≠ 3 →
    ((unpackCompressedInstruction w).opcode = 0 ∨ (unpackCompressedInstruction w).opcode = 2) ∧
    ((unpackCompressedInstruction w).funct4 >>> 1 = 6 ∨
      (unpackCompressedInstruction w).funct4 >>> 1 = 7)

/-- What the decoder of stores accepts is a `StoreWord`. -/
theorem parseDestinationAddress_spec (w : Nat) (regs : SavedRegisters) :
    (parseDestinationAddress w regs).Post (fun e => e = .extractDestinationAddress)
      (fun _ => StoreWord w) := by
  unfold parseDestinationAddress
  by_cases hlow : w &&& 3 = 3
  · rw [if_pos hlow]
    dsimp only
    by_cases hop : (unpackInstruction w).opcode = 0b0100011
    · rw [if_pos hop]
      split
      -- `funct3` has a width for 0 to 3 only
      case h_5 => exact post_error.mpr rfl
      all_goals
        next hfunct3 =>
        exact post_ok.mpr ⟨fun _ => ⟨hop, by omega⟩, fun hne => absurd hlow hne⟩
    · rw [if_neg hop]
      exact post_error.mpr rfl
  · rw [if_neg hlow]
    dsimp only
    split
    · next hop =>
      split
      · next hfunct3 =>
        exact post_ok.mpr ⟨fun h => absurd h hlow, fun _ => ⟨.inl hop, .inl hfunct3⟩⟩
      · next hfunct3 =>
        exact post_ok.mpr ⟨fun h => absurd h hlow, fun _ => ⟨.inl hop, .inr hfunct3⟩⟩
      · exact post_error.mpr rfl
    · next hop =>
      split
      · next hfunct3 =>
        exact post_ok.mpr ⟨fun h => absurd h hlow, fun _ => ⟨.inr hop, .inl hfunct3⟩⟩
      · next hfunct3 =>
        exact post_ok.mpr ⟨fun h => absurd h hlow, fun _ => ⟨.inr hop, .inr hfunct3⟩⟩
      · exact post_error.mpr rfl
    · exact post_error.mpr rfl

/-- Every word is of the `S` format. -/
theorem exists_sType {w : Nat} (hw : w < 2 ^ 32) : ∃ imm rs2 rs1 funct3 opcode,
    w = (Rv64.sType imm rs2 rs1 funct3 opcode).toNat := by
  refine ⟨BitVec.ofNat 12 (w / 2 ^ 25 * 2 ^ 5 + w / 2 ^ 7 % 2 ^ 5), BitVec.ofNat 5 (w / 2 ^ 20),
    BitVec.ofNat 5 (w / 2 ^ 15), BitVec.ofNat 3 (w / 2 ^ 12), BitVec.ofNat 7 w, ?_⟩
  have himm : w / 2 ^ 25 * 2 ^ 5 + w / 2 ^ 7 % 2 ^ 5 < 2 ^ 12 := by omega
  have hlow : (w / 2 ^ 25 * 2 ^ 5 + w / 2 ^ 7 % 2 ^ 5) % 2 ^ 5 = w / 2 ^ 7 % 2 ^ 5 := by omega
  have hhigh : (w / 2 ^ 25 * 2 ^ 5 + w / 2 ^ 7 % 2 ^ 5) / 2 ^ 5 = w / 2 ^ 25 := by omega
  have h12 : w / 2 ^ 12 = w / 2 ^ 7 / 2 ^ 5 := by omega
  have h15 : w / 2 ^ 15 = w / 2 ^ 12 / 2 ^ 3 := by omega
  have h20 : w / 2 ^ 20 = w / 2 ^ 15 / 2 ^ 5 := by omega
  have h25 : w / 2 ^ 25 = w / 2 ^ 20 / 2 ^ 5 := by omega
  rw [Rv64.toNat_sType]
  simp only [BitVec.toNat_ofNat, Nat.mod_eq_of_lt himm, hlow, hhigh]
  omega

/-- Every half-word is of the `CL` and `CS` format. -/
theorem exists_cType {w : Nat} (hw : w < 2 ^ 16) : ∃ funct3 high rs1 low r op,
    w = (Rv64.cType funct3 high rs1 low r op).toNat := by
  refine ⟨BitVec.ofNat 3 (w / 2 ^ 13), BitVec.ofNat 3 (w / 2 ^ 10), BitVec.ofNat 3 (w / 2 ^ 7),
    BitVec.ofNat 2 (w / 2 ^ 5), BitVec.ofNat 3 (w / 2 ^ 2), BitVec.ofNat 2 w, ?_⟩
  rw [Rv64.toNat_cType]
  simp only [BitVec.toNat_ofNat]
  omega

/-- Every half-word is of the `CSS` format. -/
theorem exists_cssType {w : Nat} (hw : w < 2 ^ 16) : ∃ funct3 imm rs2 op,
    w = (Rv64.cssType funct3 imm rs2 op).toNat := by
  refine ⟨BitVec.ofNat 3 (w / 2 ^ 13), BitVec.ofNat 6 (w / 2 ^ 7), BitVec.ofNat 5 (w / 2 ^ 2),
    BitVec.ofNat 2 w, ?_⟩
  rw [Rv64.toNat_cssType]
  simp only [BitVec.toNat_ofNat]
  omega

/-- The offset bits of `C.SW` take every value. -/
theorem exists_wordOffset (high : BitVec 3) (low : BitVec 2) : ∃ uimm : BitVec 5,
    uimm.extractLsb' 1 3 = high ∧ uimm.extractLsb' 0 1 ++ uimm.extractLsb' 4 1 = low := by
  refine ⟨low.extractLsb' 0 1 ++ high ++ low.extractLsb' 1 1, ?_⟩
  revert high low
  decide

/-- The offset bits of `C.SD` take every value. -/
theorem exists_doubleOffset (high : BitVec 3) (low : BitVec 2) : ∃ uimm : BitVec 5,
    uimm.extractLsb' 0 3 = high ∧ uimm.extractLsb' 3 2 = low := by
  refine ⟨low ++ high, ?_⟩
  revert high low
  decide

/-- The offset bits of `C.SWSP` take every value. -/
theorem exists_stackWordOffset (imm : BitVec 6) : ∃ uimm : BitVec 6,
    uimm.extractLsb' 0 4 ++ uimm.extractLsb' 4 2 = imm := by
  refine ⟨imm.extractLsb' 0 2 ++ imm.extractLsb' 2 4, ?_⟩
  revert imm
  decide

/-- The offset bits of `C.SDSP` take every value. -/
theorem exists_stackDoubleOffset (imm : BitVec 6) : ∃ uimm : BitVec 6,
    uimm.extractLsb' 0 3 ++ uimm.extractLsb' 3 3 = imm := by
  refine ⟨imm.extractLsb' 0 3 ++ imm.extractLsb' 3 3, ?_⟩
  revert imm
  decide

/-- Every `funct3` below 4 is that of a store. -/
theorem exists_storeOp {funct3 : BitVec 3} (h : funct3.toNat < 4) :
    ∃ op : Rv64.StoreOp, op.funct3 = funct3 := by
  have hcases : funct3 = 0 ∨ funct3 = 1 ∨ funct3 = 2 ∨ funct3 = 3 := by
    revert h
    revert funct3
    decide
  rcases hcases with rfl | rfl | rfl | rfl
  · exact ⟨.sb, rfl⟩
  · exact ⟨.sh, rfl⟩
  · exact ⟨.sw, rfl⟩
  · exact ⟨.sd, rfl⟩

/-- A word that is accepted is the encoding of a store. -/
theorem StoreWord.exists_encode_long {w : Nat} (h : StoreWord w) (hlow : w &&& 3 = 3)
    (hw : w < 2 ^ 32) : ∃ i : Rv64.Store, i.encode = w := by
  -- take the word apart by its format, and read the opcode and `funct3` off the parts
  obtain ⟨imm, rs2, rs1, funct3, opcode, rfl⟩ := exists_sType hw
  obtain ⟨hop, hfunct3⟩ := h.long hlow
  rw [unpackInstruction_sType] at hop hfunct3
  obtain ⟨op, rfl⟩ := exists_storeOp hfunct3
  have hopcode : opcode = 0b0100011 := BitVec.eq_of_toNat_eq hop
  exact ⟨.base op rs2 rs1 imm, by rw [hopcode]; rfl⟩

/-- A compressed `StoreWord` is the encoding of a store. -/
theorem StoreWord.exists_encode_short {w : Nat} (h : StoreWord w) (hlow : w &&& 3 ≠ 3)
    (hw : w < 2 ^ 16) : ∃ i : Rv64.Store, i.encode = w := by
  obtain ⟨hop, hfunct3⟩ := h.short hlow
  rcases hop with hop | hop
  · -- `C.SW` and `C.SD`: the offset comes in two pieces around the base register
    obtain ⟨funct3, high, rs1, low, r, op, rfl⟩ := exists_cType hw
    rw [unpackCompressedInstruction_cType] at hop hfunct3
    rw [shiftRight_one_of_funct4 (high_lt high)] at hfunct3
    have hop' : op = 0b00 := BitVec.eq_of_toNat_eq hop
    rcases hfunct3 with hfunct3 | hfunct3
    · have hfunct3' : funct3 = 0b110 := BitVec.eq_of_toNat_eq hfunct3
      obtain ⟨uimm, rfl, rfl⟩ := exists_wordOffset high low
      exact ⟨.csw r rs1 uimm, by rw [hop', hfunct3']; rfl⟩
    · have hfunct3' : funct3 = 0b111 := BitVec.eq_of_toNat_eq hfunct3
      obtain ⟨uimm, rfl, rfl⟩ := exists_doubleOffset high low
      exact ⟨.csd r rs1 uimm, by rw [hop', hfunct3']; rfl⟩
  · -- `C.SWSP` and `C.SDSP`: the offset is one field, with its bits permuted
    obtain ⟨funct3, imm, rs2, op, rfl⟩ := exists_cssType hw
    have himm : imm.toNat / 2 ^ 5 < 2 := by
      have := imm.isLt
      omega
    rw [unpackCompressedInstruction_cssType] at hop hfunct3
    rw [shiftRight_one_of_funct4 himm] at hfunct3
    have hop' : op = 0b10 := BitVec.eq_of_toNat_eq hop
    rcases hfunct3 with hfunct3 | hfunct3
    · have hfunct3' : funct3 = 0b110 := BitVec.eq_of_toNat_eq hfunct3
      obtain ⟨uimm, rfl⟩ := exists_stackWordOffset imm
      exact ⟨.cswsp rs2 uimm, by rw [hop', hfunct3']; rfl⟩
    · have hfunct3' : funct3 = 0b111 := BitVec.eq_of_toNat_eq hfunct3
      obtain ⟨uimm, rfl⟩ := exists_stackDoubleOffset imm
      exact ⟨.csdsp rs2 uimm, by rw [hop', hfunct3']; rfl⟩

/-! ### From memory -/

/-- An instruction is two or four bytes long, as its two low bits say. -/
theorem dereferenceInstruction_cases (m : Mem) (ptr : Nat) :
    (dereferenceInstruction m ptr = load m ptr 4 ∧ load m ptr 4 % 4 = 3) ∨
      (dereferenceInstruction m ptr = load m ptr 2 ∧ load m ptr 2 % 4 ≠ 3) := by
  have hlt : load m ptr 2 < 2 ^ 16 := load_lt m ptr 2
  have hlong : load m ptr 4 = load m ptr 2 + 2 ^ 16 * load m (ptr + 2) 2 := load_add m ptr 2 2
  unfold dereferenceInstruction
  dsimp only
  rw [and_three]
  by_cases hlow : load m ptr 2 % 4 = 3
  · left
    rw [if_pos hlow, Nat.or_comm, ← Nat.shiftLeft_add_eq_or_of_lt hlt, Nat.shiftLeft_eq]
    omega
  · right
    exact ⟨if_neg hlow, hlow⟩

/-- What is fetched where a word of the right length lies. -/
theorem dereferenceInstruction_eq {m : Mem} {ptr n w : Nat} (hload : load m ptr n = w)
    (hlen : (n = 4 ∧ w % 4 = 3) ∨ (n = 2 ∧ w % 4 ≠ 3)) : dereferenceInstruction m ptr = w := by
  have hlong : load m ptr 4 = load m ptr 2 + 2 ^ 16 * load m (ptr + 2) 2 := load_add m ptr 2 2
  rcases dereferenceInstruction_cases m ptr with ⟨heq, hlow⟩ | ⟨heq, hlow⟩
  · rcases hlen with ⟨rfl, -⟩ | ⟨rfl, hne⟩
    · rw [heq, hload]
    · omega
  · rcases hlen with ⟨rfl, hthree⟩ | ⟨rfl, -⟩
    · omega
    · rw [heq, hload]

/-- The length of a load is the one that its lowest bits give. -/
theorem load_size_encode (i : Rv64.Load) :
    (i.size = 4 ∧ i.encode % 4 = 3) ∨ (i.size = 2 ∧ i.encode % 4 ≠ 3) := by
  rw [← and_three]
  cases i with
  | base op rd rs1 imm => exact .inl ⟨rfl, and_three_iType ..⟩
  | clw rd rs1 uimm    => exact .inr ⟨rfl, by rw [Rv64.Load.encode, and_three_cType]; decide⟩
  | cld rd rs1 uimm    => exact .inr ⟨rfl, by rw [Rv64.Load.encode, and_three_cType]; decide⟩
  | clwsp rd uimm      => exact .inr ⟨rfl, by rw [Rv64.Load.encode, and_three_ciType]; decide⟩
  | cldsp rd uimm      => exact .inr ⟨rfl, by rw [Rv64.Load.encode, and_three_ciType]; decide⟩

/-- And that of a store. -/
theorem store_size_encode (i : Rv64.Store) :
    (i.size = 4 ∧ i.encode % 4 = 3) ∨ (i.size = 2 ∧ i.encode % 4 ≠ 3) := by
  rw [← and_three]
  cases i with
  | base op rs2 rs1 imm => exact .inl ⟨rfl, and_three_sType ..⟩
  | csw rs2 rs1 uimm    => exact .inr ⟨rfl, by rw [Rv64.Store.encode, and_three_cType]; decide⟩
  | csd rs2 rs1 uimm    => exact .inr ⟨rfl, by rw [Rv64.Store.encode, and_three_cType]; decide⟩
  | cswsp rs2 uimm      => exact .inr ⟨rfl, by rw [Rv64.Store.encode, and_three_cssType]; decide⟩
  | csdsp rs2 uimm      => exact .inr ⟨rfl, by rw [Rv64.Store.encode, and_three_cssType]; decide⟩

/-! ### The decoders on what lies in memory -/

/-- `r` is the access the architecture defines for the load `i`.  A doubleword fills the register,
    so its sign flag does not matter. -/
def LoadDecoded (i : Rv64.Load) (regs : SavedRegisters) (r : Except Panic DecodedAccess) : Prop :=
  ∃ d, r = .ok d ∧ d.address = (i.access (readReg regs)).address ∧
    d.width = accessWidth (i.access (readReg regs)).width ∧
    d.reg = (i.access (readReg regs)).reg ∧ d.pcAdvance = i.size ∧
    ((i.access (readReg regs)).width ≠ .double → d.isSigned = (i.access (readReg regs)).signed)

/-- **Loads.**  Every load but `C.LWSP` is decoded as the architecture defines it; `C.LWSP` never
    gets its sign flag. -/
theorem loadDecoded_iff (m : Mem) (ptr : Nat) (i : Rv64.Load) (regs : SavedRegisters)
    (h : load m ptr i.size = i.encode) :
    LoadDecoded i regs (parseSourceAddress (dereferenceInstruction m ptr) regs) ↔
      ∀ rd uimm, i ≠ .clwsp rd uimm := by
  rw [dereferenceInstruction_eq h (load_size_encode i), parseSourceAddress_load]
  -- all but the sign flag is right in any case, so both directions are about the flag
  constructor
  · intro hdec rd uimm hi
    obtain ⟨d, hd, -, -, -, -, hsign⟩ := hdec
    have hword : (i.access (readReg regs)).width ≠ .double := by
      subst hi
      exact show Rv64.Width.word ≠ .double by decide
    cases hd
    exact (signFlag_iff i (readReg regs) hword).mp (hsign hword) rd uimm hi
  · intro hne
    exact ⟨_, rfl, rfl, rfl, rfl, rfl,
      fun hwidth => (signFlag_iff i (readReg regs) hwidth).mpr hne⟩

/-- `lw a0, -4(t0)` is decoded. -/
theorem loadDecoded_lw :
    LoadDecoded (.base .lw 10 5 0xFFC) (fun _ => 0x8000)
      (parseSourceAddress (dereferenceInstruction (store (fun _ => 0) 0x80200000 4 0xFFC2A503)
        0x80200000) (fun _ => 0x8000)) :=
  (loadDecoded_iff _ _ _ _ (by rw [Rv64.Load.size, load_store_same]; decide)).mpr nofun

/-- `c.lwsp a0, 0(sp)` is taken for an unsigned load. -/
theorem not_loadDecoded_clwsp :
    load (store (fun _ => 0) 0x80200000 2 0x4502) 0x80200000 (Rv64.Load.clwsp 10 0).size =
        (Rv64.Load.clwsp 10 0).encode ∧
      ¬ LoadDecoded (.clwsp 10 0) (fun _ => 0x8000)
        (parseSourceAddress (dereferenceInstruction (store (fun _ => 0) 0x80200000 2 0x4502)
          0x80200000) (fun _ => 0x8000)) := by
  have hload : load (store (fun _ => 0) 0x80200000 2 0x4502) 0x80200000 2 = 0x4502 :=
    load_store_same _ _ _ _
  have hparse : parseSourceAddress (dereferenceInstruction
      (store (fun _ => 0) 0x80200000 2 0x4502) 0x80200000) (fun _ => 0x8000) =
        .ok ⟨0x8000, .w32, 10, 2, false⟩ := by
    rw [dereferenceInstruction_eq hload (.inr ⟨rfl, by decide⟩)]
    decide
  refine ⟨hload, ?_⟩
  intro hdec
  obtain ⟨d, hd, -, -, -, -, hsign⟩ := hdec
  rw [hparse] at hd
  cases hd
  exact absurd (hsign (by decide)) (by decide)

/-- **Stores.**  Every store is decoded as the architecture defines it, and everything else is
    refused. -/
theorem parseDestinationAddress_dereference (m : Mem) (ptr : Nat) (regs : SavedRegisters) :
    (∀ i : Rv64.Store, load m ptr i.size = i.encode →
      parseDestinationAddress (dereferenceInstruction m ptr) regs =
        .ok ⟨(i.access (readReg regs)).address, accessWidth (i.access (readReg regs)).width,
          (i.access (readReg regs)).reg, i.size, false⟩) ∧
    ((∀ i : Rv64.Store, load m ptr i.size ≠ i.encode) →
      parseDestinationAddress (dereferenceInstruction m ptr) regs =
        .error .extractDestinationAddress) := by
  constructor
  · intro i h
    rw [dereferenceInstruction_eq h (store_size_encode i), parseDestinationAddress_store]
  · intro hother
    have hspec := parseDestinationAddress_spec (dereferenceInstruction m ptr) regs
    cases hres : parseDestinationAddress (dereferenceInstruction m ptr) regs with
    | error e => rw [hspec.error hres]
    | ok d =>
      -- an accepted word encodes a store, and that store lies at `ptr`
      exfalso
      have hword := hspec.ok hres
      rcases dereferenceInstruction_cases m ptr with ⟨heq, hlow⟩ | ⟨heq, hlow⟩
      -- the two low bits fix the length of that store, so it was read whole
      · rw [heq] at hword
        rw [← and_three] at hlow
        obtain ⟨i, hi⟩ := hword.exists_encode_long hlow (load_lt m ptr 4)
        have hsize : i.size = 4 := by
          rw [and_three, ← hi] at hlow
          rcases store_size_encode i with ⟨hsize, -⟩ | ⟨-, hne⟩
          · exact hsize
          · exact absurd hlow hne
        apply hother i
        rw [hsize, hi]
      · rw [heq] at hword
        rw [← and_three] at hlow
        obtain ⟨i, hi⟩ := hword.exists_encode_short hlow (load_lt m ptr 2)
        have hsize : i.size = 2 := by
          rw [and_three, ← hi] at hlow
          rcases store_size_encode i with ⟨-, hthree⟩ | ⟨hsize, -⟩
          · exact absurd hthree hlow
          · exact hsize
        apply hother i
        rw [hsize, hi]

/-- `sd a1, -8(t0)` is decoded and `addi a0, a0, 1` is not. -/
theorem parseDestinationAddress_dereference_sd :
    parseDestinationAddress (dereferenceInstruction (store (fun _ => 0) 0x80200000 4 0xFEB2BC23)
        0x80200000) (fun _ => 0x8000) = .ok ⟨0x7FF8, .w64, 11, 4, false⟩ ∧
      parseDestinationAddress (dereferenceInstruction (store (fun _ => 0) 0x80200000 4 0x150513)
        0x80200000) (fun _ => 0x8000) = .error .extractDestinationAddress := by
  constructor
  · rw [(parseDestinationAddress_dereference _ _ _).1 (.base .sd 11 5 0xFF8)
      (by rw [Rv64.Store.size, load_store_same]; decide)]
    decide
  · apply (parseDestinationAddress_dereference _ _ _).2
    intro i hi
    rcases store_size_encode i with ⟨hsize, -⟩ | ⟨hsize, hne⟩
    · rw [hsize, load_store_same] at hi
      have hop : (unpackInstruction i.encode).opcode = 0b0100011 := by
        cases i with
        | base op rs2 rs1 imm => rw [Rv64.Store.encode, unpackInstruction_sType]; rfl
        | _ => cases hsize
      rw [← hi] at hop
      revert hop
      decide
    · rw [hsize] at hi
      have hlow : load (store (fun _ => 0) 0x80200000 4 0x150513) 0x80200000 2 = 0x513 := by decide
      rw [← hi, hlow] at hne
      exact hne (by decide)

end RiscvHypervisor
