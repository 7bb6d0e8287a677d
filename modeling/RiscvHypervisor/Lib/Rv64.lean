import Mathlib.Data.Nat.Bitwise
import Mathlib.Tactic.Ring

namespace Rv64

/-!
# Library — loads, stores and privileged instructions of RV64C

The loads and stores of RV64I and of its compressed extension: their encodings, written field by
field as the tables of the architecture have them, and what each of them accesses.  A compressed
offset is given in units of the access, so that every value of the field is a legal one.  The CSR
accesses and the privileged instructions a monitor emulates are given by their encodings only.

`Load.access` and `Store.access` take the registers as a function `x`, with `x 0 = 0` up to
whoever supplies it.
-/

/-- Width of an access. -/
inductive Width where
  | byte
  | half
  | word
  | double
deriving DecidableEq, Repr

/-- A memory access: what an instruction does with memory. -/
structure Access where
  address : BitVec 64
  width : Width
  reg : Nat
  signed : Bool
deriving DecidableEq, Repr

/-! ### Formats -/

/-- The I format. -/
def iType (imm : BitVec 12) (rs1 : BitVec 5) (funct3 : BitVec 3) (rd : BitVec 5)
    (opcode : BitVec 7) : BitVec 32 :=
  imm ++ rs1 ++ funct3 ++ rd ++ opcode

/-- The S format: the immediate is split around the registers. -/
def sType (imm : BitVec 12) (rs2 rs1 : BitVec 5) (funct3 : BitVec 3) (opcode : BitVec 7) :
    BitVec 32 :=
  imm.extractLsb' 5 7 ++ rs2 ++ rs1 ++ funct3 ++ imm.extractLsb' 0 5 ++ opcode

/-- The CL and CS formats, with a data register `r` and the offset in two parts. -/
def cType (funct3 : BitVec 3) (high : BitVec 3) (rs1 : BitVec 3) (low : BitVec 2) (r : BitVec 3)
    (op : BitVec 2) : BitVec 16 :=
  funct3 ++ high ++ rs1 ++ low ++ r ++ op

/-- The CI format. -/
def ciType (funct3 : BitVec 3) (high : BitVec 1) (rd : BitVec 5) (low : BitVec 5) (op : BitVec 2) :
    BitVec 16 :=
  funct3 ++ high ++ rd ++ low ++ op

/-- The CSS format. -/
def cssType (funct3 : BitVec 3) (imm : BitVec 6) (rs2 : BitVec 5) (op : BitVec 2) : BitVec 16 :=
  funct3 ++ imm ++ rs2 ++ op

/-! ### Loads -/

/-- The loads of RV64I. -/
inductive LoadOp where
  | lb
  | lh
  | lw
  | ld
  | lbu
  | lhu
  | lwu
deriving DecidableEq, Repr

def LoadOp.funct3 : LoadOp → BitVec 3
  | .lb  => 0
  | .lh  => 1
  | .lw  => 2
  | .ld  => 3
  | .lbu => 4
  | .lhu => 5
  | .lwu => 6

def LoadOp.width : LoadOp → Width
  | .lb | .lbu => .byte
  | .lh | .lhu => .half
  | .lw | .lwu => .word
  | .ld        => .double

/-- Whether the loaded value is sign-extended. -/
def LoadOp.signed : LoadOp → Bool
  | .lb | .lh | .lw | .ld => true
  | .lbu | .lhu | .lwu    => false

/-- An integer load. -/
inductive Load where
  | base (op : LoadOp) (rd rs1 : BitVec 5) (imm : BitVec 12)
  | clw (rd rs1 : BitVec 3) (uimm : BitVec 5)
  | cld (rd rs1 : BitVec 3) (uimm : BitVec 5)
  | clwsp (rd : BitVec 5) (uimm : BitVec 6)
  | cldsp (rd : BitVec 5) (uimm : BitVec 6)
deriving DecidableEq, Repr

/-- Bytes the instruction takes. -/
def Load.size : Load → Nat
  | .base .. => 4
  | _        => 2

/-- The instruction word. -/
def Load.encode : Load → Nat
  | .base op rd rs1 imm => (iType imm rs1 op.funct3 rd 0b0000011).toNat
  | .clw rd rs1 uimm =>
    (cType 0b010 (uimm.extractLsb' 1 3) rs1 (uimm.extractLsb' 0 1 ++ uimm.extractLsb' 4 1)
      rd 0b00).toNat
  | .cld rd rs1 uimm =>
    (cType 0b011 (uimm.extractLsb' 0 3) rs1 (uimm.extractLsb' 3 2) rd 0b00).toNat
  | .clwsp rd uimm =>
    (ciType 0b010 (uimm.extractLsb' 3 1) rd (uimm.extractLsb' 0 3 ++ uimm.extractLsb' 4 2)
      0b10).toNat
  | .cldsp rd uimm =>
    (ciType 0b011 (uimm.extractLsb' 2 1) rd (uimm.extractLsb' 0 2 ++ uimm.extractLsb' 3 3)
      0b10).toNat

/-- What a load accesses.  The registers of the three-bit fields start at `x8`, and `x2` is the
    stack pointer. -/
def Load.access (x : Nat → BitVec 64) : Load → Access
  | .base op rd rs1 imm => ⟨x rs1.toNat + imm.signExtend 64, op.width, rd.toNat, op.signed⟩
  | .clw rd rs1 uimm =>
    ⟨x (8 + rs1.toNat) + BitVec.ofNat 64 (4 * uimm.toNat), .word, 8 + rd.toNat, true⟩
  | .cld rd rs1 uimm =>
    ⟨x (8 + rs1.toNat) + BitVec.ofNat 64 (8 * uimm.toNat), .double, 8 + rd.toNat, true⟩
  | .clwsp rd uimm => ⟨x 2 + BitVec.ofNat 64 (4 * uimm.toNat), .word, rd.toNat, true⟩
  | .cldsp rd uimm => ⟨x 2 + BitVec.ofNat 64 (8 * uimm.toNat), .double, rd.toNat, true⟩

/-- The words of the `C.LWSP` and `C.LDSP` format that are reserved: without a destination they are
    no loads. -/
def Load.Reserved : Load → Prop
  | .clwsp rd _ => rd = 0
  | .cldsp rd _ => rd = 0
  | _           => False

/-! ### Stores -/

/-- The stores of RV64I. -/
inductive StoreOp where
  | sb
  | sh
  | sw
  | sd
deriving DecidableEq, Repr

def StoreOp.funct3 : StoreOp → BitVec 3
  | .sb => 0
  | .sh => 1
  | .sw => 2
  | .sd => 3

def StoreOp.width : StoreOp → Width
  | .sb => .byte
  | .sh => .half
  | .sw => .word
  | .sd => .double

/-- An integer store. -/
inductive Store where
  | base (op : StoreOp) (rs2 rs1 : BitVec 5) (imm : BitVec 12)
  | csw (rs2 rs1 : BitVec 3) (uimm : BitVec 5)
  | csd (rs2 rs1 : BitVec 3) (uimm : BitVec 5)
  | cswsp (rs2 : BitVec 5) (uimm : BitVec 6)
  | csdsp (rs2 : BitVec 5) (uimm : BitVec 6)
deriving DecidableEq, Repr

/-- Bytes the instruction takes. -/
def Store.size : Store → Nat
  | .base .. => 4
  | _        => 2

/-- The instruction word. -/
def Store.encode : Store → Nat
  | .base op rs2 rs1 imm => (sType imm rs2 rs1 op.funct3 0b0100011).toNat
  | .csw rs2 rs1 uimm =>
    (cType 0b110 (uimm.extractLsb' 1 3) rs1 (uimm.extractLsb' 0 1 ++ uimm.extractLsb' 4 1)
      rs2 0b00).toNat
  | .csd rs2 rs1 uimm =>
    (cType 0b111 (uimm.extractLsb' 0 3) rs1 (uimm.extractLsb' 3 2) rs2 0b00).toNat
  | .cswsp rs2 uimm =>
    (cssType 0b110 (uimm.extractLsb' 0 4 ++ uimm.extractLsb' 4 2) rs2 0b10).toNat
  | .csdsp rs2 uimm =>
    (cssType 0b111 (uimm.extractLsb' 0 3 ++ uimm.extractLsb' 3 3) rs2 0b10).toNat

/-- What a store accesses. -/
def Store.access (x : Nat → BitVec 64) : Store → Access
  | .base op rs2 rs1 imm => ⟨x rs1.toNat + imm.signExtend 64, op.width, rs2.toNat, false⟩
  | .csw rs2 rs1 uimm =>
    ⟨x (8 + rs1.toNat) + BitVec.ofNat 64 (4 * uimm.toNat), .word, 8 + rs2.toNat, false⟩
  | .csd rs2 rs1 uimm =>
    ⟨x (8 + rs1.toNat) + BitVec.ofNat 64 (8 * uimm.toNat), .double, 8 + rs2.toNat, false⟩
  | .cswsp rs2 uimm => ⟨x 2 + BitVec.ofNat 64 (4 * uimm.toNat), .word, rs2.toNat, false⟩
  | .csdsp rs2 uimm => ⟨x 2 + BitVec.ofNat 64 (8 * uimm.toNat), .double, rs2.toNat, false⟩

/-! ### Privileged instructions -/

/-- An access to a CSR, or an instruction of a privileged mode. -/
inductive Privileged where
  | csrrw (rd rs1 : BitVec 5) (csr : BitVec 12)
  | csrrs (rd rs1 : BitVec 5) (csr : BitVec 12)
  | sfenceVma (rs1 rs2 : BitVec 5)
  | mret
deriving DecidableEq, Repr

/-- The instruction word. -/
def Privileged.encode : Privileged → Nat
  | .csrrw rd rs1 csr   => (iType csr rs1 1 rd 0b1110011).toNat
  | .csrrs rd rs1 csr   => (iType csr rs1 2 rd 0b1110011).toNat
  | .sfenceVma rs1 rs2  => (iType ((0b0001001 : BitVec 7) ++ rs2) rs1 0 0 0b1110011).toNat
  | .mret               => (iType 0b001100000010 0 0 0 0b1110011).toNat

/-! ### Words as numbers -/

/-- Concatenation, as numbers. -/
theorem toNat_append_eq {m n : Nat} (a : BitVec m) (b : BitVec n) :
    (a ++ b).toNat = a.toNat * 2 ^ n + b.toNat := by
  rw [BitVec.toNat_append, ← Nat.shiftLeft_add_eq_or_of_lt b.isLt, Nat.shiftLeft_eq]

/-- A field, as a number. -/
theorem toNat_extractLsb_eq {m : Nat} (a : BitVec m) (i n : Nat) :
    (a.extractLsb' i n).toNat = a.toNat / 2 ^ i % 2 ^ n := by
  rw [BitVec.extractLsb'_toNat, Nat.shiftRight_eq_div_pow]

/-- The formats, as numbers, so that their fields are found by division: the `I` format, -/
theorem toNat_iType (imm : BitVec 12) (rs1 : BitVec 5) (funct3 : BitVec 3) (rd : BitVec 5)
    (opcode : BitVec 7) : (iType imm rs1 funct3 rd opcode).toNat =
      opcode.toNat + 2 ^ 7 * (rd.toNat + 2 ^ 5 * (funct3.toNat + 2 ^ 3 * (rs1.toNat +
        2 ^ 5 * imm.toNat))) := by
  unfold iType
  simp only [toNat_append_eq]
  ring

/-- the `S` format, whose immediate is split, -/
theorem toNat_sType (imm : BitVec 12) (rs2 rs1 : BitVec 5) (funct3 : BitVec 3)
    (opcode : BitVec 7) : (sType imm rs2 rs1 funct3 opcode).toNat =
      opcode.toNat + 2 ^ 7 * (imm.toNat % 2 ^ 5 + 2 ^ 5 * (funct3.toNat + 2 ^ 3 * (rs1.toNat +
        2 ^ 5 * (rs2.toNat + 2 ^ 5 * (imm.toNat / 2 ^ 5))))) := by
  have himm : imm.toNat / 2 ^ 5 % 2 ^ 7 = imm.toNat / 2 ^ 5 := by
    have := imm.isLt
    omega
  unfold sType
  simp only [toNat_append_eq, toNat_extractLsb_eq, himm, pow_zero, Nat.div_one]
  ring

/-- the format of `C.LW` and its kind, -/
theorem toNat_cType (funct3 high rs1 : BitVec 3) (low : BitVec 2) (r : BitVec 3)
    (op : BitVec 2) : (cType funct3 high rs1 low r op).toNat =
      op.toNat + 2 ^ 2 * (r.toNat + 2 ^ 3 * (low.toNat + 2 ^ 2 * (rs1.toNat + 2 ^ 3 * (high.toNat +
        2 ^ 3 * funct3.toNat)))) := by
  unfold cType
  simp only [toNat_append_eq]
  ring

/-- that of `C.LWSP` -/
theorem toNat_ciType (funct3 : BitVec 3) (high : BitVec 1) (rd low : BitVec 5) (op : BitVec 2) :
    (ciType funct3 high rd low op).toNat =
      op.toNat + 2 ^ 2 * (low.toNat + 2 ^ 5 * (rd.toNat + 2 ^ 5 * (high.toNat +
        2 * funct3.toNat))) := by
  unfold ciType
  simp only [toNat_append_eq]
  ring

/-- and that of `C.SWSP`. -/
theorem toNat_cssType (funct3 : BitVec 3) (imm : BitVec 6) (rs2 : BitVec 5) (op : BitVec 2) :
    (cssType funct3 imm rs2 op).toNat =
      op.toNat + 2 ^ 2 * (rs2.toNat + 2 ^ 5 * (imm.toNat + 2 ^ 6 * funct3.toNat)) := by
  unfold cssType
  simp only [toNat_append_eq]
  ring

end Rv64
