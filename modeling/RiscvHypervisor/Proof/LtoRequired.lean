import RiscvHypervisor.Model.LtoRequired
import RiscvHypervisor.Lib.CellCopy
import Mathlib.Data.List.Range

namespace RiscvHypervisor

open ByteMem

/-!
# The memory routines do what their names say

* `memmove_copied` — `memmove` copies its whole range at once, for any overlap: in each branch
  the order of the loop is safe (`safe_up`, `safe_down`), because a target that is still to be
  read would lie on the other side of its source.
* `memmove_simultaneous` — the same, byte by byte.
* `memcpy_eq_memmove` — on disjoint ranges `memcpy` and `memmove` are the same function.
* `memset_apply` and `memcmp_lt_zero`, `memcmp_eq_zero` — the fill, and the comparison as the
  lexicographic order of the two ranges.
-/

variable {dst src size p : Word} {m : Mem} {n : Nat}

/-- In a range that does not wrap, `p[i]` is `i` bytes above `p`. -/
theorem charAddr_eq {i : Nat} (hp : p.toNat + n ≤ 2 ^ 64) (hi : i < n) :
    charAddr p i = p.toNat + i := by
  unfold charAddr
  rw [BitVec.toNat_add, BitVec.toNat_ofNat, Nat.mod_eq_of_lt (show i < 2 ^ 64 by omega)]
  exact Nat.mod_eq_of_lt (by omega)

/-! ### The two directions -/

/-- Copying upwards is safe when the target does not begin inside the source, above its start. -/
theorem safe_up (hdst : dst.toNat + n ≤ 2 ^ 64) (hsrc : src.toNat + n ≤ 2 ^ 64)
    (hup : dst.toNat ≤ src.toNat ∨ src.toNat + n ≤ dst.toNat) :
    CellCopy.Safe (charAddr dst) (charAddr src) (List.range n) := by
  refine List.pairwise_lt_range.imp_of_mem ?_
  intro i j hi hj hij
  rw [List.mem_range] at hi hj
  rw [charAddr_eq hdst hi, charAddr_eq hdst hj, charAddr_eq hsrc hj]
  omega

/-- Copying downwards is safe when the target lies above the source. -/
theorem safe_down (hdst : dst.toNat + n ≤ 2 ^ 64) (hsrc : src.toNat + n ≤ 2 ^ 64)
    (hlt : src.toNat < dst.toNat) :
    CellCopy.Safe (charAddr dst) (charAddr src) (List.range n).reverse := by
  refine List.pairwise_reverse.mpr (List.pairwise_lt_range.imp_of_mem ?_)
  -- here `j` is copied before `i`
  intro i j hi hj hij
  rw [List.mem_range] at hi hj
  rw [charAddr_eq hdst hi, charAddr_eq hdst hj, charAddr_eq hsrc hi]
  omega

/-- The downward loop visits the indices of the upward loop in reverse. -/
theorem memmoveDown_eq (dst src : Word) (n : Nat) (m : Mem) :
    memmoveDown dst src n m =
      CellCopy.copyAll (charAddr dst) (charAddr src) (List.range n).reverse m := by
  induction n generalizing m with
  | zero => rfl
  | succ n ih =>
    rw [memmoveDown, ih, List.range_succ, List.reverse_append]
    rfl

/-! ### `memmove` -/

/-- **Both branches.**  Whichever way it runs, `memmove` is the simultaneous copy. -/
theorem memmove_copied (m : Mem) (hdst : dst.toNat + size.toNat ≤ 2 ^ 64)
    (hsrc : src.toNat + size.toNat ≤ 2 ^ 64) :
    CellCopy.Copied (charAddr dst) (charAddr src) (List.range size.toNat) m
      (memmove dst src size m) := by
  unfold memmove
  split
  · rename_i hle
    exact CellCopy.copyAll_copied m (safe_up hdst hsrc (Or.inl (BitVec.le_def.mp hle)))
  · rename_i hle
    have hlt : src.toNat < dst.toNat := by
      rw [BitVec.le_def] at hle
      omega
    rw [memmoveDown_eq]
    have hdown := CellCopy.copyAll_copied m (safe_down hdst hsrc hlt)
    exact ⟨fun i hi => hdown.moved i (List.mem_reverse.mpr hi),
      fun a ha => hdown.frame a (fun i hi => ha i (List.mem_reverse.mp hi))⟩

/-- **`memmove` is a simultaneous copy.**  After the call every byte of the target range is what
    the byte of the source range was before it, and no byte outside the target range has
    changed, however the two ranges overlap. -/
theorem memmove_simultaneous (m : Mem) (dst src size : Word)
    (hdst : dst.toNat + size.toNat ≤ 2 ^ 64) (hsrc : src.toNat + size.toNat ≤ 2 ^ 64) :
    (∀ i < size.toNat, memmove dst src size m (dst.toNat + i) = m (src.toNat + i)) ∧
    ∀ a, a < dst.toNat ∨ dst.toNat + size.toNat ≤ a → memmove dst src size m a = m a := by
  have hcopied := memmove_copied m hdst hsrc
  refine ⟨?_, ?_⟩
  · intro i hi
    have hmoved := hcopied.moved i (List.mem_range.mpr hi)
    rwa [charAddr_eq hdst hi, charAddr_eq hsrc hi] at hmoved
  · intro a ha
    refine hcopied.frame a ?_
    intro i hi
    rw [charAddr_eq hdst (List.mem_range.mp hi)]
    have hi := List.mem_range.mp hi
    omega

/-- Four bytes moved up by one, so that each but the last is overwritten. -/
theorem memmove_simultaneous_overlap :
    (∀ i < (4 : Word).toNat,
      memmove 0x80000001 0x80000000 4 (fun a => BitVec.ofNat 8 a) ((0x80000001 : Word).toNat + i) =
        BitVec.ofNat 8 ((0x80000000 : Word).toNat + i)) ∧
    ∀ a, a < (0x80000001 : Word).toNat ∨ (0x80000001 : Word).toNat + (4 : Word).toNat ≤ a →
      memmove 0x80000001 0x80000000 4 (fun a => BitVec.ofNat 8 a) a = BitVec.ofNat 8 a :=
  memmove_simultaneous (fun a => BitVec.ofNat 8 a) 0x80000001 0x80000000 4 (by decide) (by decide)

/-! ### `memcpy`, `memset` and `memcmp` -/

/-- Ranges that do not overlap need no order, and `memcpy` is `memmove` there. -/
theorem memcpy_eq_memmove (m : Mem) (hdst : dst.toNat + size.toNat ≤ 2 ^ 64)
    (hsrc : src.toNat + size.toNat ≤ 2 ^ 64)
    (hdisjoint : dst.toNat + size.toNat ≤ src.toNat ∨ src.toNat + size.toNat ≤ dst.toNat) :
    memcpy dst src size m = memmove dst src size m := by
  have hsafe := safe_up hdst hsrc (by omega)
  exact (CellCopy.copyAll_copied m hsafe).unique (memmove_copied m hdst hsrc) (fun _ => Iff.rfl)

/-- `memset` fills its range with the low byte of `val` and changes nothing else. -/
theorem memset_apply (m : Mem) (val : BitVec 32) (hdst : dst.toNat + size.toNat ≤ 2 ^ 64)
    (a : Nat) : memset dst val size m a =
      if dst.toNat ≤ a ∧ a < dst.toNat + size.toNat then val.setWidth 8 else m a := by
  have hloop : ∀ k ≤ size.toNat, (List.range k).foldl
      (fun m i => Function.update m (charAddr dst i) (val.setWidth 8)) m a =
        if dst.toNat ≤ a ∧ a < dst.toNat + k then val.setWidth 8 else m a := by
    intro k hk
    induction k with
    | zero =>
      rw [if_neg (by omega)]
      rfl
    | succ k ih =>
      rw [List.range_succ, List.foldl_append, List.foldl_cons, List.foldl_nil]
      rw [charAddr_eq hdst (show k < size.toNat by omega)]
      by_cases ha : a = dst.toNat + k
      · rw [ha, Function.update_self, if_pos (by omega)]
      · rw [Function.update_of_ne ha, ih (by omega)]
        exact if_congr (by omega) rfl rfl
  exact hloop size.toNat (Nat.le_refl _)

/-- The bytes of a range, as a string. -/
def bytesAt (p : Word) (n : Nat) (m : Mem) : List (BitVec 8) :=
  (List.range n).map (fun i => m (charAddr p i))

/-- The comparison loop orders the remaining bytes lexicographically. -/
theorem memcmpLoop_sign (s1 s2 : Word) (m : Mem) (l : List Nat) :
    (memcmpLoop s1 s2 m l < 0 ↔
      l.map (fun i => m (charAddr s1 i)) < l.map (fun i => m (charAddr s2 i))) ∧
    (memcmpLoop s1 s2 m l = 0 ↔
      l.map (fun i => m (charAddr s1 i)) = l.map (fun i => m (charAddr s2 i))) := by
  induction l with
  | nil => simp [memcmpLoop]
  | cons i l ih =>
    obtain ⟨ihlt, iheq⟩ := ih
    rw [List.map_cons, List.map_cons, List.cons_lt_cons_iff, List.cons_eq_cons, memcmpLoop,
      BitVec.lt_def, ← BitVec.toNat_inj]
    generalize (m (charAddr s1 i)).toNat = b1
    generalize (m (charAddr s2 i)).toNat = b2
    rcases Nat.lt_trichotomy b1 b2 with hlt | rfl | hgt
    · rw [if_pos (by omega)]
      exact ⟨by simp [hlt], by simp [Nat.ne_of_lt hlt]⟩
    · rw [if_neg (by omega), if_neg (by omega)]
      exact ⟨by simp [ihlt], by simp [iheq]⟩
    · rw [if_neg (by omega), if_pos (by omega)]
      exact ⟨by simp; omega, by simp; omega⟩

/-- `memcmp` is negative when the first range comes first in the lexicographic order. -/
theorem memcmp_lt_zero (s1 s2 size : Word) (m : Mem) :
    memcmp s1 s2 size m < 0 ↔ bytesAt s1 size.toNat m < bytesAt s2 size.toNat m :=
  (memcmpLoop_sign s1 s2 m _).1

/-- `memcmp` is zero when the ranges hold the same bytes. -/
theorem memcmp_eq_zero (s1 s2 size : Word) (m : Mem) :
    memcmp s1 s2 size m = 0 ↔ bytesAt s1 size.toNat m = bytesAt s2 size.toNat m :=
  (memcmpLoop_sign s1 s2 m _).2

end RiscvHypervisor
