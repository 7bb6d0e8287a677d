import Mathlib.Data.Nat.Bitwise
import Mathlib.Data.Set.Defs

namespace Sv39

/-!
# Library — the Sv39 page-table walk

The three-level walk of the RISC-V privileged architecture over a memory given by its 64-bit
reads `rd`.  Addresses and entries are natural numbers; a table is named by its base address.
The walk is stated once and used for every table it is run on: only `rd` changes.

* `walk_add`, `Leaf.translate_add` — the bytes of a page are translated one after the other;
* `walk_same` — a walk does not depend on accessed and dirty bits.
-/

/-- Bit positions of the flags of a page-table entry. -/
def bitV : Nat := 0
def bitR : Nat := 1
def bitW : Nat := 2
def bitX : Nat := 3
def bitU : Nat := 4
def bitA : Nat := 6
def bitD : Nat := 7

/-- The virtual page number field of `va` that indexes the table of level `level`. -/
def vpn (va level : Nat) : Nat := va / 2 ^ (12 + 9 * level) % 512

/-- Bytes mapped by a leaf of level `level`: 4 KiB, 2 MiB or 1 GiB. -/
def pageSize (level : Nat) : Nat := 2 ^ (12 + 9 * level)

/-- The physical page number field (bits 53..10). -/
def ppn (pte : Nat) : Nat := pte / 2 ^ 10 % 2 ^ 44

/-- Whether the entry maps memory, as opposed to pointing to the next table. -/
def isLeaf (pte : Nat) : Bool := pte.testBit bitR || pte.testBit bitW || pte.testBit bitX

/-- A leaf met by a walk: its level, the address of the entry and its value. -/
structure Leaf where
  level : Nat
  slot : Nat
  pte : Nat
deriving DecidableEq, Repr

/-- Base of the memory a leaf maps. -/
def Leaf.base (l : Leaf) : Nat := ppn l.pte * 4096

/-- The address a leaf translates `va` to. -/
def Leaf.translate (l : Leaf) (va : Nat) : Nat := l.base + va % pageSize l.level

/-- Whether the mapped memory starts on a multiple of its size. -/
def Leaf.aligned (l : Leaf) : Bool := l.base % pageSize l.level == 0

/-- The walk for `va` from the table of level `level` at `base`: the first leaf on the way down,
    if every entry before it is a valid pointer. -/
def walk (rd : Nat → Nat) (va : Nat) : (level : Nat) → (base : Nat) → Option Leaf
  | 0, base =>
    let pte := rd (base + 8 * vpn va 0)
    if pte.testBit bitV && isLeaf pte then some ⟨0, base + 8 * vpn va 0, pte⟩ else none
  | level + 1, base =>
    let pte := rd (base + 8 * vpn va (level + 1))
    if !pte.testBit bitV then none
    else if isLeaf pte then some ⟨level + 1, base + 8 * vpn va (level + 1), pte⟩
    else walk rd va level (ppn pte * 4096)

/-- The tables the walk visits, each with the entry it reads there. -/
def visited (rd : Nat → Nat) (va : Nat) : (level : Nat) → (base : Nat) → List (Nat × Nat)
  | 0, base => [(base, rd (base + 8 * vpn va 0))]
  | level + 1, base =>
    let pte := rd (base + 8 * vpn va (level + 1))
    (base, pte) ::
      if !pte.testBit bitV || isLeaf pte then []
      else visited rd va level (ppn pte * 4096)

/-- A virtual address Sv39 can translate: bits 63..39 repeat bit 38. -/
def canonical (va : Nat) : Bool := va < 2 ^ 38 || 2 ^ 64 - 2 ^ 38 ≤ va

/-- An address that is not canonical lies above the lower half. -/
theorem le_of_not_canonical {va : Nat} (h : canonical va = false) : 2 ^ 38 ≤ va := by
  by_contra hlt
  rw [canonical, decide_eq_true (Nat.lt_of_not_le hlt), Bool.true_or] at h
  cases h

/-- An index of a table. -/
theorem vpn_lt (va level : Nat) : vpn va level < 512 := Nat.mod_lt _ (by decide)

/-- The index into a table depends on the 4 KiB page of the address only. -/
theorem vpn_page (va level : Nat) : vpn (va / 4096 * 4096) level = vpn va level := by
  unfold vpn
  rw [Nat.pow_add, ← Nat.div_div_eq_div_mul, ← Nat.div_div_eq_div_mul,
    show (2 : Nat) ^ 12 = 4096 from rfl, Nat.mul_div_cancel _ (by decide)]

/-- So does the leaf. -/
theorem walk_page (rd : Nat → Nat) (va : Nat) :
    ∀ level base, walk rd (va / 4096 * 4096) level base = walk rd va level base := by
  intro level
  induction level with
  | zero =>
    intro base
    rw [walk, walk, vpn_page]
  | succ level ih =>
    intro base
    rw [walk, walk, vpn_page, ih]

/-- A walk ends at the level it starts from, or below. -/
theorem walk_level_le {rd : Nat → Nat} {va : Nat} {l : Leaf} :
    ∀ {level base : Nat}, walk rd va level base = some l → l.level ≤ level := by
  intro level
  induction level with
  | zero =>
    intro base h
    rw [walk] at h
    split at h
    · cases h
      exact Nat.le_refl 0
    · cases h
  | succ level ih =>
    intro base h
    rw [walk] at h
    split at h
    · cases h
    split at h
    · cases h
      exact Nat.le_refl _
    · exact Nat.le_succ_of_le (ih h)

/-- Inside a page of level `l`, the indices into the tables above it do not change. -/
theorem vpn_add {va k l level : Nat} (hk : va % pageSize l + k < pageSize l) (hl : l ≤ level) :
    vpn (va + k) level = vpn va level := by
  have hdiv : (va + k) / pageSize l = va / pageSize l := by
    have hpos : 0 < pageSize l := Nat.two_pow_pos _
    have hsplit : va + k = va % pageSize l + k + pageSize l * (va / pageSize l) := by
      have hdm := Nat.mod_add_div va (pageSize l)
      omega
    rw [hsplit, Nat.add_mul_div_left _ _ hpos, Nat.div_eq_of_lt hk, Nat.zero_add]
  have hpow : 2 ^ (12 + 9 * level) = pageSize l * 2 ^ (9 * (level - l)) := by
    unfold pageSize
    rw [← Nat.pow_add]
    congr 1
    omega
  unfold vpn
  rw [hpow, ← Nat.div_div_eq_div_mul, ← Nat.div_div_eq_div_mul, hdiv]

/-- All bytes of a page have the leaf of the page. -/
theorem walk_add {rd : Nat → Nat} {va k : Nat} {l : Leaf} :
    ∀ {level base : Nat}, walk rd va level base = some l →
      va % pageSize l.level + k < pageSize l.level → walk rd (va + k) level base = some l := by
  intro level
  induction level with
  | zero =>
    intro base h hk
    have hvpn : vpn (va + k) 0 = vpn va 0 := vpn_add hk (walk_level_le h)
    rw [walk, hvpn]
    rw [walk] at h
    exact h
  | succ level ih =>
    intro base h hk
    have hvpn : vpn (va + k) (level + 1) = vpn va (level + 1) := vpn_add hk (walk_level_le h)
    rw [walk, hvpn]
    rw [walk] at h
    split
    · rename_i hv
      rw [if_pos hv] at h
      exact h
    rename_i hv
    rw [if_neg hv] at h
    split
    · rename_i hleaf
      rw [if_pos hleaf] at h
      exact h
    · rename_i hleaf
      rw [if_neg hleaf] at h
      exact ih h hk

/-- They are translated one after the other. -/
theorem Leaf.translate_add {l : Leaf} {va k : Nat}
    (hk : va % pageSize l.level + k < pageSize l.level) :
    l.translate (va + k) = l.translate va + k := by
  unfold translate
  rw [Nat.add_mod, Nat.mod_eq_of_lt (a := k) (by omega), Nat.mod_eq_of_lt hk, Nat.add_assoc]

/-! ### Accessed and dirty bits -/

/-- Entries that differ in `A` and `D` at most, which the MMU sets by itself. -/
def SameButAD (e e' : Nat) : Prop := ∀ j, j ≠ bitA → j ≠ bitD → e.testBit j = e'.testBit j

/-- Entries equal up to A and D are equivalent, -/
theorem SameButAD.refl (e : Nat) : SameButAD e e := fun _ _ _ => rfl

theorem SameButAD.trans {e e' e'' : Nat} (h : SameButAD e e') (h' : SameButAD e' e'') :
    SameButAD e e'' := fun j ha hd => (h j ha hd).trans (h' j ha hd)

/-- and A and D do not tell leaves from pointers, -/
theorem SameButAD.isLeaf {e e' : Nat} (h : SameButAD e e') : isLeaf e = isLeaf e' := by
  unfold Sv39.isLeaf
  rw [h bitR (by decide) (by decide), h bitW (by decide) (by decide),
    h bitX (by decide) (by decide)]

/-- nor do they move a page. -/
theorem SameButAD.ppn {e e' : Nat} (h : SameButAD e e') : ppn e = ppn e' := by
  unfold Sv39.ppn
  congr 1
  apply Nat.eq_of_testBit_eq
  intro j
  rw [Nat.testBit_div_two_pow, Nat.testBit_div_two_pow]
  refine h _ ?_ ?_
  · simp only [bitA]
    omega
  · simp only [bitD]
    omega

/-- Leaves that are alike up to these bits. -/
structure Leaf.Same (l l' : Leaf) : Prop where
  level : l.level = l'.level
  slot : l.slot = l'.slot
  pte : SameButAD l.pte l'.pte

/-- The same leaf has the same base, -/
theorem Leaf.Same.base {l l' : Leaf} (h : l.Same l') : l.base = l'.base := by
  unfold Leaf.base
  rw [h.pte.ppn]

/-- translates the same way, -/
theorem Leaf.Same.translate {l l' : Leaf} (h : l.Same l') (va : Nat) :
    l.translate va = l'.translate va := by
  unfold Leaf.translate
  rw [h.base, h.level]

/-- and is aligned the same way. -/
theorem Leaf.Same.aligned {l l' : Leaf} (h : l.Same l') : l.aligned = l'.aligned := by
  unfold Leaf.aligned
  rw [h.base, h.level]

/-- **Walks do not see these bits.**  Two readings of the tables `T` that agree up to `A` and `D`
    lead to the same leaf. -/
theorem walk_same {rd rd' : Nat → Nat} {T : Set Nat} (va : Nat)
    (hread : ∀ t ∈ T, ∀ i, i < 512 → SameButAD (rd (t + 8 * i)) (rd' (t + 8 * i)))
    (hchild : ∀ t ∈ T, ∀ i, i < 512 → (rd (t + 8 * i)).testBit bitV = true →
      isLeaf (rd (t + 8 * i)) = false → ppn (rd (t + 8 * i)) * 4096 ∈ T) :
    ∀ level, ∀ base ∈ T, Option.Rel Leaf.Same (walk rd va level base) (walk rd' va level base) := by
  intro level
  induction level with
  | zero =>
    intro base hbase
    have hsame := hread base hbase _ (vpn_lt va 0)
    rw [walk, walk]
    rw [← hsame.isLeaf, ← hsame bitV (by decide) (by decide)]
    split
    · exact .some ⟨rfl, rfl, hsame⟩
    · exact .none
  | succ level ih =>
    intro base hbase
    have hvpn := vpn_lt va (level + 1)
    have hsame := hread base hbase _ hvpn
    rw [walk, walk]
    rw [← hsame.isLeaf, ← hsame bitV (by decide) (by decide), ← hsame.ppn]
    split
    · exact .none
    rename_i hv
    split
    · exact .some ⟨rfl, rfl, hsame⟩
    rename_i hleaf
    exact ih _ (hchild base hbase _ hvpn (by simpa using hv) (by simpa using hleaf))

end Sv39
