import Mathlib.Data.Set.Insert
import Mathlib.Logic.Function.Basic
import Mathlib.Tactic.Ring

namespace RadixForest

/-!
# Library — radix trees of tables in a shared store

A radix tree of uniform depth whose nodes are tables in one flat store: entry `i` of table `t`
is `σ t i`.  Several trees live in the same store.  The *owner map* `own` gives every table in
use its place: the tree it belongs to, its height above the leaf tables and its key (the path
from the root, read as a number in base `width`).

`Forest F σ own D` is the ownership discipline: every entry of a table is zero, a pointer to
the table that owns the child place, or (at height `0`) a good leaf; a place has at most one
table; and every table except the roots and the *detached* tables `D` is pointed to by its
parent.  Since a place determines the one entry that may point to it, sharing, cycles and
dangling pointers are excluded at once.

The lemmas are the moves on such a forest: `frame` (writes elsewhere), `newRoot`, `link` (hang an
empty table below an empty entry), `setLeaf`, `detach` and `drop` (cut a table off and give it
back).
-/

variable {τ E : Type}

/-- The place of a table: its tree, its height above the leaf tables, and its key. -/
structure Slot (τ : Type) where
  tree : τ
  height : Nat
  key : Nat
deriving DecidableEq

/-- How tables are read: their width, the empty entry, the pointers among the entries, and
    which entries are good leaves of a tree at a given key. -/
structure Format (τ E : Type) where
  width : Nat
  zero : E
  child : E → Option Nat
  leafOk : τ → Nat → E → Prop
  rootHeight : τ → Nat
  width_pos : 0 < width
  child_zero : child zero = none

/-- The place of every table in use. -/
abbrev Owner (τ : Type) := Nat → Option (Slot τ)

/-- **The ownership discipline** of the tables `own` in the store `σ`, up to the detached
    tables `D`. -/
structure Forest (F : Format τ E) (σ : Nat → Nat → E) (own : Owner τ) (D : Set Nat) : Prop where
  inner : ∀ {t x h k i}, own t = some ⟨x, h + 1, k⟩ → i < F.width →
    σ t i = F.zero ∨
      ∃ c, F.child (σ t i) = some c ∧ own c = some ⟨x, h, k * F.width + i⟩ ∧ c ∉ D
  leaf : ∀ {t x k i}, own t = some ⟨x, 0, k⟩ → i < F.width →
    σ t i = F.zero ∨ F.leafOk x (k * F.width + i) (σ t i)
  parent : ∀ {c x h k}, own c = some ⟨x, h, k⟩ → h < F.rootHeight x → c ∉ D →
    ∃ t, own t = some ⟨x, h + 1, k / F.width⟩ ∧ F.child (σ t (k % F.width)) = some c
  inj : ∀ {c c' sl}, own c = some sl → own c' = some sl → c = c'
  height_le : ∀ {t x h k}, own t = some ⟨x, h, k⟩ → h ≤ F.rootHeight x
  key_lt : ∀ {t x h k}, own t = some ⟨x, h, k⟩ → k < F.width ^ (F.rootHeight x - h)

variable {F : Format τ E} {σ σ' : Nat → Nat → E} {own : Owner τ} {D : Set Nat}

/-- `σ'` has the entries of `σ` in every table in use. -/
def Agree (F : Format τ E) (own : Owner τ) (σ σ' : Nat → Nat → E) : Prop :=
  ∀ t, own t ≠ none → ∀ i, i < F.width → σ' t i = σ t i

/-- `σ'` has the entries of `σ` in every table in use, entry `i` of `t` excepted. -/
def AgreeExcept (F : Format τ E) (own : Owner τ) (t i : Nat) (σ σ' : Nat → Nat → E) : Prop :=
  ∀ t', own t' ≠ none → ∀ j, j < F.width → ¬ (t' = t ∧ j = i) → σ' t' j = σ t' j

/-! ### Arithmetic of keys -/

theorem Format.key_div (F : Format τ E) {k i : Nat} (hi : i < F.width) :
    (k * F.width + i) / F.width = k := by
  rw [Nat.mul_comm, Nat.mul_add_div F.width_pos, Nat.div_eq_of_lt hi, Nat.add_zero]

theorem Format.key_mod (F : Format τ E) {k i : Nat} (hi : i < F.width) :
    (k * F.width + i) % F.width = i := by
  rw [Nat.mul_comm, Nat.mul_add_mod, Nat.mod_eq_of_lt hi]

theorem Format.key_inj (F : Format τ E) {k k' i j : Nat} (hi : i < F.width) (hj : j < F.width)
    (h : k * F.width + i = k' * F.width + j) : k = k' ∧ i = j := by
  have hdiv := congrArg (· / F.width) h
  have hmod := congrArg (· % F.width) h
  simp only [F.key_div hi, F.key_div hj] at hdiv
  simp only [F.key_mod hi, F.key_mod hj] at hmod
  exact ⟨hdiv, hmod⟩

/-! ### Giving places out and taking them back -/

/-- After a place is given out, a table has its old place or the new one. -/
theorem update_some_cases {p t : Nat} {sl sl' : Slot τ}
    (h : Function.update own p (some sl) t = some sl') : t = p ∧ sl' = sl ∨ own t = some sl' := by
  by_cases htp : t = p
  · rw [htp, Function.update_self] at h
    exact Or.inl ⟨htp, (Option.some.inj h).symm⟩
  · rw [Function.update_of_ne htp] at h
    exact Or.inr h

/-- After a place is taken back, the other tables have theirs. -/
theorem update_none_cases {p t : Nat} {sl : Slot τ} (h : Function.update own p none t = some sl) :
    t ≠ p ∧ own t = some sl := by
  by_cases htp : t = p
  · rw [htp, Function.update_self] at h
    cases h
  · rw [Function.update_of_ne htp] at h
    exact ⟨htp, h⟩

/-- A page without a place is none of the tables. -/
theorem update_of_owned {p t : Nat} {sl : Slot τ} (hp : own p = none) (ht : own t = some sl)
    (v : Option (Slot τ)) : Function.update own p v t = some sl := by
  have htp : t ≠ p := by
    rintro rfl
    rw [hp] at ht
    cases ht
  rw [Function.update_of_ne htp]
  exact ht

/-- Places stay distinct when a new one is given out. -/
theorem update_some_inj (hinj : ∀ {c c' sl}, own c = some sl → own c' = some sl → c = c') {p : Nat}
    {sl : Slot τ} (hnone : ∀ c, own c ≠ some sl) {c c' : Nat} {sl' : Slot τ}
    (hc : Function.update own p (some sl) c = some sl')
    (hc' : Function.update own p (some sl) c' = some sl') : c = c' := by
  rcases update_some_cases hc with ⟨rfl, rfl⟩ | hold
  · rcases update_some_cases hc' with ⟨rfl, -⟩ | hold'
    · rfl
    · exact absurd hold' (hnone c')
  · rcases update_some_cases hc' with ⟨rfl, rfl⟩ | hold'
    · exact absurd hold (hnone c)
    · exact hinj hold hold'

namespace Forest

/-- A child place has no table when the entry for it is zero. -/
theorem no_child (H : Forest F σ own D) {t x h k i} (ht : own t = some ⟨x, h + 1, k⟩)
    (hi : i < F.width) (hz : σ t i = F.zero) {c : Nat} (hc : c ∉ D) :
    own c ≠ some ⟨x, h, k * F.width + i⟩ := by
  intro hown
  obtain ⟨t', ht', hchild⟩ := H.parent hown (H.height_le ht) hc
  rw [F.key_div hi] at ht'
  rw [F.key_mod hi, H.inj ht' ht, hz, F.child_zero] at hchild
  exact absurd hchild (by simp)

/-- Writes that leave the tables in use alone keep the forest. -/
theorem frame (H : Forest F σ own D) (hσ : Agree F own σ σ') : Forest F σ' own D where
  inner ht hi := by
    rw [hσ _ (by simp [ht]) _ hi]
    exact H.inner ht hi
  leaf ht hi := by
    rw [hσ _ (by simp [ht]) _ hi]
    exact H.leaf ht hi
  parent hc hh hD := by
    obtain ⟨t, ht, hchild⟩ := H.parent hc hh hD
    refine ⟨t, ht, ?_⟩
    rw [hσ t (by simp [ht]) _ (Nat.mod_lt _ F.width_pos)]
    exact hchild
  inj := H.inj
  height_le := H.height_le
  key_lt := H.key_lt

/-- A fresh empty table becomes the root of a tree that had none. -/
theorem newRoot (H : Forest F σ own D) {p : Nat} {x : τ} (hp : own p = none)
    (hnone : ∀ c, own c ≠ some ⟨x, F.rootHeight x, 0⟩) (hσ : Agree F own σ σ')
    (hzero : ∀ j, j < F.width → σ' p j = F.zero) :
    Forest F σ' (Function.update own p (some ⟨x, F.rootHeight x, 0⟩)) D := by
  have H' := H.frame hσ
  refine ⟨?_, ?_, ?_, fun hc hc' => update_some_inj H.inj hnone hc hc', ?_, ?_⟩
  · intro t y h k i ht hi
    rcases update_some_cases ht with ⟨rfl, -⟩ | ht
    · exact Or.inl (hzero i hi)
    · rcases H'.inner ht hi with hz | ⟨c, hchild, hc, hD⟩
      · exact Or.inl hz
      · exact Or.inr ⟨c, hchild, update_of_owned hp hc _, hD⟩
  · intro t y k i ht hi
    rcases update_some_cases ht with ⟨rfl, -⟩ | ht
    · exact Or.inl (hzero i hi)
    · exact H'.leaf ht hi
  · intro c y h k hc hh hD
    rcases update_some_cases hc with ⟨-, hsl⟩ | hc
    · -- a root has no parent to be found
      cases hsl
      exact absurd hh (lt_irrefl _)
    · obtain ⟨t, ht, hchild⟩ := H'.parent hc hh hD
      exact ⟨t, update_of_owned hp ht _, hchild⟩
  · intro t y h k ht
    rcases update_some_cases ht with ⟨-, hsl⟩ | ht
    · cases hsl
      exact le_refl _
    · exact H.height_le ht
  · intro t y h k ht
    rcases update_some_cases ht with ⟨-, hsl⟩ | ht
    · cases hsl
      simp
    · exact H.key_lt ht

/-- **Link.**  A fresh empty table hung below an empty entry takes the child place. -/
theorem link (H : Forest F σ own ∅) {t x h k i p} (ht : own t = some ⟨x, h + 1, k⟩)
    (hi : i < F.width) (hz : σ t i = F.zero) (hp : own p = none)
    (hσ : AgreeExcept F own t i σ σ') (hchild : F.child (σ' t i) = some p)
    (hzero : ∀ j, j < F.width → σ' p j = F.zero) :
    Forest F σ' (Function.update own p (some ⟨x, h, k * F.width + i⟩)) ∅ := by
  have hnone : ∀ c, own c ≠ some ⟨x, h, k * F.width + i⟩ :=
    fun c => H.no_child ht hi hz (Set.notMem_empty c)
  refine ⟨?_, ?_, ?_, fun hc hc' => update_some_inj H.inj hnone hc hc', ?_, ?_⟩
  · intro t' y h' k' j ht' hj
    rcases update_some_cases ht' with ⟨rfl, -⟩ | hold
    · -- the new table is empty
      exact Or.inl (hzero j hj)
    by_cases heq : t' = t ∧ j = i
    · -- the entry that now points to the new table
      obtain ⟨rfl, rfl⟩ := heq
      rw [ht] at hold
      cases hold
      exact Or.inr ⟨p, hchild, Function.update_self _ _ _, Set.notMem_empty p⟩
    · rw [hσ t' (by simp [hold]) j hj heq]
      rcases H.inner hold hj with hz' | ⟨c, hc, hown, hD⟩
      · exact Or.inl hz'
      · exact Or.inr ⟨c, hc, update_of_owned hp hown _, hD⟩
  · intro t' y k' j ht' hj
    rcases update_some_cases ht' with ⟨rfl, -⟩ | hold
    · exact Or.inl (hzero j hj)
    -- `t` is an inner table, so no leaf has been rewritten
    have heq : ¬ (t' = t ∧ j = i) := by
      rintro ⟨rfl, -⟩
      rw [ht] at hold
      cases hold
    rw [hσ t' (by simp [hold]) j hj heq]
    exact H.leaf hold hj
  · intro c y h' k' hc hh hD
    rcases update_some_cases hc with ⟨rfl, hsl⟩ | hc
    · cases hsl
      refine ⟨t, ?_, ?_⟩
      · rw [F.key_div hi]
        exact update_of_owned hp ht _
      · rw [F.key_mod hi]
        exact hchild
    · obtain ⟨t', ht', hchild'⟩ := H.parent hc hh hD
      refine ⟨t', update_of_owned hp ht' _, ?_⟩
      rw [hσ t' (by simp [ht']) _ (Nat.mod_lt _ F.width_pos)]
      · exact hchild'
      · -- the rewritten entry was empty, so it was not the one pointing to `c`
        rintro ⟨rfl, hj⟩
        rw [hj, hz, F.child_zero] at hchild'
        cases hchild'
  · intro t' y h' k' ht'
    rcases update_some_cases ht' with ⟨-, hsl⟩ | ht'
    · cases hsl
      exact Nat.le_of_succ_le (H.height_le ht)
    · exact H.height_le ht'
  · intro t' y h' k' ht'
    rcases update_some_cases ht' with ⟨-, hsl⟩ | ht'
    · cases hsl
      have hle := H.height_le ht
      have hlt := H.key_lt ht
      rw [show F.rootHeight x - h = F.rootHeight x - (h + 1) + 1 by omega, pow_succ]
      calc k * F.width + i < k * F.width + F.width := by omega
        _ = (k + 1) * F.width := by ring
        _ ≤ F.width ^ (F.rootHeight x - (h + 1)) * F.width := Nat.mul_le_mul_right _ hlt
    · exact H.key_lt ht'

/-- Rewriting an entry of a leaf table to zero or to a good leaf. -/
theorem setLeaf (H : Forest F σ own D) {t x k i} (ht : own t = some ⟨x, 0, k⟩)
    (hσ : AgreeExcept F own t i σ σ')
    (hleaf : σ' t i = F.zero ∨ F.leafOk x (k * F.width + i) (σ' t i)) : Forest F σ' own D where
  inner ht' hj := by
    rw [hσ _ (by simp [ht']) _ hj (by rintro ⟨rfl, -⟩; rw [ht] at ht'; cases ht')]
    exact H.inner ht' hj
  leaf {t' y k' j} ht' hj := by
    by_cases heq : t' = t ∧ j = i
    · obtain ⟨rfl, rfl⟩ := heq
      rw [ht] at ht'
      cases ht'
      exact hleaf
    · rw [hσ t' (by simp [ht']) j hj heq]
      exact H.leaf ht' hj
  parent hc hh hD := by
    obtain ⟨t', ht', hchild⟩ := H.parent hc hh hD
    refine ⟨t', ht', ?_⟩
    rw [hσ t' (by simp [ht']) _ (Nat.mod_lt _ F.width_pos)
      (by rintro ⟨rfl, -⟩; rw [ht] at ht'; cases ht')]
    exact hchild
  inj := H.inj
  height_le := H.height_le
  key_lt := H.key_lt

/-- **Detach.**  Zeroing a pointer detaches the table it pointed to. -/
theorem detach (H : Forest F σ own D) {t x h k i c} (ht : own t = some ⟨x, h + 1, k⟩)
    (hi : i < F.width) (hchild : F.child (σ t i) = some c)
    (hσ : AgreeExcept F own t i σ σ') (hz : σ' t i = F.zero) :
    own c = some ⟨x, h, k * F.width + i⟩ ∧ Forest F σ' own (insert c D) := by
  have hc : own c = some ⟨x, h, k * F.width + i⟩ := by
    rcases H.inner ht hi with hz' | ⟨c', hc', hown, -⟩
    · rw [hz', F.child_zero] at hchild
      cases hchild
    · rw [hchild] at hc'
      cases hc'
      exact hown
  refine ⟨hc, ?_, ?_, ?_, H.inj, H.height_le, H.key_lt⟩
  · intro t' y h' k' j ht' hj
    by_cases heq : t' = t ∧ j = i
    · obtain ⟨rfl, rfl⟩ := heq
      exact Or.inl hz
    · rw [hσ t' (by simp [ht']) j hj heq]
      rcases H.inner ht' hj with hz' | ⟨c', hc', hown, hD⟩
      · exact Or.inl hz'
      · refine Or.inr ⟨c', hc', hown, ?_⟩
        -- a second pointer to `c` would make its entry the child place of `t` and `i`
        rintro (rfl | hmem)
        · rw [hc, Option.some.injEq, Slot.mk.injEq] at hown
          obtain ⟨rfl, rfl, hkey⟩ := hown
          obtain ⟨rfl, rfl⟩ := F.key_inj hi hj hkey
          exact heq ⟨H.inj ht' ht, rfl⟩
        · exact hD hmem
  · intro t' y k' j ht' hj
    rw [hσ t' (by simp [ht']) j hj (by rintro ⟨rfl, -⟩; rw [ht] at ht'; cases ht')]
    exact H.leaf ht' hj
  · intro c' y h' k' hc' hh hD
    obtain ⟨t', ht', hchild'⟩ := H.parent hc' hh (fun hmem => hD (Or.inr hmem))
    refine ⟨t', ht', ?_⟩
    rw [hσ t' (by simp [ht']) _ (Nat.mod_lt _ F.width_pos)]
    · exact hchild'
    · rintro ⟨rfl, hj⟩
      rw [hj, hchild] at hchild'
      cases hchild'
      exact hD (Or.inl rfl)

/-- **Drop.**  An empty detached table can be given back. -/
theorem drop (H : Forest F σ own D) {c : Nat} (hc : c ∈ D)
    (hzero : ∀ j, j < F.width → σ c j = F.zero) :
    Forest F σ (Function.update own c none) (D \ {c}) := by
  refine ⟨?_, ?_, ?_, ?_, ?_, ?_⟩
  · intro t y h k i ht hi
    rcases H.inner (update_none_cases ht).2 hi with hz | ⟨c', hc', hown, hD⟩
    · exact Or.inl hz
    · -- a detached table is not pointed to
      have hne : c' ≠ c := by
        rintro rfl
        exact hD hc
      exact Or.inr ⟨c', hc', by rw [Function.update_of_ne hne]; exact hown,
        fun hmem => hD hmem.1⟩
  · intro t y k i ht hi
    exact H.leaf (update_none_cases ht).2 hi
  · intro c' y h k hc' hh hD
    obtain ⟨hcc, hc'⟩ := update_none_cases hc'
    obtain ⟨t, ht, hchild⟩ := H.parent hc' hh (fun hmem => hD ⟨hmem, hcc⟩)
    -- nor does it point to anything
    have htc : t ≠ c := by
      rintro rfl
      rw [hzero _ (Nat.mod_lt _ F.width_pos), F.child_zero] at hchild
      cases hchild
    exact ⟨t, by rw [Function.update_of_ne htc]; exact ht, hchild⟩
  · intro c₁ c₂ sl h₁ h₂
    exact H.inj (update_none_cases h₁).2 (update_none_cases h₂).2
  · intro t y h k ht
    exact H.height_le (update_none_cases ht).2
  · intro t y h k ht
    exact H.key_lt (update_none_cases ht).2

end Forest

end RadixForest
