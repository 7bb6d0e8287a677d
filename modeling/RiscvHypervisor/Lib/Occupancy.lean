import RiscvHypervisor.Lib.RadixForest
import Mathlib.Data.Set.Card

namespace RadixForest

/-!
# Library — how many tables a forest has

A table of a radix tree stands for a group of leaf entries, those whose keys start with its own.  If
no table below the roots is empty, the tables of a height are as many as the groups of that height
with an entry in use (`Forest.ncard_tables`): a table has an entry below it (`Forest.exists_entry`)
and an entry has a table above it (`Forest.exists_ancestor`).

* `NoEmpty` — no table below the roots is empty;
* `inUse` — the keys of tree `x` with an entry;
* `groups` — the groups of `height` levels that these fall into.
-/

variable {τ E : Type} {F : Format τ E} {σ : Nat → Nat → E} {own : Owner τ}

/-- No table is empty, the roots excepted. -/
def NoEmpty (F : Format τ E) (σ : Nat → Nat → E) (own : Owner τ) : Prop :=
  ∀ t x h k, own t = some ⟨x, h, k⟩ → h < F.rootHeight x → ∃ i, i < F.width ∧ σ t i ≠ F.zero

/-- The keys of tree `x` with an entry in use. -/
def inUse (F : Format τ E) (σ : Nat → Nat → E) (own : Owner τ) (x : τ) : Set Nat :=
  {key | ∃ t, own t = some ⟨x, 0, key / F.width⟩ ∧ σ t (key % F.width) ≠ F.zero}

/-- The groups of keys in use, of the size that a table of height `h` stands for. -/
def groups (F : Format τ E) (σ : Nat → Nat → E) (own : Owner τ) (x : τ) (h : Nat) : Set Nat :=
  (fun key => key / F.width ^ (h + 1)) '' inUse F σ own x

namespace Forest

/-- Below a table there is an entry. -/
theorem exists_entry (H : Forest F σ own ∅) (hne : NoEmpty F σ own) {x : τ} :
    ∀ {h t k : Nat}, own t = some ⟨x, h, k⟩ → h < F.rootHeight x →
      ∃ key ∈ inUse F σ own x, key / F.width ^ (h + 1) = k := by
  intro h
  induction h with
  | zero =>
    intro t k ht hlt
    obtain ⟨i, hi, hnz⟩ := hne t x 0 k ht hlt
    refine ⟨k * F.width + i, ⟨t, ?_, ?_⟩, ?_⟩
    · rw [F.key_div hi]
      exact ht
    · rw [F.key_mod hi]
      exact hnz
    · rw [Nat.zero_add, pow_one, F.key_div hi]
  | succ h ih =>
    intro t k ht hlt
    obtain ⟨i, hi, hnz⟩ := hne t x (h + 1) k ht hlt
    rcases H.inner ht hi with hz | ⟨c, -, hc, -⟩
    · exact absurd hz hnz
    -- the entry points to a table, and what is below that is below this one
    obtain ⟨key, hkey, hdiv⟩ := ih hc (by omega)
    refine ⟨key, hkey, ?_⟩
    rw [pow_succ, ← Nat.div_div_eq_div_mul, hdiv, F.key_div hi]

/-- Above a leaf table there is a table of every height. -/
theorem exists_ancestor (H : Forest F σ own ∅) {x : τ} {u key : Nat}
    (hu : own u = some ⟨x, 0, key / F.width⟩) :
    ∀ {h : Nat}, h ≤ F.rootHeight x → ∃ t, own t = some ⟨x, h, key / F.width ^ (h + 1)⟩ := by
  intro h
  induction h with
  | zero =>
    intro _
    refine ⟨u, ?_⟩
    rw [Nat.zero_add, pow_one]
    exact hu
  | succ h ih =>
    intro hle
    obtain ⟨c, hc⟩ := ih (by omega)
    obtain ⟨t, ht, -⟩ := H.parent hc (by omega) (Set.notMem_empty c)
    refine ⟨t, ?_⟩
    rw [pow_succ, ← Nat.div_div_eq_div_mul]
    exact ht

/-- **Tables.**  Without empty tables, the tables of a height are those of the groups in use. -/
theorem table_iff (H : Forest F σ own ∅) (hne : NoEmpty F σ own) {x : τ} {h k : Nat}
    (hlt : h < F.rootHeight x) : (∃ t, own t = some ⟨x, h, k⟩) ↔ k ∈ groups F σ own x h := by
  constructor
  · rintro ⟨t, ht⟩
    obtain ⟨key, hkey, hdiv⟩ := H.exists_entry hne ht hlt
    exact ⟨key, hkey, hdiv⟩
  · rintro ⟨key, ⟨u, hu, -⟩, rfl⟩
    exact H.exists_ancestor hu (by omega)

/-- **Counting.**  And there are as many. -/
theorem ncard_tables (H : Forest F σ own ∅) (hne : NoEmpty F σ own) {x : τ} {h : Nat}
    (hlt : h < F.rootHeight x) :
    {t | ∃ k, own t = some ⟨x, h, k⟩}.ncard = (groups F σ own x h).ncard := by
  let key (t : Nat) : Nat := ((own t).map Slot.key).getD 0
  have hkey : ∀ {t k}, own t = some ⟨x, h, k⟩ → key t = k := by
    intro t k ht
    simp [key, ht]
  have himage : groups F σ own x h = key '' {t | ∃ k, own t = some ⟨x, h, k⟩} := by
    ext k
    rw [← H.table_iff hne hlt]
    constructor
    · rintro ⟨t, ht⟩
      exact ⟨t, ⟨k, ht⟩, hkey ht⟩
    · rintro ⟨t, ⟨k', ht⟩, rfl⟩
      rw [hkey ht]
      exact ⟨t, ht⟩
  have hinj : Set.InjOn key {t | ∃ k, own t = some ⟨x, h, k⟩} := by
    rintro t ⟨k, ht⟩ t' ⟨k', ht'⟩ heq
    rw [hkey ht, hkey ht'] at heq
    rw [← heq] at ht'
    exact H.inj ht ht'
  rw [himage, hinj.ncard_image]

/-- The keys of a tree are bounded. -/
theorem inUse_lt (H : Forest F σ own ∅) {x : τ} {key : Nat} (hkey : key ∈ inUse F σ own x) :
    key < F.width ^ (F.rootHeight x + 1) := by
  obtain ⟨t, ht, -⟩ := hkey
  have hlt := H.key_lt ht
  rw [Nat.sub_zero] at hlt
  rw [pow_succ]
  exact (Nat.div_lt_iff_lt_mul F.width_pos).mp hlt

end Forest

end RadixForest
