import Mathlib.Data.Finset.Card
import Mathlib.Data.Nat.Find
import Mathlib.Dynamics.PeriodicPts.Defs
import Mathlib.Logic.Relation

namespace CycleWalk

open Function

/-!
# Library — walking a chain of links with two pointers

A chain follows a function `f` from `s` until it reaches `null`.  To notice that it never does, a
walk moves a second pointer along at half the speed: in turn `k` the fast pointer is at
`f^[k] s` and the slow one at `f^[k / 2] s`, and the walk stops when the slow pointer is the
successor of the fast one (`Meets`).

* `meets_of_repeat` — a chain that comes back to an earlier element meets, within two turns for
  every element.
* `Meets.iterate_mem` — when it meets, every element of the chain has been visited.
* `exists_end` — over finitely many elements the walk ends, at `null` or by meeting.
* `RunsIntoCycle.iterate_ne_null`, `Meets.runsIntoCycle` — it cannot end at `null` when the chain
  runs into a cycle, nor meet before `null` when it does not.
-/

variable {α : Type} {f : α → α} {s p q null : α} {i j k n : Nat}

/-! ### Turns -/

/-- In turn `k` the successor of the fast pointer is the slow one. -/
def Meets (f : α → α) (s : α) (k : Nat) : Prop := f^[k / 2] s = f^[k + 1] s

/-- After a repetition the elements recur with its distance. -/
theorem isPeriodicPt_of_repeat (hij : i < j) (h : f^[i] s = f^[j] s) (hn : i ≤ n) :
    IsPeriodicPt f (j - i) (f^[n] s) := by
  have hrepeat : IsPeriodicPt f (j - i) (f^[i] s) := by
    show f^[j - i] (f^[i] s) = f^[i] s
    rw [← iterate_add_apply, Nat.sub_add_cancel (Nat.le_of_lt hij), h]
  have hn : n = (n - i) + i := by omega
  rw [hn, iterate_add_apply]
  exact hrepeat.apply_iterate (n - i)

/-- **Meeting.**  A repetition makes the pointers meet. -/
theorem meets_of_repeat (hij : i < j) (h : f^[i] s = f^[j] s) :
    ∃ k, k + 2 ≤ 2 * j ∧ Meets f s k := by
  have hpos : 0 < j - i := by omega
  have hdiv := Nat.div_add_mod i (j - i)
  have hmod := Nat.mod_lt i hpos
  -- `r` is the first multiple of the distance above `i`, and the slow pointer is at `r - 1`
  obtain ⟨r, hr⟩ : ∃ r, r = (j - i) * (i / (j - i) + 1) := ⟨_, rfl⟩
  have hsucc : r = (j - i) * (i / (j - i)) + (j - i) := hr
  have hlo : i < r := by omega
  have hhi : r ≤ j := by omega
  have hperiodic : IsPeriodicPt f r (f^[r - 1] s) := by
    rw [hr]
    exact (isPeriodicPt_of_repeat hij h (by omega)).mul_const _
  refine ⟨2 * (r - 1), by omega, ?_⟩
  have hslow : 2 * (r - 1) / 2 = r - 1 := by omega
  have hfast : 2 * (r - 1) + 1 = r + (r - 1) := by omega
  unfold Meets
  rw [hslow, hfast, iterate_add_apply]
  exact hperiodic.symm

/-- When the pointers meet, the walk has been everywhere. -/
theorem Meets.iterate_mem (h : Meets f s k) (n : Nat) : ∃ m ≤ k, f^[n] s = f^[m] s := by
  induction n using Nat.strong_induction_on with
  | _ n ih =>
    by_cases hn : n ≤ k
    · exact ⟨n, hn, rfl⟩
    · -- later elements are earlier ones by going back from `k + 1` to `k / 2`
      obtain ⟨m, hm, heq⟩ := ih (n - (k + 1) + k / 2) (by omega)
      refine ⟨m, hm, ?_⟩
      rw [← heq, iterate_add_apply, h, ← iterate_add_apply, Nat.sub_add_cancel (by omega)]

/-- A chain inside a finite set repeats an element. -/
theorem exists_repeat (nodes : Finset α) (h : ∀ k ≤ nodes.card, f^[k] s ∈ nodes) :
    ∃ i j, i < j ∧ j ≤ nodes.card ∧ f^[i] s = f^[j] s := by
  have hcard : nodes.card < (Finset.range (nodes.card + 1)).card := by
    rw [Finset.card_range]
    exact Nat.lt_succ_self _
  have hmaps : Set.MapsTo (fun k => f^[k] s) (Finset.range (nodes.card + 1)) nodes := by
    intro k hk
    exact h k (Nat.lt_succ_iff.mp (Finset.mem_range.mp hk))
  obtain ⟨i, hi, j, hj, hne, heq⟩ := Finset.exists_ne_map_eq_of_card_lt_of_maps_to hcard hmaps
  rw [Finset.mem_range, Nat.lt_succ_iff] at hi hj
  rcases Nat.lt_or_gt_of_ne hne with hlt | hgt
  · exact ⟨i, j, hlt, hj, heq⟩
  · exact ⟨j, i, hgt, hi, heq.symm⟩

/-- The walk stops in turn `n`: at `null`, or because the pointers meet. -/
def Ends (f : α → α) (null s : α) (n : Nat) : Prop := f^[n] s = null ∨ Meets f s n

/-- A chain stays among the elements its links stay among. -/
theorem iterate_mem_of_closed {nodes : Finset α} (hclosed : ∀ p ∈ nodes, f p = null ∨ f p ∈ nodes)
    (hs : s = null ∨ s ∈ nodes) (hnull : ∀ i ≤ n, f^[i] s ≠ null) : f^[n] s ∈ nodes := by
  induction n with
  | zero => exact hs.resolve_left (hnull 0 (Nat.le_refl 0))
  | succ n ih =>
    have hnext := hnull (n + 1) (Nat.le_refl _)
    rw [iterate_succ_apply'] at hnext ⊢
    exact (hclosed _ (ih (fun i hi => hnull i (by omega)))).resolve_left hnext

/-- **Termination.**  Over finitely many elements there is a first turn in which the walk stops,
    at most two turns for each of them from the start. -/
theorem exists_end [DecidableEq α] (nodes : Finset α)
    (hclosed : ∀ p ∈ nodes, f p = null ∨ f p ∈ nodes) (hs : s = null ∨ s ∈ nodes) :
    ∃ n ≤ 2 * nodes.card, Ends f null s n ∧ ∀ k < n, ¬ Ends f null s k := by
  have hsome : ∃ n ≤ 2 * nodes.card, Ends f null s n := by
    by_cases hend : ∃ k ≤ nodes.card, f^[k] s = null
    · obtain ⟨k, hk, hnull⟩ := hend
      exact ⟨k, by omega, Or.inl hnull⟩
    · have hnull : ∀ k ≤ nodes.card, f^[k] s ≠ null := fun k hk heq => hend ⟨k, hk, heq⟩
      have hmem : ∀ k ≤ nodes.card, f^[k] s ∈ nodes := by
        intro k hk
        exact iterate_mem_of_closed hclosed hs (fun i hi => hnull i (by omega))
      obtain ⟨i, j, hij, hj, heq⟩ := exists_repeat nodes hmem
      obtain ⟨k, hk, hmeets⟩ := meets_of_repeat hij heq
      exact ⟨k, by omega, Or.inr hmeets⟩
  obtain ⟨n, hn, hend⟩ := hsome
  have hdec : DecidablePred (Ends f null s) := fun k => by
    unfold Ends Meets
    infer_instance
  have hexists : ∃ n, Ends f null s n := ⟨n, hend⟩
  exact ⟨Nat.find hexists, (Nat.find_min' hexists hend).trans hn, Nat.find_spec hexists,
    fun k hk => Nat.find_min hexists hk⟩

/-! ### Links and cycles -/

/-- `q` is the element after `p`. -/
def Link (f : α → α) (null p q : α) : Prop := p ≠ null ∧ q ≠ null ∧ f p = q

/-- The chain from `s` arrives at an element from which it comes back to it. -/
def RunsIntoCycle (f : α → α) (null s : α) : Prop :=
  ∃ p, Relation.ReflTransGen (Link f null) s p ∧ Relation.TransGen (Link f null) p p

/-- The elements that can be reached are those of the walk. -/
theorem reachable_iff (hs : s ≠ null) : Relation.ReflTransGen (Link f null) s q ↔
    ∃ n, f^[n] s = q ∧ ∀ i ≤ n, f^[i] s ≠ null := by
  constructor
  · intro h
    induction h with
    | refl =>
      refine ⟨0, rfl, ?_⟩
      intro i hi
      rw [Nat.le_zero.mp hi]
      exact hs
    | tail _ hlink ih =>
      obtain ⟨n, rfl, hnull⟩ := ih
      obtain ⟨-, hne, rfl⟩ := hlink
      refine ⟨n + 1, iterate_succ_apply' f n s, ?_⟩
      intro i hi
      rcases Nat.lt_or_eq_of_le hi with hlt | rfl
      · exact hnull i (by omega)
      · rw [iterate_succ_apply']
        exact hne
  · rintro ⟨n, rfl, hnull⟩
    induction n with
    | zero => exact .refl
    | succ n ih =>
      refine (ih (fun i hi => hnull i (by omega))).tail ?_
      exact ⟨hnull n (by omega), hnull (n + 1) (Nat.le_refl _), (iterate_succ_apply' f n s).symm⟩

/-- On a cycle every link leads on along the cycle. -/
theorem transGen_succ (h : Relation.TransGen (Link f null) p p) :
    p ≠ null ∧ Relation.TransGen (Link f null) (f p) (f p) := by
  obtain ⟨q, hlink, hback⟩ := Relation.TransGen.head'_iff.mp h
  obtain ⟨hp, hq, rfl⟩ := hlink
  exact ⟨hp, .tail' hback ⟨hp, hq, rfl⟩⟩

/-- From a cycle the chain never ends. -/
theorem iterate_ne_null_of_transGen (h : Relation.TransGen (Link f null) p p) (n : Nat) :
    f^[n] p ≠ null := by
  induction n generalizing p with
  | zero => exact (transGen_succ h).1
  | succ n ih =>
    rw [iterate_succ_apply]
    exact ih (transGen_succ h).2

/-- A chain that runs into a cycle never reaches `null`. -/
theorem RunsIntoCycle.iterate_ne_null (h : RunsIntoCycle f null s) (n : Nat) :
    f^[n] s ≠ null := by
  obtain ⟨p, hreach, hcycle⟩ := h
  have hs : s ≠ null := by
    rintro rfl
    -- nothing follows `null`, so the cycle would be at `null`
    rcases Relation.ReflTransGen.cases_head hreach with rfl | ⟨q, hlink, -⟩
    · exact (transGen_succ hcycle).1 rfl
    · exact hlink.1 rfl
  obtain ⟨m, rfl, hnull⟩ := (reachable_iff hs).mp hreach
  rcases Nat.le_total n m with hle | hle
  · exact hnull n hle
  · have hcycle := iterate_ne_null_of_transGen hcycle (n - m)
    rwa [← iterate_add_apply, Nat.sub_add_cancel hle] at hcycle

/-- Where the pointers meet is a cycle. -/
theorem Meets.transGen (h : Meets f s k) (hnull : ∀ i ≤ k + 1, f^[i] s ≠ null) :
    Relation.TransGen (Link f null) (f^[k / 2] s) (f^[k / 2] s) := by
  have hlink : ∀ m ≤ k, Link f null (f^[m] s) (f^[m + 1] s) := by
    intro m hm
    exact ⟨hnull m (by omega), hnull (m + 1) (by omega), (iterate_succ_apply' f m s).symm⟩
  have hpath : ∀ d, k / 2 + d ≤ k →
      Relation.TransGen (Link f null) (f^[k / 2] s) (f^[k / 2 + d + 1] s) := by
    intro d hd
    induction d with
    | zero => exact .single (hlink (k / 2) hd)
    | succ d ih => exact (ih (by omega)).tail (hlink (k / 2 + (d + 1)) hd)
  have hmeet := hpath (k - k / 2) (by omega)
  rwa [show k / 2 + (k - k / 2) + 1 = k + 1 by omega, ← h] at hmeet

/-- When the pointers meet before `null`, they never reach it. -/
theorem Meets.iterate_ne_null (h : Meets f s k) (hnull : ∀ i ≤ k, f^[i] s ≠ null) (n : Nat) :
    f^[n] s ≠ null := by
  obtain ⟨m, hm, heq⟩ := h.iterate_mem n
  rw [heq]
  exact hnull m hm

/-- **Cycles.**  When the pointers meet before `null`, the slow one is on a cycle of the chain. -/
theorem Meets.runsIntoCycle (h : Meets f s k) (hnull : ∀ i ≤ k, f^[i] s ≠ null) :
    RunsIntoCycle f null s := by
  have hall := h.iterate_ne_null hnull
  exact ⟨f^[k / 2] s, (reachable_iff (hall 0)).mpr ⟨k / 2, rfl, fun i _ => hall i⟩,
    h.transGen (fun i _ => hall i)⟩

end CycleWalk
