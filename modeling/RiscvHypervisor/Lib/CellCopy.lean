import Mathlib.Logic.Function.Basic

namespace CellCopy

/-!
# Library — copying cells one after the other

A loop that copies the cells `src i` to the cells `dst i`, one index at a time, moves all of them
*as if at once* when no step overwrites a cell that a later step still has to read or to write.
The order of the indices decides that, so the condition is about the list of indices (`Safe`).

* `copyAll_copied` — over a safe list the loop is the simultaneous copy.
* `Copied.unique` — and the simultaneous copy is one memory only, whatever the order was.
-/

variable {ι A V : Type} [DecidableEq A]

/-- Copy the cell `src i` to the cell `dst i`. -/
def copyOne (dst src : ι → A) (m : A → V) (i : ι) : A → V :=
  Function.update m (dst i) (m (src i))

/-- Copy the cells of `l`, in its order. -/
def copyAll (dst src : ι → A) (l : List ι) (m : A → V) : A → V :=
  l.foldl (copyOne dst src) m

/-- Of two indices of `l`, the first one's target is neither the second one's source nor its
    target. -/
def Safe (dst src : ι → A) (l : List ι) : Prop :=
  l.Pairwise (fun i j => dst i ≠ src j ∧ dst i ≠ dst j)

/-- `m'` is `m` with the cells of `l` copied simultaneously. -/
structure Copied (dst src : ι → A) (l : List ι) (m m' : A → V) : Prop where
  moved : ∀ i ∈ l, m' (dst i) = m (src i)
  frame : ∀ a, (∀ i ∈ l, a ≠ dst i) → m' a = m a

variable {dst src : ι → A} {l : List ι} {m m' m'' : A → V}

/-- **One step.**  The first copy does not disturb the copies that follow it. -/
theorem Copied.cons {i : ι} (hread : ∀ j ∈ l, dst i ≠ src j) (hwrite : ∀ j ∈ l, dst i ≠ dst j)
    (h : Copied dst src l (copyOne dst src m i) m') : Copied dst src (i :: l) m m' := by
  refine ⟨?_, ?_⟩
  · intro j hj
    rcases List.mem_cons.mp hj with rfl | hj
    · rw [h.frame _ hwrite]
      exact Function.update_self ..
    · rw [h.moved j hj]
      -- what `j` reads is not what the first copy wrote
      exact Function.update_of_ne (hread j hj).symm ..
  · intro a ha
    have hrest : ∀ j ∈ l, a ≠ dst j := fun j hj => ha j (List.mem_cons_of_mem i hj)
    rw [h.frame a hrest]
    exact Function.update_of_ne (ha i List.mem_cons_self) ..

/-- **The loop.**  Over a safe list of indices it copies every cell simultaneously. -/
theorem copyAll_copied (m : A → V) (hsafe : Safe dst src l) :
    Copied dst src l m (copyAll dst src l m) := by
  induction l generalizing m with
  | nil => exact ⟨fun _ hi => absurd hi List.not_mem_nil, fun _ _ => rfl⟩
  | cons i l ih =>
    obtain ⟨hfirst, hrest⟩ := List.pairwise_cons.mp hsafe
    exact (ih (copyOne dst src m i) hrest).cons (fun j hj => (hfirst j hj).1)
      (fun j hj => (hfirst j hj).2)

omit [DecidableEq A] in
/-- The simultaneous copy does not depend on the order of the indices. -/
theorem Copied.unique {l' : List ι} (h : Copied dst src l m m') (h' : Copied dst src l' m m'')
    (hmem : ∀ i, i ∈ l ↔ i ∈ l') : m' = m'' := by
  funext a
  by_cases ha : ∃ i ∈ l, a = dst i
  · obtain ⟨i, hi, rfl⟩ := ha
    rw [h.moved i hi, h'.moved i ((hmem i).mp hi)]
  · have hout : ∀ i ∈ l, a ≠ dst i := fun i hi heq => ha ⟨i, hi, heq⟩
    rw [h.frame a hout, h'.frame a (fun i hi => hout i ((hmem i).mpr hi))]

end CellCopy
