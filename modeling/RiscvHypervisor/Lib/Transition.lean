import Mathlib.Data.Option.Basic

namespace Transition

/-!
# Library — transition systems, runs and forward simulation

A transition system makes steps that carry a label or are internal (`none`).  `System.Run` is a
finite run with the labels it shows, in order.

* `Run.trans`, `Run.single`, `Run.internal` — how runs compose;
* `Run.invariant` — what every step preserves holds of every run;
* `Run.since` — what holds now and did not at first has come to hold at some step, and has held
  since: the run after that step is one of `System.keeping`;
* `Run.same` — systems that make the same steps have the same runs;
* `System.beside`, `Run.beside` — two systems side by side, which show the same: if one can follow
  every step of the other, the two run together;
* `Simulation.run`, `Simulation.traces` — a forward simulation, in which one step of the lower
  system is matched by any number of steps of the upper one that show the same label, matches
  whole runs: every trace of the lower system is a trace of the upper one.
-/

/-- A transition system with initial states; the label of an internal step is `none`. -/
structure System (State Label : Type) where
  start : State → Prop
  step : State → Option Label → State → Prop

variable {S T Label : Type} {P : System S Label} {Q : System T Label}

namespace System

/-- A run from `s`, with the labels of its visible steps. -/
inductive Run (P : System S Label) (s : S) : List Label → S → Prop where
  | refl : Run P s [] s
  | step {ls : List Label} {l : Option Label} {t u : S} (before : Run P s ls t)
      (last : P.step t l u) : Run P s (ls ++ l.toList) u

/-- `t` is reached from an initial state by a run that shows `ls`. -/
def Reaches (P : System S Label) (ls : List Label) (t : S) : Prop :=
  ∃ s, P.start s ∧ P.Run s ls t

/-- Runs compose. -/
theorem Run.trans {s t u : S} {ls ls' : List Label} (h : P.Run s ls t) (h' : P.Run t ls' u) :
    P.Run s (ls ++ ls') u := by
  induction h' with
  | refl =>
    rw [List.append_nil]
    exact h
  | step before last ih =>
    rw [← List.append_assoc]
    exact ih.step last

/-- A step is a run. -/
theorem Run.single {s t : S} {l : Option Label} (h : P.step s l t) : P.Run s l.toList t :=
  Run.refl.step h

/-- A step in front. -/
theorem Run.cons {s t u : S} {l : Option Label} {ls : List Label} (h : P.Run t ls u)
    (first : P.step s l t) : P.Run s (l.toList ++ ls) u := (Run.single first).trans h

/-- Internal steps do not show. -/
theorem Run.internal {s t u : S} {ls : List Label} (h : P.Run s ls t) (hlast : P.step t none u) :
    P.Run s ls u := by
  have hrun := h.step hlast
  rwa [Option.toList_none, List.append_nil] at hrun

/-- What a run leads to from a reachable state is reachable. -/
theorem Reaches.run {t u : S} {ls ls' : List Label} (h : P.Reaches ls t) (h' : P.Run t ls' u) :
    P.Reaches (ls ++ ls') u := by
  obtain ⟨s, hs, hrun⟩ := h
  exact ⟨s, hs, hrun.trans h'⟩

/-- **What every step preserves holds along a run.** -/
theorem Run.invariant {I : S → Prop} (hstep : ∀ s l t, I s → P.step s l t → I t) {s t : S}
    {ls : List Label} (h : P.Run s ls t) (hs : I s) : I t := by
  induction h with
  | refl => exact hs
  | step before last ih => exact hstep _ _ _ ih last

/-- The steps after which `I` holds. -/
def keeping (P : System S Label) (I : S → Prop) : System S Label where
  start := P.start
  step s l t := P.step s l t ∧ I t

/-- **Since when.**  What holds at the end of a run and not at its start has come to hold at some
    step, and has held since. -/
theorem Run.since {I : S → Prop} {s t : S} {ls : List Label} (h : P.Run s ls t) (hs : ¬ I s)
    (ht : I t) : ∃ before l after u u', ls = before ++ (l.toList ++ after) ∧ P.Run s before u ∧
      ¬ I u ∧ P.step u l u' ∧ I u' ∧ (P.keeping I).Run u' after t := by
  induction h with
  | refl => exact absurd ht hs
  | @step ls l t w before last ih =>
    by_cases hI : I t
    · obtain ⟨first, m, after, u, u', heq, hfirst, hu, hstep, hu', hafter⟩ := ih hI
      refine ⟨first, m, after ++ l.toList, u, u', ?_, hfirst, hu, hstep, hu', ?_⟩
      · rw [heq, List.append_assoc, List.append_assoc]
      · exact hafter.step ⟨last, ht⟩
    · exact ⟨ls, l, [], t, w, by rw [List.append_nil], before, hI, last, ht, .refl⟩

/-- A system that can do more. -/
theorem Run.mono {P' : System S Label} (hstep : ∀ s l t, P.step s l t → P'.step s l t) {s t : S}
    {ls : List Label} (h : P.Run s ls t) : P'.Run s ls t := by
  induction h with
  | refl => exact .refl
  | step before last ih => exact ih.step (hstep _ _ _ last)

/-- A restricted run is a run. -/
theorem Run.forget {I : S → Prop} {s t : S} {ls : List Label} (h : (P.keeping I).Run s ls t) :
    P.Run s ls t := by
  refine Run.mono ?_ h
  intro s l t hstep
  exact hstep.1

/-- A weaker restriction allows more runs. -/
theorem Run.weaken {I J : S → Prop} (himp : ∀ s, I s → J s) {s t : S} {ls : List Label}
    (h : (P.keeping I).Run s ls t) : (P.keeping J).Run s ls t := by
  refine Run.mono ?_ h
  intro s l t hstep
  exact ⟨hstep.1, himp t hstep.2⟩

/-- **The same runs.**  Systems that make the same steps as long as an invariant holds have the
    same runs. -/
theorem Run.same {P' : System S Label} {I : S → Prop}
    (hsame : ∀ s l t, I s → (P.step s l t ↔ P'.step s l t))
    (hkeep : ∀ s l t, I s → P.step s l t → I t) {s t : S} {ls : List Label} (hs : I s) :
    P.Run s ls t ↔ P'.Run s ls t := by
  constructor
  · intro h
    induction h with
    | refl => exact .refl
    | step before last ih => exact ih.step ((hsame _ _ _ (before.invariant hkeep hs)).mp last)
  · intro h
    induction h with
    | refl => exact .refl
    | step before last ih => exact ih.step ((hsame _ _ _ (ih.invariant hkeep hs)).mpr last)

/-! ### Side by side -/

/-- Both systems at once: their steps show the same, and lead to states related by `R`. -/
def beside (P : System S Label) (Q : System T Label) (R : S → T → Prop) : System (S × T) Label where
  start x := P.start x.1 ∧ Q.start x.2 ∧ R x.1 x.2
  step x l y := P.step x.1 l y.1 ∧ Q.step x.2 l y.2 ∧ R y.1 y.2

section

variable {R : S → T → Prop} {x y : S × T} {ls : List Label}

/-- The first component of a run of the product, -/
theorem Run.fst (h : (P.beside Q R).Run x ls y) : P.Run x.1 ls y.1 := by
  induction h with
  | refl => exact .refl
  | step before last ih => exact ih.step last.1

/-- and the second. -/
theorem Run.snd (h : (P.beside Q R).Run x ls y) : Q.Run x.2 ls y.2 := by
  induction h with
  | refl => exact .refl
  | step before last ih => exact ih.step last.2.1

/-- A restriction of the second component is one of its run. -/
theorem Run.keeping_snd {J : T → Prop}
    (h : ((P.beside Q R).keeping fun x => J x.2).Run x ls y) : (Q.keeping J).Run x.2 ls y.2 := by
  induction h with
  | refl => exact .refl
  | step before last ih => exact ih.step ⟨last.1.2.1, last.2⟩

/-- The two components stay related. -/
theorem Run.related (h : (P.beside Q R).Run x ls y) (hx : R x.1 x.2) : R y.1 y.2 := by
  cases h with
  | refl => exact hx
  | step before last => exact last.2.2

/-- **Side by side.**  If `Q` can follow every step of `P`, it can follow every run. -/
theorem Run.beside {s s' : S} {t : T}
    (hstep : ∀ s l s' t, R s t → P.step s l s' → ∃ t', Q.step t l t' ∧ R s' t')
    (h : P.Run s ls s') (hrel : R s t) : ∃ t', (P.beside Q R).Run (s, t) ls (s', t') := by
  induction h with
  | refl => exact ⟨t, .refl⟩
  | step before last ih =>
    obtain ⟨u, hu⟩ := ih
    obtain ⟨u', hfollow, hrel'⟩ := hstep _ _ _ _ (hu.related hrel) last
    exact ⟨u', hu.step ⟨last, hfollow, hrel'⟩⟩

end

end System

/-- **Forward simulation**: related states stay related, the upper system making any number of
    steps that show what the step of the lower one shows. -/
structure Simulation (P : System S Label) (Q : System T Label) (R : S → T → Prop) : Prop where
  start : ∀ s, P.start s → ∃ t, Q.start t ∧ R s t
  step : ∀ s l s' t, R s t → P.step s l s' → ∃ t', Q.Run t l.toList t' ∧ R s' t'

namespace Simulation

variable {R : S → T → Prop}

/-- A simulation carries over whole runs. -/
theorem run (h : Simulation P Q R) {s s' : S} {t : T} {ls : List Label} (hrel : R s t)
    (hrun : P.Run s ls s') : ∃ t', Q.Run t ls t' ∧ R s' t' := by
  induction hrun with
  | refl => exact ⟨t, .refl, hrel⟩
  | step before last ih =>
    obtain ⟨u, hu, hrel'⟩ := ih
    obtain ⟨u', hu', hrel''⟩ := h.step _ _ _ _ hrel' last
    exact ⟨u', hu.trans hu', hrel''⟩

/-- **Trace inclusion.** -/
theorem traces (h : Simulation P Q R) {s : S} {ls : List Label} (hreach : P.Reaches ls s) :
    ∃ t, Q.Reaches ls t ∧ R s t := by
  obtain ⟨s₀, hs₀, hrun⟩ := hreach
  obtain ⟨t₀, ht₀, hrel⟩ := h.start s₀ hs₀
  obtain ⟨t, ht, hrel'⟩ := h.run hrel hrun
  exact ⟨t, ⟨t₀, ht₀, ht⟩, hrel'⟩

end Simulation

end Transition
