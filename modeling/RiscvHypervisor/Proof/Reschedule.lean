import Mathlib.Data.BitVec
import Mathlib.Tactic.IntervalCases
import RiscvHypervisor.Lib.FirstMin
import RiscvHypervisor.Model.System

namespace RiscvHypervisor

open FirstMin

/-!
# Rescheduling the host's timer

`timer_reschedule` looks for the earliest of the host's own tick and the deadlines of all guest
threads, through the comparator of the CLINT and with a comparison that goes round a circle.  Within
half the circle, that is an order: the loop keeps the first minimum (`IsFirstMin`), and
`timer_reschedule_earliest` says so of the comparator and of `interrupt_target`.
-/

/-! ### Comparing times -/

/-- "Earlier" on the circle of 64-bit times. -/
theorem timerCompare_lt_iff (lhs rhs : Word) :
    timerCompare lhs rhs = .lt ↔ 2 ^ 63 ≤ (lhs - rhs).toNat := by
  have hint := BitVec.toInt_eq_toNat_cond (lhs - rhs)
  have hlt := (lhs - rhs).isLt
  unfold timerCompare
  dsimp only
  by_cases hzero : lhs - rhs = 0
  · rw [if_pos hzero, hzero]
    decide
  rw [if_neg hzero]
  by_cases hneg : 2 ^ 63 ≤ (lhs - rhs).toNat
  · rw [if_neg (by omega)] at hint
    rw [if_pos (by omega)]
    exact ⟨fun _ => hneg, fun _ => rfl⟩
  · rw [if_pos (by omega)] at hint
    rw [if_neg (by omega)]
    constructor
    · intro hc
      cases hc
    · intro hc
      exact absurd hc hneg

/-- The distance of a time from the start of a window. -/
def since (start time : Word) : Nat := (time - start).toNat

/-- Within a window of half the circle, "earlier" is "closer to its start". -/
theorem timerCompare_lt_iff_since {start lhs rhs : Word} (hl : since start lhs < 2 ^ 63)
    (hr : since start rhs < 2 ^ 63) :
    timerCompare lhs rhs = .lt ↔ since start lhs < since start rhs := by
  rw [timerCompare_lt_iff, ← sub_sub_sub_cancel_right lhs rhs start, BitVec.toNat_sub]
  unfold since at *
  omega

/-! ### The loop -/

/-- The deadline of a guest thread in host time. -/
def hostDeadline (s : State) (i j : Int) : Word :=
  (s.guestThreads i j).timerDeadline + (s.guestThreads i j).timerAdjustment

/-- One turn of the loop. -/
theorem rescheduleThread_eq (t : State) (i j : Int) :
    rescheduleThread t i j =
      if (t.guestThreads i j).timerScheduled = true ∧
          timerCompare (hostDeadline t i j) t.clint.mtimecmp = .lt
      then { timerInterruptAt (hostDeadline t i j) t with interruptTarget := ⟨i, j⟩ } else t := by
  unfold rescheduleThread timerInterruptSooner hostDeadline
  by_cases hsch : (t.guestThreads i j).timerScheduled = true
  · rw [if_pos hsch]
    cases hcmp : timerCompare ((t.guestThreads i j).timerDeadline +
        (t.guestThreads i j).timerAdjustment) t.clint.mtimecmp with
    | lt => exact (if_pos ⟨hsch, rfl⟩).symm
    | eq => exact (if_neg (fun hc => nomatch hc.2)).symm
    | gt => exact (if_neg (fun hc => nomatch hc.2)).symm
  · rw [if_neg hsch, if_neg (fun hc => hsch hc.1)]

/-- The comparator after one turn. -/
theorem rescheduleThread_mtimecmp (t : State) (i j : Int) :
    (rescheduleThread t i j).clint.mtimecmp =
      if (t.guestThreads i j).timerScheduled = true ∧
          timerCompare (hostDeadline t i j) t.clint.mtimecmp = .lt
      then hostDeadline t i j else t.clint.mtimecmp := by
  rw [rescheduleThread_eq]
  split
  · rfl
  · rfl

/-- The guest threads in the order of the loops. -/
def loopOrder (maxGuests maxVirtHarts : Nat) : List (Nat × Nat) :=
  (List.range maxGuests).flatMap fun i => (List.range maxVirtHarts).map fun j => (i, j)

theorem mem_loopOrder {maxGuests maxVirtHarts : Nat} {p : Nat × Nat} :
    p ∈ loopOrder maxGuests maxVirtHarts ↔ p.1 < maxGuests ∧ p.2 < maxVirtHarts := by
  obtain ⟨i, j⟩ := p
  simp [loopOrder]

/-- Earlier in the order of the loops. -/
def LoopBefore (p q : Nat × Nat) : Prop := p.1 < q.1 ∨ p.1 = q.1 ∧ p.2 < q.2

theorem loopOrder_pairwise (maxGuests maxVirtHarts : Nat) :
    (loopOrder maxGuests maxVirtHarts).Pairwise LoopBefore := by
  unfold loopOrder
  rw [List.pairwise_flatMap]
  constructor
  · intro i _
    rw [List.pairwise_map]
    refine List.pairwise_lt_range.imp ?_
    intro j j' hlt
    exact Or.inr ⟨rfl, hlt⟩
  · refine List.pairwise_lt_range.imp ?_
    intro i i' hlt p hp q hq
    obtain ⟨j, -, rfl⟩ := List.mem_map.mp hp
    obtain ⟨j', -, rfl⟩ := List.mem_map.mp hq
    exact Or.inl hlt

/-- The two loops are one over the threads. -/
theorem timerReschedule_eq_foldl (maxGuests maxVirtHarts : Nat) (s : State) :
    timerReschedule maxGuests maxVirtHarts s =
      (loopOrder maxGuests maxVirtHarts).foldl (fun s p => rescheduleThread s p.1 p.2)
        (timerInterruptAt (s.clint.mtime + milliseconds 200)
          { s with interruptTarget := ⟨-1, -1⟩ }) := by
  unfold loopOrder
  rw [List.foldl_flatMap]
  simp only [List.foldl_map]
  rfl

/-! ### The earliest deadline -/

/-- The tick and the host deadlines of all scheduled threads lie in one window of half the circle,
    from `start` on. -/
structure InWindow (start : Word) (maxGuests maxVirtHarts : Nat) (s : State) : Prop where
  tick : since start (s.clint.mtime + milliseconds 200) < 2 ^ 63
  deadlines : ∀ i j : Nat, i < maxGuests → j < maxVirtHarts →
    (s.guestThreads i j).timerScheduled = true → since start (hostDeadline s i j) < 2 ^ 63

/-- The key of a thread: how long after the start of the window its deadline is.  A thread that is
    not scheduled comes after everything. -/
def threadKey (start : Word) (s : State) (p : Nat × Nat) : Nat :=
  if (s.guestThreads p.1 p.2).timerScheduled = true then since start (hostDeadline s p.1 p.2)
  else 2 ^ 63

/-- What the loop has done when it has seen `seen` of the threads of `s`. -/
structure Rescheduled (start : Word) (s : State) (seen : List (Nat × Nat)) (t : State) : Prop where
  threads : t.guestThreads = s.guestThreads
  mie : t.hart.mie &&& MIE_MTIE ≠ 0
  best : ∃ best, IsFirstMin (threadKey start s) (since start (s.clint.mtime + milliseconds 200))
      seen best ∧
    match best with
    | none   => t.clint.mtimecmp = s.clint.mtime + milliseconds 200 ∧ t.interruptTarget = ⟨-1, -1⟩
    | some p => (s.guestThreads p.1 p.2).timerScheduled = true ∧
        t.clint.mtimecmp = hostDeadline s p.1 p.2 ∧ t.interruptTarget = ⟨p.1, p.2⟩

theorem or_mtie_ne_zero (v : Word) : (v ||| MIE_MTIE) &&& MIE_MTIE ≠ 0 := by
  intro h
  have hbit := congrArg (fun w : Word => w.getLsbD 7) h
  simp [MIE_MTIE] at hbit

variable {start : Word} {maxGuests maxVirtHarts : Nat} {s : State}

/-- **One turn.** -/
theorem Rescheduled.step (window : InWindow start maxGuests maxVirtHarts s)
    {seen : List (Nat × Nat)} {t : State} {p : Nat × Nat}
    (hp : p ∈ loopOrder maxGuests maxVirtHarts) (h : Rescheduled start s seen t) :
    Rescheduled start s (seen ++ [p]) (rescheduleThread t p.1 p.2) := by
  obtain ⟨hi, hj⟩ := mem_loopOrder.mp hp
  obtain ⟨best, hmin, hbest⟩ := h.best
  have hthread : hostDeadline t p.1 p.2 = hostDeadline s p.1 p.2 := by
    unfold hostDeadline
    rw [h.threads]
  -- the comparator is the mark that a thread has to beat
  have hmark : mark (threadKey start s) (since start (s.clint.mtime + milliseconds 200)) best =
      since start t.clint.mtimecmp := by
    cases best with
    | none => rw [hbest.1, mark]
    | some q => rw [hbest.2.1, mark, threadKey, if_pos hbest.1]
  have hcmp : since start t.clint.mtimecmp < 2 ^ 63 := by
    rw [← hmark]
    exact Nat.lt_of_le_of_lt hmin.mark_le_bound window.tick
  have hsnoc := hmin.snoc p
  rw [hmark] at hsnoc
  rw [rescheduleThread_eq, hthread, h.threads]
  by_cases hsch : (s.guestThreads p.1 p.2).timerScheduled = true
  swap
  · rw [if_neg (fun hc => hsch hc.1)]
    rw [threadKey, if_neg hsch, if_neg (Nat.not_lt.mpr (Nat.le_of_lt hcmp))] at hsnoc
    exact ⟨h.threads, h.mie, best, hsnoc, hbest⟩
  have hiff := timerCompare_lt_iff_since (window.deadlines p.1 p.2 hi hj hsch) hcmp
  rw [threadKey, if_pos hsch] at hsnoc
  by_cases hlt : since start (hostDeadline s p.1 p.2) < since start t.clint.mtimecmp
  · rw [if_pos ⟨hsch, hiff.mpr hlt⟩]
    rw [if_pos hlt] at hsnoc
    exact ⟨h.threads, or_mtie_ne_zero _, some p, hsnoc, hsch, rfl, rfl⟩
  · rw [if_neg (fun hc => hlt (hiff.mp hc.2))]
    rw [if_neg hlt] at hsnoc
    exact ⟨h.threads, h.mie, best, hsnoc, hbest⟩

/-- **The whole loop.** -/
theorem timerReschedule_rescheduled (window : InWindow start maxGuests maxVirtHarts s) :
    Rescheduled start s (loopOrder maxGuests maxVirtHarts)
      (timerReschedule maxGuests maxVirtHarts s) := by
  rw [timerReschedule_eq_foldl]
  refine foldl_induction (P := Rescheduled start s) _ ?_ ?_
  · refine ⟨rfl, or_mtie_ne_zero _, none, ?_, rfl, rfl⟩
    intro p hp
    cases hp
  · intro seen t p hp h
    exact h.step window hp

/-- **`timer_reschedule`.**  For any number of guests and virtual harts, if the tick and the host
    deadlines of the scheduled threads lie in one window of half the circle: the comparator is the
    earliest of them; if that is before the tick, `interrupt_target` is the first thread in the
    order of the loops whose deadline it is, and otherwise nobody; and the timer interrupt is
    enabled. -/
theorem timer_reschedule_earliest (window : InWindow start maxGuests maxVirtHarts s) :
    let tick := s.clint.mtime + milliseconds 200
    let t := timerReschedule maxGuests maxVirtHarts s
    (t.clint.mtimecmp = tick ∨ ∃ i j : Nat, i < maxGuests ∧ j < maxVirtHarts ∧
      (s.guestThreads i j).timerScheduled = true ∧ t.clint.mtimecmp = hostDeadline s i j) ∧
    since start t.clint.mtimecmp ≤ since start tick ∧
    (∀ i j : Nat, i < maxGuests → j < maxVirtHarts → (s.guestThreads i j).timerScheduled = true →
      since start t.clint.mtimecmp ≤ since start (hostDeadline s i j)) ∧
    (since start t.clint.mtimecmp < since start tick →
      ∃ i j : Nat, i < maxGuests ∧ j < maxVirtHarts ∧ t.interruptTarget = ⟨i, j⟩ ∧
        (s.guestThreads i j).timerScheduled = true ∧ hostDeadline s i j = t.clint.mtimecmp ∧
        ∀ i' j' : Nat, i' < maxGuests → j' < maxVirtHarts → LoopBefore (i', j') (i, j) →
          (s.guestThreads i' j').timerScheduled = true →
          hostDeadline s i' j' ≠ t.clint.mtimecmp) ∧
    (¬ since start t.clint.mtimecmp < since start tick → t.interruptTarget = ⟨-1, -1⟩) ∧
    t.hart.mie &&& MIE_MTIE ≠ 0 := by
  intro tick t
  obtain ⟨-, hmie, best, hmin, hbest⟩ := timerReschedule_rescheduled window
  have hkey : ∀ i j : Nat, (s.guestThreads i j).timerScheduled = true →
      threadKey start s (i, j) = since start (hostDeadline s i j) := fun i j hsch => if_pos hsch
  have hle := hmin.mark_le
  have hbound := hmin.mark_le_bound
  cases best with
  | none =>
    obtain ⟨hcmp, htarget⟩ := hbest
    change t.clint.mtimecmp = tick at hcmp
    rw [hcmp]
    refine ⟨Or.inl rfl, Nat.le_refl _, ?_, fun hlt => absurd hlt (Nat.lt_irrefl _),
      fun _ => htarget, hmie⟩
    intro i j hi hj hsch
    rw [← hkey i j hsch]
    exact hle _ (mem_loopOrder.mpr ⟨hi, hj⟩)
  | some p =>
    obtain ⟨hsch, hcmp, htarget⟩ := hbest
    obtain ⟨hlt, before, after, hsplit, hbefore, -⟩ := hmin
    change t.clint.mtimecmp = hostDeadline s p.1 p.2 at hcmp
    rw [mark, hkey p.1 p.2 hsch] at hle hbound
    rw [hkey p.1 p.2 hsch] at hlt hbefore
    have hp : p ∈ loopOrder maxGuests maxVirtHarts := by
      rw [hsplit]
      simp
    obtain ⟨hi, hj⟩ := mem_loopOrder.mp hp
    rw [hcmp]
    refine ⟨Or.inr ⟨p.1, p.2, hi, hj, hsch, rfl⟩, hbound, ?_, ?_, fun hge => absurd hlt hge, hmie⟩
    · intro i j hi hj hsch'
      rw [← hkey i j hsch']
      exact hle _ (mem_loopOrder.mpr ⟨hi, hj⟩)
    · intro _
      refine ⟨p.1, p.2, hi, hj, htarget, hsch, rfl, ?_⟩
      intro i' j' hi' hj' hfirst hsch' heq
      -- an earlier thread was seen before, and has a later deadline
      have hmem : (i', j') ∈ before := by
        have hsorted := loopOrder_pairwise maxGuests maxVirtHarts
        have hin : (i', j') ∈ loopOrder maxGuests maxVirtHarts := mem_loopOrder.mpr ⟨hi', hj'⟩
        rw [hsplit] at hsorted hin
        rcases List.mem_append.mp hin with hin | hin
        · exact hin
        · rcases List.mem_cons.mp hin with hin | hin
          · rw [← hin] at hfirst
            rcases hfirst with hc | ⟨-, hc⟩
            · exact absurd hc (Nat.lt_irrefl _)
            · exact absurd hc (Nat.lt_irrefl _)
          · have hafter := (List.pairwise_cons.mp (List.pairwise_append.mp hsorted).2.1).1 _ hin
            unfold LoopBefore at hafter hfirst
            dsimp only at hafter hfirst
            omega
      have hlater := hbefore _ hmem
      rw [hkey i' j' hsch', heq] at hlater
      exact absurd hlater (Nat.lt_irrefl _)

/-- Two guests with two harts each, just before the clock wraps around: the threads `(0, 1)` and
    `(1, 0)` have the same deadline, and `(1, 1)` a later one. -/
def sampleTimers : State :=
  let timer (deadline : Word) : GuestThreadContext :=
    { timerScheduled := true, timerDeadline := deadline, timerAdjustment := 20 }
  { sampleMachine (fun _ => 0) with
    clint := ⟨BitVec.ofNat 64 (2 ^ 64 - 100), 0⟩
    guestThreads := fun i j =>
      if i = 0 ∧ j = 1 ∨ i = 1 ∧ j = 0 then timer 30 else if i = 1 ∧ j = 1 then timer 40 else {} }

/-- The first of the two is named, with a deadline after the wrap. -/
theorem timer_reschedule_earliest_tie :
    (timerReschedule 2 2 sampleTimers).clint.mtimecmp = 50 ∧
      (timerReschedule 2 2 sampleTimers).interruptTarget = ⟨0, 1⟩ ∧
      (timerReschedule 2 2 sampleTimers).hart.mie &&& MIE_MTIE ≠ 0 := by
  have window : InWindow (BitVec.ofNat 64 (2 ^ 64 - 100)) 2 2 sampleTimers := by
    refine ⟨by decide, ?_⟩
    intro i j hi hj hsch
    interval_cases i <;> interval_cases j <;> revert hsch <;> decide
  obtain ⟨-, -, -, -, -, hmie⟩ := timer_reschedule_earliest window
  exact ⟨by decide, by decide, hmie⟩

end RiscvHypervisor
