import Mathlib.Logic.Relation
import RiscvHypervisor.Proof.Effects
import RiscvHypervisor.Proof.Timer

namespace RiscvHypervisor

open ByteMem Except Relation

/-!
# Modes and traps over runs

How the guest moves between its modes and when it takes its timer interrupt, for every run.

* `privilege_stack` — `guest_mret` and `guest_exception` switch between the two modes and leave
  `mstatus.MPP` to the guest;
* `timer_trap_gated` — a timer trap is delivered only through the gate of `mstatus.MIE` and
  `mstatus.MDT`, and waits there;
* `rearmed_timer` — until the guest's deadline is reached, no tick is added to those that were
  pending.

A tick is one expiry of the guest's timer: it is pending, or it has been delivered as a trap.  The
number of ticks is what all three arguments about the timer go by (`exception_ticks`).
-/

variable {L : Layout} {s s' t : State}

/-! ### Ticks -/

/-- The expiries of the guest's timer that it has seen or has pending. -/
def State.ticks (s : State) : Nat := timerTraps s.trace + s.guest.deferredException.toNat

/-- Delivery turns a pending tick into a trap. -/
theorem Checked.ticks (hcause : t.guest.deferredException = true →
    t.guest.deferredMcause = timerCause) (h : Checked L t s') : s'.ticks = t.ticks := by
  rcases h.cases with ⟨rfl, -⟩ | hdel
  · rfl
  · unfold State.ticks
    rw [hdel.trapped.trace, hdel.trapped.guest, hcause hdel.pending, timerTraps_cons, if_pos rfl,
      State.trace_setGuest, State.guest_setGuest, hdel.pending]
    rfl

/-- **Ticks.**  A trap adds a tick only if it is a timer interrupt meant for a guest that has none
    pending. -/
theorem Effect.ticks (hcause : s.guest.deferredException = true →
    s.guest.deferredMcause = timerCause) (h : Effect L s s') :
    s'.ticks = s.ticks ∨
      s.hart.mcause = timerCause ∧ 0 ≤ s.interruptTarget.machine ∧
        s.guest.deferredException = false ∧ s'.ticks = s.ticks + 1 := by
  cases h with
  | quiet guest trace =>
    left
    unfold State.ticks
    rw [guest, trace]
  | mtimecmpStore deadline guest trace =>
    left
    have htraps : timerTraps (.mtimecmpStore deadline :: s.trace) = timerTraps s.trace := by
      unfold timerTraps
      rw [List.count_cons_of_ne (by simp)]
    unfold State.ticks
    rw [guest, trace, htraps]
  | csr t written checked =>
    left
    obtain ⟨csr, hguest, -⟩ := written.guest
    rw [checked.ticks (by rw [hguest]; exact hcause)]
    unfold State.ticks
    rw [hguest, written.trace]
  | mret t returned checked =>
    left
    obtain ⟨root, active, hguest⟩ := returned.guest
    rw [checked.ticks (by rw [hguest]; exact hcause)]
    unfold State.ticks
    rw [hguest, returned.trace]
  | ecall user trapped =>
    left
    unfold State.ticks
    rw [trapped.trace, trapped.guest, timerTraps_cons, if_neg (by decide)]
    rfl
  | timerLost cause target pending guest trace =>
    left
    unfold State.ticks
    rw [guest, trace]
  -- the one case that adds a tick: the pending bit was clear and is set before the check
  | timer t cause target free guest trace checked =>
    right
    refine ⟨cause, target, free, ?_⟩
    rw [checked.ticks (by rw [guest]; exact fun _ => rfl)]
    unfold State.ticks
    rw [guest, trace, free]
    rfl

theorem exception_ticks {stale : Nat → Nat} {reads : MtimeReads} (h : Inv L s)
    (handled : exception L stale reads s = .ok s') :
    s'.ticks = s.ticks ∨
      s.hart.mcause = timerCause ∧ 0 ≤ s.interruptTarget.machine ∧
        s.guest.deferredException = false ∧ s'.ticks = s.ticks + 1 := by
  obtain ⟨s₁, hdispatch, hguest, htrace, -⟩ := exception_dispatch handled
  have hend : s'.ticks = s₁.ticks := by
    unfold State.ticks
    rw [hguest, htrace]
    rfl
  have hstart : (suspended L reads s).ticks = s.ticks := by
    unfold State.ticks
    rw [guest_suspended]
    rfl
  have hcause : (suspended L reads s).guest.deferredException = true →
      (suspended L reads s).guest.deferredMcause = timerCause := by
    rw [guest_suspended]
    exact h.core.priv.cause
  have hticks := (dispatch_effect hdispatch).ticks hcause
  rw [guest_suspended] at hticks
  rw [hend, ← hstart]
  exact hticks

/-- Ticks are never lost. -/
theorem Step.ticks_le {ev : GuestEvent} (h : Inv L s) (hstep : Step L s ev s') :
    s.ticks ≤ s'.ticks := by
  rcases hstep.between_or_trap h with ⟨hguest, htrace, -⟩ |
    ⟨mcause, mtval, reads, stale, -, -, handled⟩
  · unfold State.ticks
    rw [hguest, htrace]
  · rcases exception_ticks (h.trapEntry mcause mtval) handled with heq | ⟨-, -, -, heq⟩
    · exact Nat.le_of_eq heq.symm
    · show s.ticks ≤ s'.ticks
      rw [heq]
      exact Nat.le_succ _

/-! ### The gate -/

/-- Where `guest_check_deferred` is called from: after a write to a CSR, after the return to user
    mode, or after the timer has expired. -/
inductive BeforeCheck (s t : State) : Prop where
  | csr (written : CsrWritten s.hart.mepc s t)
  | mret (returned : Returned s t)
  | timer (guest : t.guest = { s.guest with
      timerScheduled := false, deferredException := true, deferredMcause := timerCause })
      (trace : t.trace = s.trace)

/-- A trap shows no timer trap to the guest, or one that came through the gate. -/
theorem Effect.timerTraps (h : Effect L s s') :
    timerTraps s'.trace = timerTraps s.trace ∨ ∃ t, BeforeCheck s t ∧ Delivered L t s' := by
  -- the three ways to `guest_check_deferred` end alike: nothing is shown, or the gate was open
  have hchecked : ∀ t, BeforeCheck s t → t.trace = s.trace → Checked L t s' →
      RiscvHypervisor.timerTraps s'.trace = RiscvHypervisor.timerTraps s.trace ∨
        ∃ t, BeforeCheck s t ∧ Delivered L t s' := by
    intro t hbefore htrace hchecked
    rcases hchecked.cases with ⟨rfl, -⟩ | hdel
    · left
      rw [htrace]
    · right
      exact ⟨t, hbefore, hdel⟩
  cases h with
  | quiet guest trace =>
    left
    rw [trace]
  | mtimecmpStore deadline guest trace =>
    left
    rw [trace]
    unfold RiscvHypervisor.timerTraps
    rw [List.count_cons_of_ne (by simp)]
  | csr t written checked => exact hchecked t (.csr written) written.trace checked
  | mret t returned checked => exact hchecked t (.mret returned) returned.trace checked
  | ecall user trapped =>
    left
    rw [trapped.trace, timerTraps_cons, if_neg (by decide), Nat.add_zero]
  | timerLost cause target pending guest trace =>
    left
    rw [trace]
  | timer t cause target free guest trace checked =>
    exact hchecked t (.timer guest trace) trace checked

/-- **The gate of the timer.**  In every run,
    (a) whenever a trap handler of the guest is entered with the cause of the timer, it is from a
    state with `mstatus.MIE` set and `mstatus.MDT` clear, in user mode;
    (b) a pending exception stays pending until then;
    (c) an expiry of the guest's timer is delivered at once or pending afterwards. -/
theorem timer_trap_gated (h : Reachable L s) :
    (∀ mcause mtval reads stale s', exception L stale reads (s.trapEntry mcause mtval) = .ok s' →
      timerTraps s'.trace ≠ timerTraps s.trace →
      ∃ t s₁, BeforeCheck (suspended L reads (s.trapEntry mcause mtval)) t ∧ Delivered L t s₁ ∧
        s'.guest = s₁.guest.resumed reads.resume ∧ s'.trace = s₁.trace) ∧
    (∀ s', ReflTransGen (fun s s' => ∃ ev, Step L s ev s') s s' →
      s.guest.deferredException = true → timerTraps s'.trace = timerTraps s.trace →
      s'.guest.deferredException = true) ∧
    (∀ mtval reads stale s', 0 ≤ s.interruptTarget.machine →
      exception L stale reads (s.trapEntry timerCause mtval) = .ok s' →
      timerTraps s'.trace = timerTraps s.trace → s'.guest.deferredException = true) := by
  refine ⟨?_, ?_, ?_⟩
  · intro mcause mtval reads stale s' handled hnew
    obtain ⟨s₁, hdispatch, hguest, htrace, -⟩ := exception_dispatch handled
    rcases (dispatch_effect hdispatch).timerTraps with hsame | ⟨t, hbefore, hdel⟩
    · rw [htrace] at hnew
      exact absurd hsame hnew
    · exact ⟨t, s₁, hbefore, hdel, hguest, htrace⟩
  · intro s' hrun hpending hsame
    -- the ticks are as many as before, at least, and the traps are as many as before
    have hle : Reachable L s' ∧ s.ticks ≤ s'.ticks := by
      clear hsame
      induction hrun with
      | refl => exact ⟨h, Nat.le_refl _⟩
      | tail _ hstep ih =>
        obtain ⟨ev, hstep⟩ := hstep
        exact ⟨ih.1.step hstep, Nat.le_trans ih.2 (hstep.ticks_le ih.1.inv)⟩
    have hticks := hle.2
    unfold State.ticks at hticks
    rw [hsame, hpending] at hticks
    cases hdef : s'.guest.deferredException with
    | true => rfl
    | false =>
      rw [hdef] at hticks
      simp at hticks
  · intro mtval reads stale s' htarget handled hsame
    have hinv := h.inv.trapEntry timerCause mtval
    obtain ⟨s₁, hdispatch, hguest, htrace, -⟩ := exception_dispatch handled
    rw [dispatch_timer] at hdispatch
    have hs := hinv.suspended reads
    -- the dispatch is `timer_on_interrupt`, which sets the pending bit or delivers
    obtain ⟨s₂, heq, -, -, hcase⟩ := timerOnInterrupt_spec hs.core hs.settled hs.target
    rw [hdispatch] at heq
    cases heq
    rcases hcase htarget with hdef | htrap
    · rw [hguest]
      exact hdef
    · rw [htrace, htrap, timerTraps_cons, if_pos rfl] at hsame
      exact absurd hsame (Nat.succ_ne_self _)

/-! ### Re-arming -/

/-- A step of a run in which the guest waits for its deadline: its virtual time is still before the
    deadline at every trap, the deadline plus adjustment is below `2 ^ 63`, and the host's timer
    interrupts only once its comparator is reached. -/
def Waiting (L : Layout) (s s' : State) : Prop :=
  ∃ ev, Step L s ev s' ∧ ∀ mcause mtval reads stale, ev = .trap mcause mtval reads stale →
    (mcause = timerCause → s.clint.mtimecmp ≤ reads.suspend) ∧
    reads.suspend - s.guest.timerAdjustment < s.guest.timerDeadline ∧
    s.guest.timerDeadline.toNat + s.guest.timerAdjustment.toNat < 2 ^ 63

/-- The comparator armed for the guest is not reached before the guest's deadline. -/
theorem not_reached_of_before {deadline adj now : Word}
    (hfits : deadline.toNat + adj.toNat < 2 ^ 63)
    (hbefore : now - adj < deadline) : ¬ deadline + adj ≤ now := by
  have hn := now.isLt
  rw [BitVec.lt_def, BitVec.toNat_sub] at hbefore
  rw [BitVec.le_def, BitVec.toNat_add]
  omega

theorem Waiting.ticks (h : Inv L s) (hwait : Waiting L s s') : s'.ticks = s.ticks := by
  obtain ⟨ev, hstep, hcond⟩ := hwait
  rcases hstep.between_or_trap h with ⟨hguest, htrace, -⟩ |
    ⟨mcause, mtval, reads, stale, rfl, -, handled⟩
  · unfold State.ticks
    rw [hguest, htrace]
  · obtain ⟨hhardware, hbefore, hfits⟩ := hcond _ _ _ _ rfl
    rcases exception_ticks (h.trapEntry mcause mtval) handled with heq | ⟨hcause, htarget, -, -⟩
    · exact heq
    · -- the interrupt cannot have been raised
      exfalso
      have hcmp : s.clint.mtimecmp = s.guest.timerDeadline + s.guest.timerAdjustment :=
        h.target.deadline htarget
      apply not_reached_of_before hfits hbefore
      rw [← hcmp]
      exact hhardware hcause

/-- **Re-arming.**  From any state of a run, for example right after a store to `mtimecmp`, and for
    as long as the guest's virtual time has not reached its deadline, the timer traps delivered are
    those of exceptions that were pending in that state. -/
theorem rearmed_timer (h : Reachable L s) (hrun : ReflTransGen (Waiting L) s s') :
    timerTraps s'.trace + s'.guest.deferredException.toNat =
      timerTraps s.trace + s.guest.deferredException.toNat := by
  have hticks : Reachable L s' ∧ s'.ticks = s.ticks := by
    induction hrun with
    | refl => exact ⟨h, rfl⟩
    | tail _ hwait ih =>
      have heq := hwait.ticks ih.1.inv
      obtain ⟨ev, hstep, -⟩ := hwait
      exact ⟨ih.1.step hstep, heq.trans ih.2⟩
  exact hticks.2

/-! ### A guest that takes a tick -/

/-- The kernel sets `mstatus.MIE` after it has stored its second deadline. -/
def sampleEnable (s : State) : Except Panic State :=
  exception sampleLayout (fun _ => 0) (sampleReads 400)
    ((s.guestRun (sampleTimerRegs 0 8) 0x80000004).trapEntry 2 0)

/-- A trap of such a guest, while it waits. -/
theorem waiting_trap {regs : SavedRegisters} {pc mcause : Word} {t : Nat}
    (hnow : s.clint.mtime.toNat ≤ t) (ht : t < 2 ^ 63) (hcause : mcause ≠ timerCause)
    (hbefore : BitVec.ofNat 64 t - s.guest.timerAdjustment < s.guest.timerDeadline)
    (hfits : s.guest.timerDeadline.toNat + s.guest.timerAdjustment.toNat < 2 ^ 63)
    (h : exception sampleLayout (fun _ => 0) (sampleReads t)
      ((s.guestRun regs pc).trapEntry mcause 0) = .ok s') :
    ReflTransGen (Waiting sampleLayout) s s' := by
  have hrun : Waiting sampleLayout s (s.guestRun regs pc) :=
    ⟨.run regs pc, .run regs pc, fun _ _ _ _ hev => by cases hev⟩
  refine (ReflTransGen.single hrun).tail ⟨_, .trap (monotone_sampleReads hnow ht) h, ?_⟩
  intro mcause' mtval reads stale hev
  cases hev
  exact ⟨fun hc => absurd hc hcause, hbefore, hfits⟩

/-- While the tick waits, and when it is taken, there is one tick. -/
theorem rearmed_timer_sample :
    ∃ s s', Reachable sampleLayout s ∧ ReflTransGen (Waiting sampleLayout) s s' ∧
      timerTraps s'.trace + s'.guest.deferredException.toNat = 1 := by
  obtain ⟨s, hreach, hs⟩ := exists_reachable sampleTimerKernel sampleRearm
    (fun s => ((s.clint.mtime, s.guest.timerDeadline, s.guest.timerAdjustment, s.ticks),
      (sampleEnable s).toOption.isSome)) ((303, 1000000, 208, 1), true) (by decide)
    (by decide +kernel)
  simp only [Prod.mk.injEq] at hs
  obtain ⟨⟨hnow, hdead, hadj, hticks⟩, hsome⟩ := hs
  obtain ⟨s₁, hs₁⟩ : ∃ s₁, sampleEnable s = .ok s₁ := by
    cases hrun : sampleEnable s with
    | ok s₁ => exact ⟨s₁, rfl⟩
    | error e =>
      rw [hrun] at hsome
      cases hsome
  have hwait : ReflTransGen (Waiting sampleLayout) s s₁ :=
    waiting_trap (by rw [hnow]; decide) (by decide) (by decide) (by rw [hdead, hadj]; decide)
      (by rw [hdead, hadj]; decide) hs₁
  exact ⟨s, s₁, hreach, hwait, (rearmed_timer hreach hwait).trans hticks⟩

/-- The tick that was pending when the guest stored a later deadline is delivered all the same, long
    before that deadline. -/
theorem rearming_keeps_tick :
    ∃ s s', Reachable sampleLayout s ∧ s.trace.head? = some (.mtimecmpStore 1000000) ∧
      s.guest.deferredException = true ∧ timerGetTimeVirtual s < 1000000 ∧
      ReflTransGen (Waiting sampleLayout) s s' ∧ s'.guest.timerDeadline = 1000000 ∧
      timerTraps s.trace = 0 ∧ timerTraps s'.trace = 1 := by
  -- The run is evaluated once, on everything the statement needs: the state after the store, the
  -- one after `MIE` is set and the one after `mret`.
  obtain ⟨s, hreach, hs⟩ := exists_reachable sampleTimerKernel sampleRearm
    (fun s => (decide (s.trace.head? = some (.mtimecmpStore 1000000) ∧
        s.guest.deferredException = true ∧ timerTraps s.trace = 0),
      [s.clint.mtime, s.guest.timerDeadline, s.guest.timerAdjustment],
      (sampleEnable s).toOption.map (fun s₁ =>
        ([s₁.clint.mtime, s₁.guest.timerDeadline, s₁.guest.timerAdjustment],
          decide ((sampleReturn s₁).toOption.map
            (fun s₂ => (s₂.guest.timerDeadline, timerTraps s₂.trace)) = some (1000000, 1))))))
    (true, [303, 1000000, 208], some ([403, 1000000, 260], true)) (by decide) (by decide +kernel)
  simp only [Prod.mk.injEq, List.cons.injEq, decide_eq_true_eq] at hs
  obtain ⟨⟨hhead, hdef, htraps⟩, ⟨hnow, hdead, hadj, -⟩, hrun⟩ := hs
  obtain ⟨s₁, hs₁, hview⟩ := map_toOption_eq_some.mp hrun
  simp only [Prod.mk.injEq, List.cons.injEq, decide_eq_true_eq] at hview
  obtain ⟨⟨hnow₁, hdead₁, hadj₁, -⟩, hrun₁⟩ := hview
  obtain ⟨s₂, hs₂, hview₂⟩ := map_toOption_eq_some.mp hrun₁
  obtain ⟨hdead₂, htraps₂⟩ := Prod.mk.inj hview₂
  have hwait : ReflTransGen (Waiting sampleLayout) s s₁ :=
    waiting_trap (by rw [hnow]; decide) (by decide) (by decide) (by rw [hdead, hadj]; decide)
      (by rw [hdead, hadj]; decide) hs₁
  have hwait₁ : ReflTransGen (Waiting sampleLayout) s₁ s₂ :=
    waiting_trap (by rw [hnow₁]; decide) (by decide) (by decide) (by rw [hdead₁, hadj₁]; decide)
      (by rw [hdead₁, hadj₁]; decide) hs₂
  refine ⟨s, s₂, hreach, hhead, hdef, ?_, hwait.trans hwait₁, hdead₂, htraps, htraps₂⟩
  unfold timerGetTimeVirtual
  rw [hnow, hadj]
  decide

/-- The tick is taken by the return to user mode, with `mie.MTIE` clear all along. -/
theorem timer_trap_despite_mtie :
    ∃ s s', Reachable sampleLayout s ∧
      exception sampleLayout (fun _ => 0) (sampleReads 500) (s.trapEntry 2 0) = .ok s' ∧
      timerTraps s.trace = 0 ∧ timerTraps s'.trace = 1 ∧
      s.guest.csr.mieMtie = false ∧ s'.guest.csr.mieMtie = false := by
  obtain ⟨s, hreach, hs⟩ := exists_reachable sampleTimerKernel
    (sampleRearm ++ [⟨sampleTimerRegs 0 8, 0x80000004, 2⟩])
    (fun s => (s.guest.csr.mieMtie, timerTraps s.trace,
      (sampleReturn s).toOption.map (fun s' => (s'.guest.csr.mieMtie, timerTraps s'.trace))))
    (false, 0, some (false, 1)) (by decide) (by decide +kernel)
  simp only [Prod.mk.injEq] at hs
  obtain ⟨hmtie, htraps, hrun⟩ := hs
  obtain ⟨s', hs', hview⟩ := map_toOption_eq_some.mp hrun
  obtain ⟨hmtie', htraps'⟩ := Prod.mk.inj hview
  exact ⟨_, s', hreach.step (.run (sampleTimerRegs 0 8) 0x80000008), hs', htraps, htraps', hmtie,
    hmtie'⟩

/-- It comes through the gate. -/
theorem timer_trap_gated_sample :
    ∃ s s', Reachable sampleLayout s ∧
      exception sampleLayout (fun _ => 0) (sampleReads 500) (s.trapEntry 2 0) = .ok s' ∧
      ∃ t s₁, BeforeCheck (suspended sampleLayout (sampleReads 500) (s.trapEntry 2 0)) t ∧
        Delivered sampleLayout t s₁ ∧ s'.trace = s₁.trace := by
  obtain ⟨s, hreach, hs⟩ := exists_reachable sampleTimerKernel
    (sampleRearm ++ [⟨sampleTimerRegs 0 8, 0x80000004, 2⟩])
    (fun s => (timerTraps s.trace, (sampleReturn s).toOption.map (fun s' => timerTraps s'.trace)))
    (0, some 1) (by decide) (by decide +kernel)
  simp only [Prod.mk.injEq] at hs
  obtain ⟨htraps, hrun⟩ := hs
  obtain ⟨s', hs', htraps'⟩ := map_toOption_eq_some.mp hrun
  have hreach₁ := hreach.step (.run (sampleTimerRegs 0 8) 0x80000008)
  obtain ⟨t, s₁, hbefore, hdel, -, htrace⟩ := (timer_trap_gated hreach₁).1 2 0 _ _ s' hs'
    (by rw [htraps']; exact fun hc => Nat.one_ne_zero (hc.trans htraps))
  exact ⟨_, s', hreach₁, hs', t, s₁, hbefore, hdel, htrace⟩

/-! ### Modes -/

/-- The mode of a hart with machine and user mode, and `mstatus.MPP`. -/
structure PrivStack where
  user : Bool
  mpp : BitVec 2
deriving DecidableEq, Repr

/-- `mret` on such a hart: back to the mode in `MPP`, which becomes user mode. -/
def PrivStack.mret (p : PrivStack) : PrivStack := ⟨p.mpp == 0, 0⟩

/-- A trap on such a hart: to machine mode, with the interrupted mode in `MPP`. -/
def PrivStack.trap (p : PrivStack) : PrivStack := ⟨false, if p.user then 0 else 3⟩

/-- The guest's mode, and its `mstatus.MPP`. -/
def State.privStack (s : State) : PrivStack := ⟨s.guest.userMode, s.guest.csr.mstatusMpp⟩

theorem Trapped.privStack {mcause : Word} (h : Trapped L mcause s s') :
    s'.privStack = ⟨false, s.guest.csr.mstatusMpp⟩ := by
  unfold State.privStack
  rw [h.guest]
  rfl

/-- **Modes.**
    (a) `guest_mret` is executed in machine mode.  It enters user mode, whatever `MPP` holds, or,
    if a deferred exception is delivered, ends in machine mode; `MPP` keeps its value.
    (b) `guest_exception` is executed in user mode, enters machine mode and leaves `MPP` alone.
    (c) Both are therefore what the privilege stack asks for as long as `MPP` is user mode.
    (d) In every run, machine mode is on the machine table. -/
theorem privilege_stack (L : Layout) :
    (∀ s s', guestMret L s = .ok s' → s.guest.userMode = false ∧
      (s'.trace = s.trace ∧ s'.privStack = ⟨true, s.guest.csr.mstatusMpp⟩ ∨
        s'.trace = .guestTrap s.guest.deferredMcause :: s.trace ∧
          s'.privStack = ⟨false, s.guest.csr.mstatusMpp⟩)) ∧
    (∀ mcause s s', guestException L mcause s = .ok s' → s.guest.userMode = true ∧
      s'.trace = .guestTrap mcause :: s.trace ∧
      s'.privStack = ⟨false, s.guest.csr.mstatusMpp⟩) ∧
    (∀ s s', s.guest.csr.mstatusMpp = 0 →
      (guestMret L s = .ok s' → s'.trace = s.trace → s'.privStack = s.privStack.mret) ∧
      (∀ mcause, guestException L mcause s = .ok s' → s'.privStack = s.privStack.trap)) ∧
    (∀ s, Reachable L s → s.guest.userMode = false →
      s.guest.shadowPtActive = false ∧ s.hart.satp = makeSatp (L.machineRoot 0)) := by
  have hmret : ∀ s s', guestMret L s = .ok s' → s.guest.userMode = false ∧
      (s'.trace = s.trace ∧ s'.privStack = ⟨true, s.guest.csr.mstatusMpp⟩ ∨
        s'.trace = .guestTrap s.guest.deferredMcause :: s.trace ∧
          s'.privStack = ⟨false, s.guest.csr.mstatusMpp⟩) := by
    intro s s' h
    obtain ⟨t, hret, hcheck⟩ := guestMret_returned h
    obtain ⟨root, active, hguest⟩ := hret.guest
    refine ⟨hret.machine, ?_⟩
    -- what was deferred is delivered at once, on top of the return
    rcases hcheck.cases with ⟨rfl, -⟩ | hdel
    · left
      refine ⟨hret.trace, ?_⟩
      unfold State.privStack
      rw [hguest]
    · right
      rw [hdel.trapped.trace, hdel.trapped.privStack, State.guest_setGuest, State.trace_setGuest,
        hret.trace, hguest]
      exact ⟨rfl, rfl⟩
  have hexception : ∀ mcause s s', guestException L mcause s = .ok s' →
      s.guest.userMode = true ∧ s'.trace = .guestTrap mcause :: s.trace ∧
        s'.privStack = ⟨false, s.guest.csr.mstatusMpp⟩ := by
    intro mcause s s' h
    obtain ⟨huser, htrap⟩ := trapped_of_guestException h
    exact ⟨huser, htrap.trace, htrap.privStack⟩
  refine ⟨hmret, hexception, ?_, ?_⟩
  · -- (c): the new stack has the old `MPP`, which is what an empty stack pops and pushes
    intro s s' hmpp
    refine ⟨fun h htrace => ?_, fun mcause h => ?_⟩
    · obtain ⟨-, ⟨-, hstack⟩ | ⟨htrap, -⟩⟩ := hmret s s' h
      · rw [hstack, hmpp]
        unfold PrivStack.mret State.privStack
        rw [hmpp]
        rfl
      · rw [htrace] at htrap
        exact absurd htrap.symm (List.cons_ne_self _ _)
    · obtain ⟨huser, -, hstack⟩ := hexception mcause s s' h
      rw [hstack, hmpp]
      unfold PrivStack.trap State.privStack
      rw [huser]
      rfl
  · -- (d): the shadow table is active in user mode only
    intro s h hmachine
    have hinactive : s.guest.shadowPtActive = false := by
      cases hact : s.guest.shadowPtActive with
      | false => rfl
      | true =>
        rw [(h.inv.core.priv.active hact).1] at hmachine
        cases hmachine
    refine ⟨hinactive, ?_⟩
    rw [h.inv.core.priv.satp_eq]
    unfold activeRoot
    rw [hinactive]
    rfl

/-- A guest that writes machine mode to `MPP` and executes `mret` ends in user mode. -/
theorem mret_ignores_mpp :
    ∃ s s', Reachable sampleLayout s ∧
      guestMret sampleLayout (suspended sampleLayout (sampleReads 500) (s.trapEntry 2 0)) = .ok s' ∧
      s.guest.csr.mstatusMpp = 3 ∧ s'.trace = s.trace ∧ s'.guest.userMode = true := by
  obtain ⟨s, hreach, hs⟩ := exists_reachable sampleTimerKernel
    [⟨sampleTimerRegs 0 0x1800, 0x80000000, 12⟩, ⟨sampleTimerRegs 0 0x1800, 0x80000004, 2⟩]
    (fun s => (s.guest.csr.mstatusMpp, s.trace.length,
      (guestMret sampleLayout
        (suspended sampleLayout (sampleReads 500) (s.trapEntry 2 0))).toOption.map
        (fun s' => (s'.guest.userMode, s'.trace.length))))
    (3, 0, some (true, 0)) (by decide) (by decide +kernel)
  simp only [Prod.mk.injEq] at hs
  obtain ⟨hmpp, hlen, hrun⟩ := hs
  obtain ⟨s', hs', hview⟩ := map_toOption_eq_some.mp hrun
  obtain ⟨huser, hlen'⟩ := Prod.mk.inj hview
  refine ⟨s, s', hreach, hs', hmpp, ?_, huser⟩
  rw [List.length_eq_zero_iff.mp hlen, List.length_eq_zero_iff.mp hlen']

end RiscvHypervisor
