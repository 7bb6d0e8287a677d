import RiscvHypervisor.Proof.Reschedule
import RiscvHypervisor.Proof.VirtualTime

namespace RiscvHypervisor

open ByteMem Except

/-!
# The host's tick

`timer_reschedule` asks for the next interrupt of the host in 200 milliseconds, or at the deadline
of a guest if that is sooner.  "Sooner" is decided by the sign of a difference, while the hardware
compares unsigned numbers, so that a deadline more than half the circle behind the tick replaces it.

* `dispatch_armed` — the deadline that is armed after an exit, from what is known before it;
* `host_tick_iff` — the deadlines which the tick survives, for one exit and for whole runs.
-/

variable {L : Layout} {s s' t : State} {stale : Nat → Nat}

/-! ### The deadline an exit leaves behind -/

/-- The deadline of the guest's timer, if it is armed. -/
def GuestThreadContext.armed (g : GuestThreadContext) : Option Word :=
  if g.timerScheduled = true then some g.timerDeadline else none

/-- The guest's context after a store of `deadline` to its `mtimecmp`. -/
def GuestThreadContext.arm (g : GuestThreadContext) (deadline : Word) : GuestThreadContext :=
  { g with timerDeadline := deadline, timerScheduled := true }

/-- What the guest stores to its `mtimecmp` at an exit, if the exit is such a store.  The faulting
    instruction is decoded, and its address translated, as `handle_page_fault` does once the message
    of an access fault is out. -/
def mtimecmpWrite (L : Layout) (stale : Nat → Nat) (s : State) : Option Word := do
  if s.hart.mcause = 7 ∨ s.hart.mcause = 15 then
    let s := s.print (accessFaultMessage s.hart.mcause)
    let access ← (decodeFault L .w s).toOption
    let (gm, _) ← (faultToGm L stale access.address.toNat s).toOption
    if gm = 0x02004000 ∧ access.width = .w64 then some (readReg s.host.activeRegs access.reg)
    else none
  else none

/-- The deadline that will be armed when the exit has been handled: an interrupt meant for the guest
    disarms its timer, a store arms it anew, and anything else leaves it as it is. -/
def armedAfter (L : Layout) (stale : Nat → Nat) (s : State) : Option Word :=
  if s.hart.mcause = timerCause ∧ 0 ≤ s.interruptTarget.machine then none
  else (mtimecmpWrite L stale s).or s.guest.armed

theorem LoadEffect.guest {access : DecodedAccess} {gm : Nat} (h : LoadEffect access gm s s') :
    s'.guest = s.guest := by
  obtain ⟨d, v, -, -, hs'⟩ := h
  rw [hs']
  rfl

/-- Of the stores, the one to `mtimecmp` arms the timer. -/
theorem StoreEffect.guest {access : DecodedAccess} {gm : Nat} (h : StoreEffect access gm s s') :
    s'.guest = if gm = 0x02004000 then s.guest.arm (readReg s.host.activeRegs access.reg)
      else s.guest := by
  obtain ⟨d, s₁, ⟨rfl, hwidth, hreceive⟩, -, rfl⟩ := h
  rw [State.guest_setMepc]
  cases d with
  | mtimecmp =>
    rw [← hwidth] at hreceive
    cases hreceive
    rw [State.guest_observe, State.guest_setGuest, if_pos (show DeviceRegister.mtimecmp.address =
      0x02004000 from rfl)]
    show s.guest.arm (MemoryAccessWidth.w64.extend false _) = _
    rw [MemoryAccessWidth.extend_w64]
  | mtime => cases hreceive
  | uartLsr => cases hreceive
  | _ =>
    cases hreceive
    exact (if_neg (by decide)).symm

theorem emulateDevice_guest (acc : MempermIndex) (access : DecodedAccess) (gm : Nat) (s : State) :
    (emulateDevice acc access gm s).2.guest =
      if acc = .w ∧ gm = 0x02004000 ∧ access.width = .w64 then
        s.guest.arm (readReg s.host.activeRegs access.reg)
      else s.guest := by
  by_cases hacc : acc = .w
  swap
  · rw [if_neg (fun hc => hacc hc.1)]
    rcases emulateDevice_cases acc access gm s with ⟨s', hdev, ⟨-, hload⟩ | ⟨hw, -⟩⟩ | hdev
    · rw [hdev]
      exact hload.guest
    · exact absurd hw hacc
    · rw [hdev]
  subst hacc
  rcases emulateDevice_store access gm s with ⟨-, s', hdev, hstore⟩ | ⟨-, hnone, hdev⟩
  · rw [hdev, hstore.guest]
    refine if_congr ⟨fun hgm => ⟨rfl, hgm, ?_⟩, fun hc => hc.2.1⟩ rfl rfl
    -- the register at this address is `mtimecmp`, which takes one width
    obtain ⟨d, s₁, ⟨haddr, hwidth, -⟩, -, -⟩ := hstore
    obtain rfl : d = .mtimecmp := DeviceRegister.address_injective (haddr.trans hgm)
    exact hwidth.symm
  · rw [hdev, if_neg]
    rintro ⟨-, hgm, hwidth⟩
    exact hnone .mtimecmp _ ⟨hgm.symm, hwidth.symm, rfl⟩

/-- A page fault leaves the guest's context alone, unless it is a store to `mtimecmp`. -/
theorem handlePageFault_guest {acc : MempermIndex} {result : PageFaultHandlerResult} {va : Word}
    (fault : handlePageFault L stale acc s = .ok (result, va, s')) :
    ∃ access gm t, decodeFault L acc s = .ok access ∧
      faultToGm L stale access.address.toNat s = .ok (gm, t) ∧
      s'.guest = if acc = .w ∧ gm = 0x02004000 ∧ access.width = .w64 then
        s.guest.arm (readReg s.host.activeRegs access.reg)
      else s.guest := by
  obtain ⟨access, gm, st, haccess, rfl, hgm, hcases⟩ := handlePageFault_cases fault
  refine ⟨access, gm, _, haccess, hgm, ?_⟩
  rcases hcases with ⟨-, hdev⟩ | ⟨hhigh, -, rfl⟩ | ⟨hram, result₁, hm, st₂, -, hresult₁, hfinish⟩
  · have hguest := emulateDevice_guest acc access gm { s with store := st }
    rw [hdev] at hguest
    exact hguest
  · rw [if_neg (fun hc => by omega)]
    rfl
  · obtain ⟨st₃, rfl, -⟩ := finishFault_store hresult₁ hfinish
    have hlo := hram.1
    simp only [RAM_START] at hlo
    rw [if_neg (fun hc => by omega)]
    rfl

theorem Checked.armed (h : Checked L t s') : s'.guest.armed = t.guest.armed := by
  rcases h.cases with ⟨rfl, -⟩ | hdel
  · rfl
  · rw [hdel.trapped.guest, State.guest_setGuest]
    rfl

theorem handleIllegalInstruction_armed (h : handleIllegalInstruction L s = .ok s') :
    s'.guest.armed = s.guest.armed := by
  obtain ⟨u, -, hemulated⟩ :=
    emulated_of_handled (show handleGuestException L (fun _ => 0) 2 s = .ok s' from h)
  rcases emulateInstruction_cases hemulated with
    ⟨-, -, st, rfl⟩ | ⟨-, hmret⟩ | ⟨-, rfl⟩ | ⟨-, hcsr⟩ | ⟨-, hcsr⟩
  · rfl
  · obtain ⟨t, hret, hcheck⟩ := guestMret_returned hmret
    obtain ⟨root, active, hguest⟩ := hret.guest
    rw [hcheck.armed, hguest]
    rfl
  · rfl
  · obtain ⟨t, hwritten, hcheck⟩ := emulateCsrrw_written hcsr
    obtain ⟨csr, hguest, -⟩ := hwritten.guest
    rw [hcheck.armed, hguest]
    rfl
  · obtain ⟨t, hwritten, hcheck⟩ := emulateCsrrs_written hcsr
    obtain ⟨csr, hguest, -⟩ := hwritten.guest
    rw [hcheck.armed, hguest]
    rfl

/-- An interrupt meant for the guest disarms its timer. -/
theorem timerOnInterrupt_armed (h : timerOnInterrupt L s = .ok s') :
    s'.guest.armed = if 0 ≤ s.interruptTarget.machine then none else s.guest.armed := by
  unfold timerOnInterrupt at h
  by_cases hneg : s.interruptTarget.machine < 0
  · rw [if_pos hneg] at h
    cases h
    rw [if_neg (Int.not_le.mpr hneg)]
  rw [if_neg hneg] at h
  rw [if_pos (Int.not_lt.mp hneg)]
  split at h
  · cases h
  unfold guestDeferException at h
  rw [State.guest_setGuest] at h
  by_cases hdef : s.guest.deferredException = true
  · rw [if_pos hdef] at h
    cases h
    rw [State.guest_setGuest]
    rfl
  · rw [if_neg hdef] at h
    obtain ⟨⟨b, s₁⟩, hcheck, hret⟩ := bind_eq_ok.mp h
    cases hret
    rw [Checked.armed ⟨b, hcheck⟩, State.guest_setGuest]
    rfl

/-- What `mtimecmpWrite` is for a store whose address has been translated. -/
theorem mtimecmpWrite_eq {access : DecodedAccess} {gm : Nat}
    (hcause : s.hart.mcause = 7 ∨ s.hart.mcause = 15)
    (haccess : decodeFault L .w (s.print (accessFaultMessage s.hart.mcause)) = .ok access)
    (hgm : faultToGm L stale access.address.toNat (s.print (accessFaultMessage s.hart.mcause)) =
      .ok (gm, t)) :
    mtimecmpWrite L stale s = if gm = 0x02004000 ∧ access.width = .w64 then
      some (readReg s.host.activeRegs access.reg) else none := by
  unfold mtimecmpWrite
  rw [if_pos hcause]
  generalize hprinted : s.print (accessFaultMessage s.hart.mcause) = s₁ at haccess hgm ⊢
  have hhost : s₁.host = s.host := by
    rw [← hprinted, State.host_print]
  dsimp only
  rw [haccess]
  show (faultToGm L stale access.address.toNat s₁).toOption.bind _ = _
  rw [hgm]
  show (if gm = 0x02004000 ∧ access.width = .w64 then
    some (readReg s₁.host.activeRegs access.reg) else none) = _
  rw [hhost]

/-- **The armed deadline.**  What is armed when the handlers are done is known before they start. -/
theorem dispatch_armed (handled : dispatch L stale s = .ok s') :
    s'.guest.armed = armedAfter L stale s := by
  have hother : ∀ c : Word, s.hart.mcause = c → c ≠ 7 ∧ c ≠ 15 →
      mtimecmpWrite L stale s = none := by
    intro c hc hne
    rw [← hc] at hne
    exact if_neg (not_or.mpr hne)
  unfold dispatch at handled
  dsimp only at handled
  unfold armedAfter
  by_cases hasync : s.hart.mcause &&& MCAUSE_ASYNC_BIT ≠ 0
  · have hnone : mtimecmpWrite L stale s = none := by
      refine hother _ rfl ⟨?_, ?_⟩
      · intro hc
        exact hasync (by rw [hc]; decide)
      · intro hc
        exact hasync (by rw [hc]; decide)
    rw [if_pos hasync] at handled
    rw [hnone, Option.none_or]
    unfold handleInterrupt at handled
    split at handled
    · rename_i htimer
      rw [timerOnInterrupt_armed handled, eq_timerCause hasync htimer]
      simp only [true_and]
    · rename_i htimer
      cases handled
      rw [if_neg (fun hc => htimer (by rw [hc.1]; decide))]
  rw [if_neg hasync] at handled
  have hsync : s.hart.mcause ≠ timerCause := fun hc => hasync (by rw [hc]; decide)
  rw [if_neg (fun hc => hsync hc.1)]
  split at handled
  · cases handled
  -- the causes of `handle_guest_exception`, in its order
  unfold handleGuestException at handled
  split at handled
  · rename_i hc
    rw [handleIllegalInstruction_armed handled, hother 2 hc (by decide), Option.none_or]
  split at handled
  · rename_i hc
    rw [(trapped_of_guestException handled).2.guest, hother 8 hc (by decide), Option.none_or]
    rfl
  split at handled
  · rename_i hc
    obtain ⟨va, hfault⟩ := handlePageFault_of_handleAccessFault handled
    obtain ⟨access, gm, t, -, -, hguest⟩ := handlePageFault_guest hfault
    rw [hguest, if_neg (fun hw => nomatch hw.1), hother 12 hc (by decide), Option.none_or]
  split at handled
  · rename_i hc
    obtain ⟨va, hfault⟩ := handlePageFault_of_handleAccessFault handled
    obtain ⟨access, gm, t, -, -, hguest⟩ := handlePageFault_guest hfault
    have hnone : mtimecmpWrite L stale s = none := by
      rcases hc with hc | hc
      · exact hother 5 hc (by decide)
      · exact hother 13 hc (by decide)
    rw [hguest, if_neg (fun hw => nomatch hw.1), hnone, Option.none_or, State.guest_print]
  split at handled
  · rename_i hc
    obtain ⟨va, hfault⟩ := handlePageFault_of_handleAccessFault handled
    obtain ⟨access, gm, t, haccess, hgm, hguest⟩ := handlePageFault_guest hfault
    rw [hguest, mtimecmpWrite_eq hc haccess hgm, State.guest_print, State.host_print]
    simp only [true_and]
    split
    · rfl
    · rfl
  · cases handled

/-! ### The comparator -/

/-- The choice between the tick and a deadline. -/
theorem sooner_le_tick_iff {now deadline : Word} {scheduled : Bool} (hnow : now.toNat < 2 ^ 63) :
    (if scheduled = true ∧ timerCompare deadline (now + milliseconds 200) = .lt then deadline
      else now + milliseconds 200) ≤ now + milliseconds 200 ↔
    ¬ (scheduled = true ∧ now.toNat + 20000 + 2 ^ 63 ≤ deadline.toNat) := by
  have htick : (now + milliseconds 200).toNat = now.toNat + 20000 := by
    rw [BitVec.toNat_add]
    show (now.toNat + 20000) % 2 ^ 64 = _
    omega
  have hcmp := timerCompare_lt_iff deadline (now + milliseconds 200)
  have hlt := deadline.isLt
  rw [BitVec.toNat_sub, htick] at hcmp
  by_cases hsch : scheduled = true
  swap
  · rw [if_neg (fun hc => hsch hc.1)]
    exact ⟨fun _ hc => hsch hc.1, fun _ => BitVec.le_refl _⟩
  by_cases hsooner : timerCompare deadline (now + milliseconds 200) = .lt
  · -- a deadline before the tick on the circle is before it, or past the end of the half circle
    have hhalf := hcmp.mp hsooner
    rw [if_pos ⟨hsch, hsooner⟩, BitVec.le_def, htick, hsch, eq_self_iff_true, true_and]
    omega
  · have hhalf := mt hcmp.mpr hsooner
    rw [if_neg (fun hc => hsooner hc.2)]
    refine ⟨fun _ hc => ?_, fun _ => BitVec.le_refl _⟩
    omega

/-- The deadline that will be armed after the exit is, in host time, half the circle or more behind
    the tick at `reschedule + 20000`: the signed comparison takes it for the earlier one, and the
    hardware for the later. -/
def OutlivesTick (L : Layout) (stale : Nat → Nat) (reads : MtimeReads) (s : State) : Prop :=
  ∃ deadline, armedAfter L stale (suspended L reads s) = some deadline ∧
    reads.reschedule.toNat + 20000 + 2 ^ 63 ≤
      (deadline + (s.guest.timerAdjustment + (reads.resume - reads.suspend + 50))).toNat

instance (L : Layout) (stale : Nat → Nat) (reads : MtimeReads) (s : State) :
    Decidable (OutlivesTick L stale reads s) :=
  decidable_of_iff ((armedAfter L stale (suspended L reads s)).any fun deadline =>
      reads.reschedule.toNat + 20000 + 2 ^ 63 ≤
        (deadline + (s.guest.timerAdjustment + (reads.resume - reads.suspend + 50))).toNat)
    (by simp only [Option.any_eq_true, decide_eq_true_eq, OutlivesTick])

theorem GuestThreadContext.armed_eq_some {g : GuestThreadContext} {deadline : Word} :
    g.armed = some deadline ↔ g.timerScheduled = true ∧ g.timerDeadline = deadline := by
  unfold GuestThreadContext.armed
  split
  · rename_i hsch
    rw [Option.some.injEq, hsch, eq_self_iff_true, true_and]
  · rename_i hsch
    constructor
    · intro hc
      cases hc
    · intro hc
      exact absurd hc.1 hsch

/-- **One exit.**  The comparator is set to the tick or before it, unless the armed deadline
    outlives the tick. -/
theorem exception_tick_iff {reads : MtimeReads} (h : Inv L s)
    (handled : exception L stale reads s = .ok s') (hnow : reads.reschedule.toNat < 2 ^ 63) :
    s'.clint.mtimecmp ≤ reads.reschedule + milliseconds 200 ↔ ¬ OutlivesTick L stale reads s := by
  have hinv := h.suspended reads
  have hadj := exception_adjustment handled
  obtain ⟨s₁, hdispatch, hguest, -⟩ := exception_dispatch handled
  have harmed := dispatch_armed hdispatch
  have hcurrent : s₁.host.currentGuest = ⟨0, 0⟩ :=
    ((dispatch_spec hinv.core hinv.settled hinv.target stale).ok hdispatch).1.current
  let t := (timerResumeVirtual (s₁.setMtime reads.resume)).setMtime reads.reschedule
  -- what `timer_reschedule` finds in the slot of the one guest thread
  have hthread : t.guestThreads 0 0 = s'.guest := by
    have hresumed : t.guest = s'.guest := by
      rw [hguest]
      show (timerResumeVirtual (s₁.setMtime reads.resume)).guest = _
      unfold timerResumeVirtual
      rw [State.guest_setGuest]
      rfl
    unfold State.guest at hresumed
    rw [show t.host.currentGuest = ⟨0, 0⟩ from hcurrent] at hresumed
    exact hresumed
  have hcmp : s'.clint.mtimecmp = (timerReschedule MAX_GUESTS MAX_VIRT_HARTS t).clint.mtimecmp := by
    unfold exception at handled
    obtain ⟨s₂, hs₂, hret⟩ := bind_eq_ok.mp handled
    rw [show dispatch L stale (suspended L reads s) = .ok s₂ from hs₂] at hdispatch
    cases hdispatch
    cases hret
    rfl
  have houtlives : OutlivesTick L stale reads s ↔ s'.guest.timerScheduled = true ∧
      reads.reschedule.toNat + 20000 + 2 ^ 63 ≤
        (s'.guest.timerDeadline + s'.guest.timerAdjustment).toNat := by
    unfold OutlivesTick
    rw [← harmed, hadj, hguest]
    simp only [GuestThreadContext.armed_eq_some]
    constructor
    · rintro ⟨deadline, ⟨hsch, rfl⟩, hlate⟩
      exact ⟨hsch, hlate⟩
    · rintro ⟨hsch, hlate⟩
      exact ⟨_, ⟨hsch, rfl⟩, hlate⟩
  rw [houtlives, hcmp, timerReschedule_eq, rescheduleThread_mtimecmp]
  show (if (t.guestThreads 0 0).timerScheduled = true ∧
      timerCompare ((t.guestThreads 0 0).timerDeadline + (t.guestThreads 0 0).timerAdjustment)
        (reads.reschedule + milliseconds 200) = .lt
    then (t.guestThreads 0 0).timerDeadline + (t.guestThreads 0 0).timerAdjustment
    else reads.reschedule + milliseconds 200) ≤ _ ↔ _
  rw [hthread]
  exact sooner_le_tick_iff hnow

/-! ### Runs -/

/-- A run of the system that has reached `s` and in which no deadline ever outlives the tick.  The
    flag says that there has been an exit: at boot the comparator is not set. -/
inductive TickRun (L : Layout) : State → Bool → Prop where
  | boot {s : State} (on : PowerOn L s) : TickRun L (bootMain L s) false
  | between {s s' : State} {ev : GuestEvent} {exited : Bool} (before : TickRun L s exited)
      (step : Step L s ev s')
      (inside : ∀ mcause mtval reads stale, ev ≠ .trap mcause mtval reads stale) :
      TickRun L s' exited
  | trap {s s' : State} {mcause mtval : Word} {reads : MtimeReads} {stale : Nat → Nat}
      {exited : Bool} (before : TickRun L s exited) (clock : reads.Monotone s.clint.mtime)
      (handled : exception L stale reads (s.trapEntry mcause mtval) = .ok s')
      (host : reads.reschedule.toNat < 2 ^ 63)
      (tick : ¬ OutlivesTick L stale reads (s.trapEntry mcause mtval)) : TickRun L s' true

theorem TickRun.reachable {exited : Bool} (h : TickRun L s exited) : Reachable L s := by
  induction h with
  | boot on => exact .boot on
  | between before step inside ih => exact ih.step step
  | trap before clock handled host tick ih => exact ih.step (.trap clock handled)

/-- In such a run the comparator never falls behind the tick. -/
theorem TickRun.le_tick {exited : Bool} (h : TickRun L s exited) (hexited : exited = true) :
    s.clint.mtimecmp ≤ s.clint.mtime + milliseconds 200 := by
  induction h with
  | boot on => cases hexited
  | between before step inside ih =>
    rcases step.between_or_trap before.reachable.inv with ⟨-, -, hclint⟩ | ⟨_, _, _, _, hev, -⟩
    · rw [hclint]
      exact ih hexited
    · exact absurd hev (inside _ _ _ _)
  | @trap s s' mcause mtval reads stale exited before clock handled host tick ih =>
    rw [exception_mtime handled]
    exact (exception_tick_iff (before.reachable.inv.trapEntry mcause mtval) handled host).mpr tick

/-- **The host's tick.**
    (a) In every reachable state, an exit that is handled leaves the comparator at most 200
    milliseconds after the time read by `timer_reschedule` if and only if the deadline that will be
    armed after it does not outlive the tick.
    (b) In every run in which no deadline outlives the tick, the comparator is at most 200
    milliseconds after the host's time in every state from the first exit on. -/
theorem host_tick_iff (L : Layout) :
    (∀ s, Reachable L s → ∀ mcause mtval stale reads s',
      exception L stale reads (s.trapEntry mcause mtval) = .ok s' →
      reads.reschedule.toNat < 2 ^ 63 →
      (s'.clint.mtimecmp ≤ reads.reschedule + milliseconds 200 ↔
        ¬ OutlivesTick L stale reads (s.trapEntry mcause mtval))) ∧
    (∀ s, TickRun L s true → s.clint.mtimecmp ≤ s.clint.mtime + milliseconds 200) := by
  refine ⟨?_, fun s h => h.le_tick rfl⟩
  intro s h mcause mtval stale reads s' handled hnow
  exact exception_tick_iff (h.inv.trapEntry mcause mtval) handled hnow

/-- The exit by which the sample kernel arms its timer. -/
def sampleArm (deadline : Word) (s : State) : State :=
  (s.guestRun (sampleTimerRegs deadline 0) 0x80000000).trapEntry 15 0

/-- A deadline of 20 ticks. -/
theorem host_tick_small :
    ∃ s s', Reachable sampleLayout s ∧
      exception sampleLayout (fun _ => 0) (sampleReads 100) (s.trapEntry 15 0) = .ok s' ∧
      armedAfter sampleLayout (fun _ => 0)
        (suspended sampleLayout (sampleReads 100) (s.trapEntry 15 0)) = some 20 ∧
      s'.clint.mtimecmp ≤ (sampleReads 100).reschedule + milliseconds 200 := by
  obtain ⟨s, hreach, hs⟩ := exists_reachable sampleTimerKernel
    [⟨sampleTimerRegs 20 0, 0x80000000, 12⟩]
    (fun s => (exception sampleLayout (fun _ => 0) (sampleReads 100) (sampleArm 20 s)).toOption.map
      (fun _ =>
        (decide (OutlivesTick sampleLayout (fun _ => 0) (sampleReads 100) (sampleArm 20 s)),
          armedAfter sampleLayout (fun _ => 0)
            (suspended sampleLayout (sampleReads 100) (sampleArm 20 s)))))
    (some (false, some 20)) (by decide) (by decide +kernel)
  obtain ⟨s', hs', hview⟩ := map_toOption_eq_some.mp hs
  obtain ⟨htick, harmed⟩ := Prod.mk.inj hview
  have hrun := hreach.step (.run (sampleTimerRegs 20 0) 0x80000000)
  refine ⟨_, s', hrun, hs', harmed, ?_⟩
  exact ((host_tick_iff sampleLayout).1 _ hrun _ _ _ _ _ hs' (by decide)).mpr
    (of_decide_eq_false htick)

/-- A deadline of `2 ^ 64 - 105` leaves the comparator at its largest value: there will be no
    tick. -/
theorem host_tick_switched_off :
    ∃ s s', Reachable sampleLayout s ∧
      exception sampleLayout (fun _ => 0) (sampleReads 100) (s.trapEntry 15 0) = .ok s' ∧
      s'.trace = [.mtimecmpStore (BitVec.ofNat 64 (2 ^ 64 - 105))] ∧
      s'.clint.mtimecmp = BitVec.allOnes 64 ∧ (sampleReads 100).reschedule.toNat < 2 ^ 63 ∧
      ¬ s'.clint.mtimecmp ≤ (sampleReads 100).reschedule + milliseconds 200 := by
  obtain ⟨s, hreach, hs⟩ := exists_reachable sampleTimerKernel
    [⟨sampleTimerRegs 0 0, 0x80000000, 12⟩]
    (fun s => (exception sampleLayout (fun _ => 0) (sampleReads 100)
      (sampleArm (BitVec.ofNat 64 (2 ^ 64 - 105)) s)).toOption.map
        (fun s' => (s'.trace, s'.clint.mtimecmp)))
    (some ([.mtimecmpStore (BitVec.ofNat 64 (2 ^ 64 - 105))], BitVec.allOnes 64)) (by decide)
    (by decide +kernel)
  obtain ⟨s', hs', hview⟩ := map_toOption_eq_some.mp hs
  obtain ⟨htrace, hcmp⟩ := Prod.mk.inj hview
  refine ⟨_, s', hreach.step (.run (sampleTimerRegs _ 0) 0x80000000), hs', htrace,
    hcmp, by decide, ?_⟩
  rw [hcmp]
  decide

end RiscvHypervisor
