import RiscvHypervisor.Proof.Invariant

namespace RiscvHypervisor

open Except

/-!
# What a trap does to the guest's context

The handlers change the guest's context in few ways.  `Effect` lists them, `dispatch_effect` says
that there are no others, and `exception_dispatch` adds the clock around the dispatch.  What holds
over whole runs about modes, traps and the timer is proved by going through this list instead of
the handlers.

The list is read off the code.  Only the step lemma at the end needs the invariant, to know that
the handler returns.
-/

variable {L : Layout} {s s' t : State}

/-! ### Delivery -/

/-- What a successful call of `guest_exception` has done. -/
theorem trapped_of_guestException {mcause : Word} (h : guestException L mcause t = .ok s') :
    t.guest.userMode = true ∧ Trapped L mcause t s' := by
  by_cases hu : t.guest.userMode = true
  · obtain ⟨s₁, hs₁, ht⟩ := guestException_spec (L := L) mcause hu
    rw [hs₁] at h
    cases h
    exact ⟨hu, ht⟩
  · unfold guestException at h
    rw [if_pos (by simpa using hu)] at h
    cases h

/-- `guest_check_deferred`, called in `t`, returned in `s'`. -/
def Checked (L : Layout) (t s' : State) : Prop := ∃ b, guestCheckDeferred L t = .ok (b, s')

/-- The pending exception of `t` was delivered. -/
structure Delivered (L : Layout) (t s' : State) : Prop where
  pending : t.guest.deferredException = true
  mie : t.guest.csr.mstatusMie = true
  mdt : t.guest.csr.mstatusMdt = false
  user : t.guest.userMode = true
  trapped : Trapped L t.guest.deferredMcause
    (t.setGuest { t.guest with deferredException := false }) s'

/-- `guest_check_deferred` delivers what can be delivered and does nothing else. -/
theorem Checked.cases (h : Checked L t s') : s' = t ∧ Settled t.guest ∨ Delivered L t s' := by
  obtain ⟨b, h⟩ := h
  unfold guestCheckDeferred at h
  by_cases hoff : (!t.guest.csr.mstatusMie || t.guest.csr.mstatusMdt) = true
  · rw [if_pos hoff] at h
    cases h
    refine Or.inl ⟨rfl, ?_⟩
    intro hc
    rw [hc.2.1, hc.2.2] at hoff
    cases hoff
  · rw [if_neg hoff] at h
    simp only [Bool.not_eq_true, Bool.or_eq_false_iff, Bool.not_eq_false'] at hoff
    by_cases hdef : t.guest.deferredException = true
    · rw [if_pos hdef] at h
      obtain ⟨s₁, hs₁, hret⟩ := bind_eq_ok.mp h
      cases hret
      obtain ⟨huser, htrap⟩ := trapped_of_guestException hs₁
      rw [State.guest_setGuest] at huser htrap
      exact Or.inr ⟨hdef, hoff.1, hoff.2, huser, htrap⟩
    · rw [if_neg hdef] at h
      cases h
      exact Or.inl ⟨rfl, fun hc => hdef hc.1⟩

/-! ### Registers -/

/-- Writing `rd` leaves the guest's context alone, -/
theorem guest_writeReg {s : State} {rd : Nat} {v : Word} :
    (if rd ≠ 0 then s.setReg (rd - 1) v else s).guest = s.guest := by
  split <;> rfl

/-- the memory, -/
theorem store_writeReg {s : State} {rd : Nat} {v : Word} :
    (if rd ≠ 0 then s.setReg (rd - 1) v else s).store = s.store := by
  split <;> rfl

/-- the trace -/
theorem trace_writeReg {s : State} {rd : Nat} {v : Word} :
    (if rd ≠ 0 then s.setReg (rd - 1) v else s).trace = s.trace := by
  split <;> rfl

/-- and the CSRs of the hart. -/
theorem hart_writeReg {s : State} {rd : Nat} {v : Word} :
    (if rd ≠ 0 then s.setReg (rd - 1) v else s).hart = s.hart := by
  split <;> rfl

/-! ### The emulated instructions -/

/-- `mret`. -/
def mretInstruction : UnpackedInstruction := ⟨0x73, 0, 0, 0, 2, 24⟩

/-- `wfi`. -/
def wfiInstruction : UnpackedInstruction := ⟨0x73, 0, 0, 0, 5, 8⟩

/-- What a `csrrw` that was emulated has read, written and checked. -/
theorem emulateCsrrw_ok {guestAddr : Word} {u : UnpackedInstruction}
    (h : emulateCsrrw L guestAddr u s = .ok s') :
    let csrId := (u.funct7 <<< 5) ||| u.rs2
    ∃ old csr, (if u.rd ≠ 0 then getVirtualCsr csrId s.guest.csr else .ok 0) = .ok old ∧
      setVirtualCsr csrId (readReg s.host.activeRegs u.rs1) s.guest.csr = .ok csr ∧
      let s₁ := s.setGuest { s.guest with csr := csr }
      Checked L ((if u.rd ≠ 0 then s₁.setReg (u.rd - 1) old else s₁).setMepc (guestAddr + 4))
        s' := by
  unfold emulateCsrrw at h
  obtain ⟨old, hold, h⟩ := bind_eq_ok.mp h
  obtain ⟨csr, hcsr, h⟩ := bind_eq_ok.mp h
  obtain ⟨⟨b, s₂⟩, hcheck, hret⟩ := bind_eq_ok.mp h
  cases hret
  exact ⟨old, csr, hold, hcsr, b, hcheck⟩

/-- And a `csrrs`. -/
theorem emulateCsrrs_ok {guestAddr : Word} {u : UnpackedInstruction}
    (h : emulateCsrrs L guestAddr u s = .ok s') :
    let csrId := (u.funct7 <<< 5) ||| u.rs2
    ∃ value csr, getVirtualCsr csrId s.guest.csr = .ok value ∧
      let s₁ := if u.rd ≠ 0 then s.setReg (u.rd - 1) value else s
      (if u.rs1 ≠ 0 then
          setVirtualCsr csrId (value ||| s₁.host.activeRegs (u.rs1 - 1)) s₁.guest.csr
        else .ok s₁.guest.csr) = .ok csr ∧
      Checked L ((s₁.setGuest { s₁.guest with csr := csr }).setMepc (guestAddr + 4)) s' := by
  unfold emulateCsrrs at h
  obtain ⟨value, hvalue, h⟩ := bind_eq_ok.mp h
  obtain ⟨csr, hcsr, h⟩ := bind_eq_ok.mp h
  obtain ⟨⟨b, s₂⟩, hcheck, hret⟩ := bind_eq_ok.mp h
  cases hret
  exact ⟨value, csr, hvalue, hcsr, b, hcheck⟩

/-- An instruction that accesses a CSR, or none, has been emulated up to the check for deferred
    exceptions: the state is `t`. -/
structure CsrWritten (guestAddr : Word) (s t : State) : Prop where
  guest : ∃ csr, t.guest = { s.guest with csr := csr } ∧
    (csr = s.guest.csr ∨ ∃ csrId value, setVirtualCsr csrId value s.guest.csr = .ok csr)
  hart : t.hart = s.hart.writeMepc (guestAddr + 4)
  trace : t.trace = s.trace

/-- `csrrw` writes one CSR and looks for a deferred exception. -/
theorem emulateCsrrw_written {guestAddr : Word} {u : UnpackedInstruction}
    (h : emulateCsrrw L guestAddr u s = .ok s') :
    ∃ t, CsrWritten guestAddr s t ∧ Checked L t s' := by
  obtain ⟨old, csr, hold, hcsr, b, hcheck⟩ := emulateCsrrw_ok h
  refine ⟨_, ⟨⟨csr, ?_, Or.inr ⟨_, _, hcsr⟩⟩, ?_, ?_⟩, b, hcheck⟩
  · rw [State.guest_setMepc, guest_writeReg, State.guest_setGuest]
  · rw [State.hart_setMepc, hart_writeReg, State.hart_setGuest]
  · rw [State.trace_setMepc, trace_writeReg, State.trace_setGuest]

/-- `csrrs` does the same, and writes nothing when `rs1` is `x0`. -/
theorem emulateCsrrs_written {guestAddr : Word} {u : UnpackedInstruction}
    (h : emulateCsrrs L guestAddr u s = .ok s') :
    ∃ t, CsrWritten guestAddr s t ∧ Checked L t s' := by
  obtain ⟨value, csr, hvalue, hcsr, b, hcheck⟩ := emulateCsrrs_ok h
  rw [guest_writeReg] at hcsr
  refine ⟨_, ⟨⟨csr, ?_, ?_⟩, ?_, ?_⟩, b, hcheck⟩
  · rw [State.guest_setMepc, State.guest_setGuest, guest_writeReg]
  · by_cases hrs1 : u.rs1 ≠ 0
    · rw [if_pos hrs1] at hcsr
      exact Or.inr ⟨_, _, hcsr⟩
    · rw [if_neg hrs1] at hcsr
      cases hcsr
      exact Or.inl rfl
  · rw [State.hart_setMepc, State.hart_setGuest, hart_writeReg]
  · rw [State.trace_setMepc, State.trace_setGuest, trace_writeReg]

/-- The switch to the guest's translation changes its tables only. -/
theorem mretTranslation_cases (h : mretTranslation L s = .ok t) :
    (∃ root active, t.guest = { s.guest with
      shadowPageTable := root, shadowPtActive := active }) ∧
    t.hart.mepc = s.hart.mepc ∧ t.trace = s.trace := by
  unfold mretTranslation at h
  dsimp only at h
  split at h
  · cases h
    exact ⟨⟨s.guest.shadowPageTable, s.guest.shadowPtActive, rfl⟩, rfl, rfl⟩
  split at h
  · cases h
    rw [State.guest_setGuest]
    by_cases hroot : s.guest.shadowPageTable = 0
    · rw [if_pos hroot]
      refine ⟨⟨(allocatePagepable L s.store).1, true, ?_⟩, rfl, rfl⟩
      rw [State.guest_vmemFence, State.guest_setSatp, State.guest_setGuest]
      rfl
    · rw [if_neg hroot]
      refine ⟨⟨s.guest.shadowPageTable, true, ?_⟩, rfl, rfl⟩
      rw [State.guest_vmemFence, State.guest_setSatp, State.guest_setGuest]
  · cases h

/-- The guest has returned to user mode, up to the check for deferred exceptions. -/
structure Returned (s t : State) : Prop where
  machine : s.guest.userMode = false
  guest : ∃ root active, t.guest = { s.guest with
    userMode := true
    shadowPageTable := root
    shadowPtActive := active
    csr := { s.guest.csr with mstatusMdt := false } }
  mepc : t.hart.mepc = legalMepc s.guest.csr.mepc
  trace : t.trace = s.trace

/-- `mret` enters user mode first. -/
theorem guestMret_returned (h : guestMret L s = .ok s') : ∃ t, Returned s t ∧ Checked L t s' := by
  unfold guestMret at h
  by_cases hu : s.guest.userMode = true
  · rw [if_pos hu] at h
    cases h
  rw [if_neg hu] at h
  obtain ⟨t, ht, h⟩ := bind_eq_ok.mp h
  obtain ⟨⟨b, s₂⟩, hcheck, hret⟩ := bind_eq_ok.mp h
  cases hret
  obtain ⟨⟨root, active, hguest⟩, hmepc, htrace⟩ := mretTranslation_cases ht
  simp only [State.guest_setGuest, State.guest_setMepc] at hguest hmepc
  exact ⟨t, ⟨eq_false_of_ne_true hu, ⟨root, active, hguest⟩, hmepc, htrace⟩, b, hcheck⟩

/-- **Instructions.**  What an emulated instruction is, and does. -/
theorem emulateInstruction_cases {guestAddr : Word} {u : UnpackedInstruction}
    (h : emulateInstruction L guestAddr u s = .ok s') :
    (u.funct3 = 0 ∧ u.funct7 = 9 ∧
      ∃ st, s' = ({ s with store := st } : State).setMepc (guestAddr + 4)) ∨
    (u = mretInstruction ∧ guestMret L s = .ok s') ∨
    (u = wfiInstruction ∧ s' = s) ∨
    (u.funct3 = 1 ∧ emulateCsrrw L guestAddr u s = .ok s') ∨
    (u.funct3 = 2 ∧ emulateCsrrs L guestAddr u s = .ok s') := by
  obtain ⟨opcode, rd, funct3, rs1, rs2, funct7⟩ := u
  unfold emulateInstruction at h
  dsimp only at h ⊢
  by_cases hop : opcode = 0x73
  swap
  · rw [if_pos hop] at h
    cases h
  rw [if_neg (not_not_intro hop)] at h
  split at h
  · -- `funct3 = 0`: the fence, `mret` and `wfi`, told apart by `funct7` and the registers
    by_cases hecall : funct7 = 0
    · rw [if_pos hecall] at h
      cases h
    rw [if_neg hecall] at h
    by_cases hfence : funct7 = 9 ∧ rd = 0
    · rw [if_pos hfence] at h
      obtain ⟨s₁, hflush, hret⟩ := bind_eq_ok.mp h
      cases hret
      left
      refine ⟨rfl, hfence.1, ?_⟩
      -- without a shadow table there is nothing to flush
      unfold flushShadowPagetable at hflush
      by_cases hroot : s.guest.shadowPageTable = 0
      · rw [if_pos hroot] at hflush
        cases hflush
        exact ⟨s.store, rfl⟩
      · rw [if_neg hroot] at hflush
        obtain ⟨st, -, hst⟩ := bind_eq_ok.mp hflush
        cases hst
        exact ⟨st.vmemFence, rfl⟩
    rw [if_neg hfence] at h
    by_cases hmret : funct7 = 24 ∧ rs2 = 2 ∧ rs1 = 0 ∧ rd = 0
    · rw [if_pos hmret] at h
      obtain ⟨rfl, rfl, rfl, rfl⟩ := hmret
      exact Or.inr (Or.inl ⟨by rw [hop]; rfl, h⟩)
    rw [if_neg hmret] at h
    by_cases hwfi : funct7 = 8 ∧ rs2 = 5 ∧ rs1 = 0 ∧ rd = 0
    · rw [if_pos hwfi] at h
      obtain ⟨rfl, rfl, rfl, rfl⟩ := hwfi
      cases h
      exact Or.inr (Or.inr (Or.inl ⟨by rw [hop]; rfl, rfl⟩))
    · rw [if_neg hwfi] at h
      cases h
  · exact Or.inr (Or.inr (Or.inr (Or.inl ⟨rfl, h⟩)))
  · exact Or.inr (Or.inr (Or.inr (Or.inr ⟨rfl, h⟩)))
  · cases h

/-! ### Page faults -/

/-- A page fault changes the store, or is an access to a device. -/
theorem handlePageFault_device {stale : Nat → Nat} {acc : MempermIndex}
    {result : PageFaultHandlerResult} {va : Word}
    (h : handlePageFault L stale acc s = .ok (result, va, s')) :
    ∃ st, s' = { s with store := st } ∨ DeviceAccess { s with store := st } s' := by
  obtain ⟨access, gm, st, -, -, -, hcases⟩ := handlePageFault_cases h
  rcases hcases with ⟨-, hdev⟩ | ⟨-, -, rfl⟩ | ⟨-, result₁, hm, st₂, -, hresult₁, hfinish⟩
  · have hspec := emulateDevice_spec acc access gm { s with store := st }
    rw [hdev] at hspec
    exact ⟨st, Or.inr hspec⟩
  · exact ⟨st, Or.inl rfl⟩
  · obtain ⟨st₃, rfl, -⟩ := finishFault_store hresult₁ hfinish
    exact ⟨st₃, Or.inl rfl⟩

/-! ### Traps -/

/-- The ways in which a trap changes the guest's context and what the guest observes. -/
inductive Effect (L : Layout) (s s' : State) : Prop where
  /-- Nothing changes: page faults, most device accesses, `sfence.vma`, `wfi`, other interrupts. -/
  | quiet (guest : s'.guest = s.guest) (trace : s'.trace = s.trace)
  /-- The guest stores to its `mtimecmp`. -/
  | mtimecmpStore (deadline : Word)
      (guest : s'.guest = { s.guest with timerDeadline := deadline, timerScheduled := true })
      (trace : s'.trace = .mtimecmpStore deadline :: s.trace)
  /-- `csrrw` and `csrrs`. -/
  | csr (t : State) (written : CsrWritten s.hart.mepc s t) (checked : Checked L t s')
  /-- `mret`. -/
  | mret (t : State) (returned : Returned s t) (checked : Checked L t s')
  /-- `ecall`, from user mode. -/
  | ecall (user : s.guest.userMode = true) (trapped : Trapped L 8 s s')
  /-- A timer interrupt meant for the guest, while an exception is pending already. -/
  | timerLost (cause : s.hart.mcause = timerCause) (target : 0 ≤ s.interruptTarget.machine)
      (pending : s.guest.deferredException = true)
      (guest : s'.guest = { s.guest with timerScheduled := false }) (trace : s'.trace = s.trace)
  /-- A timer interrupt meant for the guest becomes its pending exception. -/
  | timer (t : State) (cause : s.hart.mcause = timerCause)
      (target : 0 ≤ s.interruptTarget.machine)
      (free : s.guest.deferredException = false)
      (guest : t.guest = { s.guest with
        timerScheduled := false, deferredException := true, deferredMcause := timerCause })
      (trace : t.trace = s.trace) (checked : Checked L t s')

/-- A page fault that is handled has been reported as a success. -/
theorem handlePageFault_of_handleAccessFault {stale : Nat → Nat} {acc : MempermIndex}
    (h : handleAccessFault L stale acc s = .ok s') :
    ∃ va, handlePageFault L stale acc s = .ok (.success, va, s') := by
  unfold handleAccessFault at h
  obtain ⟨⟨result, va, s₁⟩, hfault, h⟩ := bind_eq_ok.mp h
  cases result with
  | success =>
    cases h
    exact ⟨va, hfault⟩
  | notChanged => cases h
  | tooLow => cases h
  | tooHigh => cases h

/-- The handler may have printed before, in `t`. -/
theorem handleAccessFault_effect {stale : Nat → Nat} {acc : MempermIndex}
    (h : handleAccessFault L stale acc t = .ok s') (htguest : t.guest = s.guest)
    (httrace : t.trace = s.trace) : Effect L s s' := by
  obtain ⟨va, hfault⟩ := handlePageFault_of_handleAccessFault h
  obtain ⟨st, hst | hdev⟩ := handlePageFault_device hfault
  · rw [hst]
    exact .quiet htguest httrace
  · rcases hdev.effect with ⟨hguest, htrace⟩ | ⟨v, hguest, htrace⟩
    · exact .quiet (hguest.trans htguest) (htrace.trans httrace)
    · refine .mtimecmpStore v ?_ ?_
      · rw [← htguest]
        exact hguest
      · rw [← httrace]
        exact htrace

/-- So an illegal instruction has one of these effects, -/
theorem handleIllegalInstruction_effect (h : handleIllegalInstruction L s = .ok s') :
    Effect L s s' := by
  unfold handleIllegalInstruction at h
  dsimp only at h
  split at h
  · cases h
  obtain ⟨host, -, h⟩ := bind_eq_ok.mp h
  rcases emulateInstruction_cases h with
    ⟨-, -, st, rfl⟩ | ⟨-, hmret⟩ | ⟨-, rfl⟩ | ⟨-, hcsr⟩ | ⟨-, hcsr⟩
  · exact .quiet rfl rfl
  · obtain ⟨t, hret, hcheck⟩ := guestMret_returned hmret
    exact .mret t hret hcheck
  · exact .quiet rfl rfl
  · obtain ⟨t, hwritten, hcheck⟩ := emulateCsrrw_written hcsr
    exact .csr t hwritten hcheck
  · obtain ⟨t, hwritten, hcheck⟩ := emulateCsrrs_written hcsr
    exact .csr t hwritten hcheck

/-- and a timer interrupt may defer its exception. -/
theorem timerOnInterrupt_effect (hcause : s.hart.mcause = timerCause)
    (h : timerOnInterrupt L s = .ok s') : Effect L s s' := by
  unfold timerOnInterrupt at h
  by_cases hneg : s.interruptTarget.machine < 0
  · rw [if_pos hneg] at h
    cases h
    exact .quiet rfl rfl
  rw [if_neg hneg] at h
  have htgt := Int.not_lt.mp hneg
  split at h
  · cases h
  unfold guestDeferException at h
  rw [State.guest_setGuest] at h
  by_cases hdef : s.guest.deferredException = true
  · rw [if_pos hdef] at h
    cases h
    exact .timerLost hcause htgt hdef (State.guest_setGuest _ _) rfl
  · rw [if_neg hdef] at h
    obtain ⟨⟨b, s₁⟩, hcheck, hret⟩ := bind_eq_ok.mp h
    cases hret
    refine .timer _ hcause htgt (eq_false_of_ne_true hdef) ?_ ?_ ⟨b, hcheck⟩
    · rw [State.guest_setGuest]
    · rfl

/-- The one cause that is taken for a timer interrupt. -/
theorem eq_timerCause {mcause : Word} (hasync : mcause &&& MCAUSE_ASYNC_BIT ≠ 0)
    (htimer : mcause &&& ~~~MCAUSE_ASYNC_BIT = MCAUSE_ASYNC_TIMER) : mcause = timerCause := by
  have hsplit : mcause = mcause &&& MCAUSE_ASYNC_BIT ||| mcause &&& ~~~MCAUSE_ASYNC_BIT := by
    rw [← BitVec.and_or_distrib_left, BitVec.or_not_self, BitVec.and_allOnes]
  have hbit : mcause &&& MCAUSE_ASYNC_BIT = MCAUSE_ASYNC_BIT := by
    have hpow : MCAUSE_ASYNC_BIT = BitVec.twoPow 64 63 := rfl
    rw [hpow, BitVec.and_twoPow] at hasync ⊢
    split at hasync
    · rename_i hset
      rw [if_pos hset]
    · exact absurd rfl hasync
  rw [hsplit, hbit, htimer]
  rfl

/-- **Traps.**  Whatever a trap is about, its effect is one of the list. -/
theorem dispatch_effect {stale : Nat → Nat} (h : dispatch L stale s = .ok s') : Effect L s s' := by
  unfold dispatch at h
  dsimp only at h
  split at h
  · rename_i hasync
    unfold handleInterrupt at h
    split at h
    · rename_i htimer
      exact timerOnInterrupt_effect (eq_timerCause hasync htimer) h
    · cases h
      exact .quiet rfl rfl
  split at h
  · cases h
  unfold handleGuestException at h
  split at h
  · exact handleIllegalInstruction_effect h
  split at h
  · rename_i hecall
    rw [hecall] at h
    obtain ⟨huser, htrap⟩ := trapped_of_guestException h
    exact .ecall huser htrap
  split at h
  · exact handleAccessFault_effect h rfl rfl
  split at h
  · exact handleAccessFault_effect h rfl rfl
  split at h
  · exact handleAccessFault_effect h rfl rfl
  · cases h

/-! ### The clock around the dispatch -/

/-- The context of a guest thread after its clock has been restarted at `now`. -/
def GuestThreadContext.resumed (g : GuestThreadContext) (now : Word) : GuestThreadContext :=
  { g with timerAdjustment := g.timerAdjustment + (now - g.timerSuspendedAt + 50) }

/-- Rescheduling is not seen by the guest. -/
theorem timerReschedule_frame (s : State) :
    (timerReschedule MAX_GUESTS MAX_VIRT_HARTS s).guest = s.guest ∧
      (timerReschedule MAX_GUESTS MAX_VIRT_HARTS s).trace = s.trace ∧
      (timerReschedule MAX_GUESTS MAX_VIRT_HARTS s).hart.mepc = s.hart.mepc ∧
      (timerReschedule MAX_GUESTS MAX_VIRT_HARTS s).hart.satp = s.hart.satp := by
  rw [timerReschedule_eq]
  rcases rescheduleThread_cases (timerInterruptAt (s.clint.mtime + milliseconds 200)
    { s with interruptTarget := ⟨-1, -1⟩ }) 0 0 with heq | ⟨-, heq⟩
  · rw [heq]
    exact ⟨rfl, rfl, rfl, rfl⟩
  · rw [heq]
    exact ⟨rfl, rfl, rfl, rfl⟩

/-- **Exceptions.**  A handled exception is a dispatch in the state `suspended`, after which the
    clock is restarted. -/
theorem exception_dispatch {stale : Nat → Nat} {reads : MtimeReads}
    (h : exception L stale reads s = .ok s') :
    ∃ s₁, dispatch L stale (suspended L reads s) = .ok s₁ ∧
      s'.guest = s₁.guest.resumed reads.resume ∧ s'.trace = s₁.trace ∧
      s'.hart.mepc = s₁.hart.mepc ∧ s'.hart.satp = s₁.hart.satp := by
  unfold exception at h
  obtain ⟨s₁, hs₁, h⟩ := bind_eq_ok.mp h
  cases h
  obtain ⟨hguest, htrace, hmepc, hsatp⟩ := timerReschedule_frame
    ((timerResumeVirtual (s₁.setMtime reads.resume)).setMtime reads.reschedule)
  refine ⟨s₁, hs₁, ?_, htrace, hmepc, hsatp⟩
  show (timerReschedule MAX_GUESTS MAX_VIRT_HARTS _).guest = _
  rw [hguest, State.guest_setMtime]
  unfold timerResumeVirtual
  rw [State.guest_setGuest]
  rfl

/-- A step of the system is a trap, or leaves the guest's context, its observations and the clock
    alone. -/
theorem Step.between_or_trap {ev : GuestEvent} (h : Inv L s) (hstep : Step L s ev s') :
    (s'.guest = s.guest ∧ s'.trace = s.trace ∧ s'.clint = s.clint) ∨
      ∃ mcause mtval reads stale, ev = .trap mcause mtval reads stale ∧
        reads.Monotone s.clint.mtime ∧
        exception L stale reads (s.trapEntry mcause mtval) = .ok s' := by
  cases hstep with
  | run regs pc => exact Or.inl ⟨rfl, rfl, rfl⟩
  | store value access guest => exact Or.inl ⟨rfl, rfl, rfl⟩
  | corrupt after access image =>
    -- the installed table does not let the guest write there
    exact absurd (h.core.guestAccess_ge access) (Nat.not_le.mpr image)
  | mmu dirty leaf => exact Or.inl ⟨rfl, rfl, rfl⟩
  | receive byte => exact Or.inl ⟨rfl, rfl, rfl⟩
  | trap clock handled => exact Or.inr ⟨_, _, _, _, rfl, clock, handled⟩

end RiscvHypervisor
