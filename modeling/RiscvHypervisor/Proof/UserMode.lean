import RiscvHypervisor.Proof.Effects
import RiscvHypervisor.Proof.Shadow

namespace RiscvHypervisor

open ByteMem Except

/-!
# Illegal instructions in user mode

Both modes of the guest run in the host's user mode, so that a privileged instruction of the guest
traps in either.  `guest_mret` looks at the guest's mode; the emulation of `csrrw`, `csrrs` and
`sfence.vma` does not.  An illegal-instruction exit from user mode therefore leaves the guest
kernel's state alone exactly when the instruction happens to change nothing
(`user_mode_protected_iff`).
-/

variable {L : Layout} {s s' t : State}

/-- The guest kernel's state is the same, and no register was written. -/
structure Untouched (s t : State) : Prop where
  csr : t.guest.csr = s.guest.csr
  regs : t.host.activeRegs = s.host.activeRegs
  root : t.guest.shadowPageTable = s.guest.shadowPageTable
  leaves : ∀ p, p < 2 ^ 27 →
    shadowPte t.store s.guest.shadowPageTable p = shadowPte s.store s.guest.shadowPageTable p

theorem Untouched.refl (s : State) : Untouched s s := ⟨rfl, rfl, rfl, fun _ _ => rfl⟩

/-- **Protection.**  What an exit from user mode may do to the guest kernel's state: nothing, or
    enter its trap handler. -/
def UserProtected (L : Layout) (s s' : State) : Prop :=
  ∃ t, Untouched s t ∧ (s' = t ∨ ∃ mcause, guestException L mcause t = .ok s')

/-! ### When an instruction changes nothing -/

/-- Writing `value` to the register `csrId` leaves it as it is. -/
def csrWriteKeeps (csrId : Nat) (value : Word) (csr : GuestCsr) : Prop :=
  if csrId = CSR_mstatus then
    value.extractLsb' 11 2 = csr.mstatusMpp ∧ (value &&& MSTATUS_MIE != 0) = csr.mstatusMie ∧
      (value &&& MSTATUS_MDT ≠ 0 → csr.mstatusMdt = true)
  else if csrId = CSR_mie then
    (value &&& MIE_MSIE != 0) = csr.mieMsie ∧ (value &&& MIE_MTIE != 0) = csr.mieMtie ∧
      (value &&& MIE_MEIE != 0) = csr.mieMeie
  else if csrId = CSR_mtvec then value = csr.mtvec
  else if csrId = CSR_satp then
    value.extractLsb' 0 44 = csr.satpPpn ∧ value.extractLsb' 60 4 = csr.satpMode
  else if isPmpCsr csrId then True
  else if csrId = CSR_mepc then value = csr.mepc
  else if csrId = CSR_mscratch then value = csr.mscratch
  else if csrId = CSR_mcause then value = csr.mcause
  else value = csr.mtval

/-- The instruction `u` has nothing to change in `s`: an `sfence.vma` finds no shadow leaf, a
    `csrrw` or `csrrs` writes to `x0` or what the register holds already, and to the CSR what that
    holds already. -/
def ChangesNothing (s : State) (u : UnpackedInstruction) : Prop :=
  let csrId := (u.funct7 <<< 5) ||| u.rs2
  let csr := s.guest.csr
  let regs := s.host.activeRegs
  match u.funct3 with
  | 1 =>
    (u.rd = 0 ∨ getVirtualCsr csrId csr = .ok (regs (u.rd - 1))) ∧
      csrWriteKeeps csrId (readReg regs u.rs1) csr
  | 2 =>
    ∀ value, getVirtualCsr csrId csr = .ok value →
      (u.rd = 0 ∨ regs (u.rd - 1) = value) ∧
        (u.rs1 = 0 ∨ csrWriteKeeps csrId (value ||| regs (u.rs1 - 1)) csr)
  | _ =>
    u.funct7 = 9 → s.guest.shadowPageTable = 0 ∨
      ∀ p, p < 2 ^ 27 → shadowPte s.store s.guest.shadowPageTable p = none

/-- `csrWriteKeeps` is right about `set_virtual_csr`. -/
theorem setVirtualCsr_eq_self_iff {csrId : Nat} {value : Word} {csr csr' : GuestCsr}
    (h : setVirtualCsr csrId value csr = .ok csr') :
    csr' = csr ↔ csrWriteKeeps csrId value csr := by
  -- the two definitions ask for the register in the same order
  obtain ⟨mtvec, mepc, mscratch, mcause, mtval, mpp, mie, mdt, msie, mtie, meie, mode, ppn⟩ := csr
  unfold setVirtualCsr at h
  unfold csrWriteKeeps
  by_cases hmstatus : csrId = CSR_mstatus
  · rw [if_pos hmstatus] at h ⊢
    cases h
    simp
  rw [if_neg hmstatus] at h ⊢
  by_cases hmie : csrId = CSR_mie
  · rw [if_pos hmie] at h ⊢
    split at h
    · cases h
    · cases h
      simp
  rw [if_neg hmie] at h ⊢
  by_cases hmtvec : csrId = CSR_mtvec
  · rw [if_pos hmtvec] at h ⊢
    cases h
    simp
  rw [if_neg hmtvec] at h ⊢
  by_cases hsatp : csrId = CSR_satp
  · rw [if_pos hsatp] at h ⊢
    cases h
    simp [and_comm]
  rw [if_neg hsatp] at h ⊢
  by_cases hpmp : isPmpCsr csrId = true
  · rw [if_pos hpmp] at h ⊢
    cases h
    simp
  rw [if_neg hpmp] at h ⊢
  by_cases hmepc : csrId = CSR_mepc
  · rw [if_pos hmepc] at h ⊢
    cases h
    simp
  rw [if_neg hmepc] at h ⊢
  by_cases hmscratch : csrId = CSR_mscratch
  · rw [if_pos hmscratch] at h ⊢
    cases h
    simp
  rw [if_neg hmscratch] at h ⊢
  by_cases hmcause : csrId = CSR_mcause
  · rw [if_pos hmcause] at h ⊢
    cases h
    simp
  rw [if_neg hmcause] at h ⊢
  split at h
  · cases h
    simp
  · cases h

/-! ### Delivery after a write to a CSR -/

/-- In user mode, protection is the absence of changes. -/
theorem userProtected_iff_untouched (user : s'.guest.userMode = true) :
    UserProtected L s s' ↔ Untouched s s' := by
  constructor
  · rintro ⟨t, ht, rfl | ⟨mcause, hexc⟩⟩
    · exact ht
    · rw [(trapped_of_guestException hexc).2.guest] at user
      cases user
  · intro h
    exact ⟨s', h, Or.inl rfl⟩

/-- **Writes to CSRs.**  Protection of the state after a CSR instruction: neither the CSRs nor the
    registers have changed.  A write that lets a pending exception through is a change. -/
theorem userProtected_of_check {b : Bool} {csr : GuestCsr} (hset : Settled s.guest)
    (user : s.guest.userMode = true) (hguest : t.guest = { s.guest with csr := csr })
    (hstore : t.store = s.store)
    (hmdt : s.guest.csr.mstatusMdt = true → csr.mstatusMdt = true)
    (h : guestCheckDeferred L t = .ok (b, s')) :
    UserProtected L s s' ↔
      t.host.activeRegs = s.host.activeRegs ∧ csr = s.guest.csr := by
  rcases Checked.cases ⟨b, h⟩ with ⟨rfl, -⟩ | ⟨hdef, hmie, hnomdt, -, ht⟩
  · rw [userProtected_iff_untouched (by rw [hguest]; exact user)]
    constructor
    · intro hu
      have hcsr := hu.csr
      rw [hguest] at hcsr
      exact ⟨hu.regs, hcsr⟩
    · rintro ⟨hregs, hcsr⟩
      refine ⟨by rw [hguest]; exact hcsr, hregs, by rw [hguest], fun p _ => by rw [hstore]⟩
  · rw [hguest] at hdef hmie hnomdt
    -- The exception was pending and blocked before, and is not blocked any more: this write has
    -- set `MIE`.
    have hold : s.guest.csr.mstatusMdt = false := by
      by_contra hc
      simp [hmdt (by simpa using hc)] at hnomdt
    have hmie' : s.guest.csr.mstatusMie = false := by
      by_contra hc
      exact hset ⟨hdef, by simpa using hc, hold⟩
    have hs'mie : s'.guest.csr.mstatusMie = true := by
      rw [ht.guest, State.guest_setGuest, hguest]
      exact hmie
    constructor
    · rintro ⟨t', ht', rfl | ⟨mcause', hexc'⟩⟩
      · rw [ht'.csr, hmie'] at hs'mie
        cases hs'mie
      · rw [(trapped_of_guestException hexc').2.guest] at hs'mie
        have hc : t'.guest.csr.mstatusMie = true := hs'mie
        rw [ht'.csr, hmie'] at hc
        cases hc
    · rintro ⟨-, hcsr⟩
      rw [hcsr, hmie'] at hmie
      cases hmie

/-! ### The instructions -/

/-- Writing a register, unless it is `x0`, changes nothing if it holds the value already. -/
theorem writeReg_eq_self_iff {s : State} {rd : Nat} {v : Word} :
    (if rd ≠ 0 then s.setReg (rd - 1) v else s).host.activeRegs = s.host.activeRegs ↔
      rd = 0 ∨ s.host.activeRegs (rd - 1) = v := by
  by_cases hrd : rd = 0
  · simp [hrd]
  · rw [if_pos hrd]
    show Function.update s.host.activeRegs (rd - 1) v = s.host.activeRegs ↔ _
    rw [Function.update_eq_self_iff, eq_comm]
    simp [hrd]

/-- Such a write commutes with one to the guest's context. -/
theorem regs_writeReg_setGuest {s : State} {g : GuestThreadContext} {rd : Nat} {v : Word} :
    (if rd ≠ 0 then (s.setGuest g).setReg (rd - 1) v else s.setGuest g).host.activeRegs =
      (if rd ≠ 0 then s.setReg (rd - 1) v else s).host.activeRegs := by
  split <;> rfl

theorem emulateCsrrw_protected_iff (hset : Settled s.guest) (user : s.guest.userMode = true)
    {guestAddr : Word} {u : UnpackedInstruction} (hf3 : u.funct3 = 1)
    (h : emulateCsrrw L guestAddr u s = .ok s') : UserProtected L s s' ↔ ChangesNothing s u := by
  obtain ⟨old, csr, hold, hcsr, b, hcheck⟩ := emulateCsrrw_ok h
  rw [userProtected_of_check hset user (by rw [State.guest_setMepc, guest_writeReg,
      State.guest_setGuest]) (by rw [State.store_setMepc, store_writeReg, State.store_setGuest])
    (setVirtualCsr_mdt hcsr) hcheck, State.host_setMepc, regs_writeReg_setGuest,
    writeReg_eq_self_iff, setVirtualCsr_eq_self_iff hcsr]
  unfold ChangesNothing
  simp only [hf3]
  refine and_congr_left (fun _ => or_congr_right' (fun hrd => ?_))
  rw [if_pos hrd] at hold
  rw [hold, Except.ok.injEq, eq_comm]

theorem emulateCsrrs_protected_iff (hset : Settled s.guest) (user : s.guest.userMode = true)
    {guestAddr : Word} {u : UnpackedInstruction} (hf3 : u.funct3 = 2)
    (h : emulateCsrrs L guestAddr u s = .ok s') : UserProtected L s s' ↔ ChangesNothing s u := by
  obtain ⟨value, csr, hvalue, hcsr, b, hcheck⟩ := emulateCsrrs_ok h
  rw [guest_writeReg] at hcsr
  have hmdt : s.guest.csr.mstatusMdt = true → csr.mstatusMdt = true := by
    intro hold
    split at hcsr
    · exact setVirtualCsr_mdt hcsr hold
    · cases hcsr
      exact hold
  rw [userProtected_of_check hset user
      (by rw [State.guest_setMepc, State.guest_setGuest, guest_writeReg])
      (by rw [State.store_setMepc, State.store_setGuest, store_writeReg]) hmdt hcheck,
    State.host_setMepc, State.host_setGuest]
  unfold ChangesNothing
  simp only [hf3, hvalue, Except.ok.injEq, forall_eq']
  rw [← writeReg_eq_self_iff]
  refine and_congr_right (fun hregs => ?_)
  rw [hregs] at hcsr
  by_cases hrs1 : u.rs1 = 0
  · rw [if_neg (by simp [hrs1])] at hcsr
    cases hcsr
    simp [hrs1]
  · rw [if_pos hrs1] at hcsr
    rw [setVirtualCsr_eq_self_iff hcsr]
    simp [hrs1]

/-- After `sfence.vma` the shadow table is empty: nothing has changed if it was so before. -/
theorem flush_protected_iff (h : Core L s) (user : s.guest.userMode = true) {guestAddr : Word}
    {s₁ : State} (hflush : flushShadowPagetable s = .ok s₁) :
    UserProtected L s (s₁.setMepc guestAddr) ↔
      s.guest.shadowPageTable = 0 ∨
        ∀ p, p < 2 ^ 27 → shadowPte s.store s.guest.shadowPageTable p = none := by
  obtain ⟨st', heq, -, -, hcase⟩ := flushShadowPagetable_spec h
  rw [hflush] at heq
  cases heq
  rw [userProtected_iff_untouched (by exact user)]
  have hstore : ∀ p, shadowPte ({ s with store := st' }.setMepc guestAddr).store
      s.guest.shadowPageTable p = shadowPte st' s.guest.shadowPageTable p := fun _ => rfl
  rcases hcase with ⟨hroot, rfl⟩ | ⟨hroot, hzero⟩
  · exact ⟨fun _ => Or.inl hroot, fun _ => ⟨rfl, rfl, rfl, fun _ _ => rfl⟩⟩
  · -- an emptied table has no leaves, so it had none before
    have hnone : ∀ p, shadowPte st' s.guest.shadowPageTable p = none :=
      shadowPte_of_empty (fun i hi => by rw [hzero i hi]; rfl)
    constructor
    · intro hu
      right
      intro p hp
      rw [← hu.leaves p hp, hstore, hnone]
    · intro hempty
      refine ⟨rfl, rfl, rfl, fun p hp => ?_⟩
      rw [hstore, hnone, hempty.resolve_left hroot p hp]

/-- The instruction an exit with cause 2 is about. -/
def faultingInstruction (L : Layout) (s : State) : Except Panic UnpackedInstruction := do
  let host ← resolveInstruction L s s.hart.mepc
  return unpackInstruction (dereferenceInstruction s.store.mem host)

/-- The instruction of a handled exit is emulated at the program counter. -/
theorem emulated_of_handled {stale : Nat → Nat}
    (handled : handleGuestException L stale 2 s = .ok s') :
    ∃ u, faultingInstruction L s = .ok u ∧ emulateInstruction L s.hart.mepc u s = .ok s' := by
  change handleIllegalInstruction L s = .ok s' at handled
  unfold handleIllegalInstruction at handled
  dsimp only at handled
  split at handled
  · cases handled
  obtain ⟨host, hhost, hemulate⟩ := bind_eq_ok.mp handled
  refine ⟨_, ?_, hemulate⟩
  unfold faultingInstruction
  rw [hhost]
  rfl

/-- Every emulated instruction. -/
theorem emulateInstruction_protected_iff (h : Inv L s) (user : s.guest.userMode = true)
    {guestAddr : Word} {u : UnpackedInstruction}
    (handled : emulateInstruction L guestAddr u s = .ok s') :
    UserProtected L s s' ↔ ChangesNothing s u := by
  unfold emulateInstruction at handled
  split at handled
  · cases handled
  split at handled
  · rename_i hf3
    -- of the instructions without a CSR, only the fence is asked anything
    have hcond : ChangesNothing s u ↔ (u.funct7 = 9 → s.guest.shadowPageTable = 0 ∨
        ∀ p, p < 2 ^ 27 → shadowPte s.store s.guest.shadowPageTable p = none) := by
      unfold ChangesNothing
      simp only [hf3]
    rw [hcond]
    split at handled
    · cases handled
    split at handled
    · -- sfence.vma
      rename_i hfence
      obtain ⟨s₁, hflush, hret⟩ := bind_eq_ok.mp handled
      cases hret
      rw [flush_protected_iff h.core user hflush]
      simp [hfence.1]
    split at handled
    · -- mret: a user that executes it brings the hypervisor down
      unfold guestMret at handled
      rw [if_pos user] at handled
      cases handled
    split at handled
    · -- wfi: not even the program counter moves
      rename_i hwfi
      cases handled
      refine ⟨fun _ h9 => ?_, fun _ => ⟨s, Untouched.refl s, Or.inl rfl⟩⟩
      rw [hwfi.1] at h9
      cases h9
    · cases handled
  · rename_i hf3
    exact emulateCsrrw_protected_iff h.settled user hf3 handled
  · rename_i hf3
    exact emulateCsrrs_protected_iff h.settled user hf3 handled
  · cases handled

/-- **User mode.**  An illegal-instruction exit from user mode that does not panic is about an
    instruction the hypervisor emulates, and leaves the guest kernel's state alone if and only if
    that instruction has nothing to change. -/
theorem user_mode_protected_iff (h : Inv L s) (user : s.guest.userMode = true) {stale : Nat → Nat}
    (handled : handleGuestException L stale 2 s = .ok s') :
    ∃ u, faultingInstruction L s = .ok u ∧ (UserProtected L s s' ↔ ChangesNothing s u) := by
  obtain ⟨u, hu, hemulate⟩ := emulated_of_handled handled
  exact ⟨u, hu, emulateInstruction_protected_iff h user hemulate⟩

/-- A guest whose user mode, without translation, runs the instruction `word`. -/
def sampleUserCode (word : Nat) : Mem := sampleKernel (store (fun _ => 0) 0x85000008 4 word)

/-- The exit of that guest at the instruction, with all registers 7. -/
def sampleUserExit (s : State) : State :=
  suspended sampleLayout (sampleReads 300) ((s.guestRun (fun _ => 7) 0x80000008).trapEntry 2 0)

theorem inv_sampleUserExit (h : Reachable sampleLayout s) : Inv sampleLayout (sampleUserExit s) :=
  ((h.inv.guestRun _ _).trapEntry _ _).suspended _

/-- `wfi` leaves everything alone. -/
theorem user_mode_protected_wfi :
    ∃ s s', Reachable sampleLayout s ∧
      handleGuestException sampleLayout (fun _ => 0) 2 (sampleUserExit s) = .ok s' ∧
      UserProtected sampleLayout (sampleUserExit s) s' := by
  obtain ⟨s, hreach, hs⟩ := exists_reachable (sampleUserCode 0x10500073) (sampleEnterUser 0)
    (fun s => ((sampleUserExit s).guest.userMode,
      (faultingInstruction sampleLayout (sampleUserExit s)).toOption.map
        (fun u => (u.funct3, u.funct7)),
      (handleGuestException sampleLayout (fun _ => 0) 2 (sampleUserExit s)).toOption.map
        (fun s' => s'.guest.userMode)))
    (true, some (0, 8), some true) (by decide) (by decide +kernel)
  simp only [Prod.mk.injEq] at hs
  obtain ⟨huser, hinstr, hrun⟩ := hs
  obtain ⟨s', hs', -⟩ := map_toOption_eq_some.mp hrun
  obtain ⟨u, hu, hiff⟩ := user_mode_protected_iff (inv_sampleUserExit hreach) huser hs'
  rw [hu] at hinstr
  obtain ⟨hf3, hf7⟩ := Prod.mk.inj (Option.some.inj hinstr)
  refine ⟨s, s', hreach, hs', hiff.mpr ?_⟩
  unfold ChangesNothing
  simp [hf3, hf7]

/-- `csrw mscratch, x5` in user mode writes the register of the guest kernel. -/
theorem user_mode_writes_mscratch :
    ∃ s s', Reachable sampleLayout s ∧ (sampleUserExit s).guest.userMode = true ∧
      handleGuestException sampleLayout (fun _ => 0) 2 (sampleUserExit s) = .ok s' ∧
      (sampleUserExit s).guest.csr.mscratch = 0 ∧ s'.guest.csr.mscratch = 7 ∧
      ¬ UserProtected sampleLayout (sampleUserExit s) s' := by
  obtain ⟨s, hreach, hs⟩ := exists_reachable (sampleUserCode 0x34029073) (sampleEnterUser 0)
    (fun s => (((sampleUserExit s).guest.userMode, (sampleUserExit s).guest.csr.mscratch),
      (handleGuestException sampleLayout (fun _ => 0) 2 (sampleUserExit s)).toOption.map
        (fun s' => (s'.guest.userMode, s'.guest.csr.mscratch))))
    ((true, 0), some (true, 7)) (by decide) (by decide +kernel)
  simp only [Prod.mk.injEq] at hs
  obtain ⟨⟨huser, hold⟩, hrun⟩ := hs
  obtain ⟨s', hs', hview⟩ := map_toOption_eq_some.mp hrun
  simp only [Prod.mk.injEq] at hview
  obtain ⟨huser', hnew⟩ := hview
  refine ⟨s, s', hreach, huser, hs', hold, hnew, ?_⟩
  rw [userProtected_iff_untouched huser']
  intro hu
  rw [hu.csr, hold] at hnew
  cases hnew

end RiscvHypervisor
