import RiscvHypervisor.Proof.Progress
import RiscvHypervisor.Proof.TrapView

namespace RiscvHypervisor

open ByteMem RadixForest Except Transition

/-!
# Page faults in the virtual machine

A page fault is nothing the virtual machine knows of.  In guest RAM the handler maps a page, which
at most fills the translation buffer; the guest then tries again.  Below RAM the access is the
virtual machine's access to a device, made by the handler in its place.
-/

variable {L : Layout} {s s' t : State} {v : VirtualMachine}

/-! ### The walk of the guest's table -/

theorem Represents.walks (h : Represents s v) {va gm : Nat}
    (hres : WalkInRam (guestRead s.store) s.guest.csr.satpPpn va →
      resolveGu (guestRead s.store) s.guest.csr.satpPpn va = some gm) : v.Walks va gm := by
  have hroot : v.hart.csrs.satpPpn = s.guest.csr.satpPpn := by
    rw [h.hart]
    exact GuestCsr.file_satpPpn _
  unfold VirtualMachine.Walks
  rw [h.ram.tableRead, hroot]
  intro wf
  exact wf.sv39Resolve_of_resolveGu (hres wf.walkInRam)

/-! ### Faults in guest RAM -/

/-- The handler has mapped the page of `va` in the shadow table. -/
theorem Represents.mapped (h : Represents s v) {acc : MempermIndex} {va gm : Nat} {st : Store}
    (hact : s.guest.shadowPtActive = true)
    (heff : FaultEffect L acc s va gm { s with store := st }) (hreports : Reports s.store st) :
    Represents { s with store := st } (v.cache (pageOf va) (gm / 4096)) := by
  refine ⟨h.hart, h.ram.congr heff.ram, ?_, h.console.reports hreports⟩
  intro hroot p e hp he
  have hshadow := heff.shadow hact p hp
  rw [show shadowPte st s.guest.shadowPageTable p = some e from he] at hshadow
  by_cases hpage : p = va / 4096 ∧ InGuestRam gm
  · rw [if_pos hpage, Option.some_inj] at hshadow
    refine ⟨gm / 4096, Or.inr ⟨?_, rfl⟩, ?_⟩
    · unfold pageOf
      omega
    · rw [hshadow, shadowEntry_div]
      simp only [GUEST_MEMORY_OFFSET]
      omega
  · rw [if_neg hpage] at hshadow
    obtain ⟨q, hq, heq⟩ := h.tlb hroot p e hp hshadow.symm
    exact ⟨q, Or.inl hq, heq⟩

/-- The handler has left the shadow table alone. -/
theorem Represents.unmapped (h : Represents s v) {acc : MempermIndex} {va gm : Nat} {st : Store}
    (hact : s.guest.shadowPtActive = true) (hgm : ¬ InGuestRam gm)
    (heff : FaultEffect L acc s va gm { s with store := st }) (hreports : Reports s.store st) :
    Represents { s with store := st } v := by
  refine ⟨h.hart, h.ram.congr heff.ram, h.tlb.congr (fun p hp => ?_),
    h.console.reports hreports⟩
  have hshadow := heff.shadow hact p hp
  rw [if_neg (fun hc => hgm hc.2)] at hshadow
  exact hshadow

/-- Builders that keep the content of the shadow tree are not noticed. -/
theorem Represents.builds (h : Represents s v) {own own' : Owner Tree} {free free' : List Nat}
    {st' : Store} {n : Nat} (hvm : VmInv L s.guest.shadowPageTable s.store own free ∅)
    (hb : Builds L s.guest.shadowPageTable s.store free st' own' free' n)
    (hsame : ∀ key e, Maps st' own' .shadow key e ↔ Maps s.store own .shadow key e)
    (hreports : Reports s.store st') : Represents { s with store := st' } v := by
  refine ⟨h.hart, h.ram.congr hb.ram, ?_, h.console.reports hreports⟩
  intro hroot
  exact (h.tlb.congr (fun p hp => shadowPte_congr hvm hb.inv hroot hsame hp)) hroot

/-- A fault in guest RAM. -/
theorem Represents.ramFault (h : Represents s v) (hcore : Core L s) {stale : Nat → Nat}
    {acc : MempermIndex} {access : DecodedAccess} {gm hm : Nat} {st st₂ : Store} {va : Word}
    {result result₁ : PageFaultHandlerResult} (hgm : InGuestRam gm)
    (hfault : handlePageFault L stale acc s = .ok (result, va, s'))
    (htranslate : faultToGm L stale va.toNat s = .ok (gm, { s with store := st }))
    (hensure : ensureGuestMachineMapped L s.host.currentGuest.machine gm st =
      .ok (result₁, some hm, st₂))
    (hresult₁ : result₁ = .success ∨ result₁ = .notChanged)
    (hfinish : finishFault L acc access gm result₁ (some hm) { s with store := st₂ } =
      .ok (result, va, s')) : Answers s v s' := by
  have hreports : Reports s.store s'.store := by
    obtain ⟨_, gm', st', htranslate', hcases⟩ := handlePageFault_reports hfault
    rw [htranslate] at htranslate'
    cases htranslate'
    rcases hcases with ⟨hlow, -⟩ | hreports
    · exact absurd hgm.1 (Nat.not_le.mpr hlow)
    · exact hreports
  by_cases hact : s.guest.shadowPtActive = true
  · obtain ⟨st', rfl, -⟩ := finishFault_store hresult₁ hfinish
    obtain ⟨-, gm', heff, hres⟩ := (handlePageFault_spec hcore stale acc).ok hfault
    by_cases hgm' : InGuestRam gm'
    · have hpaged : v.hart.paged = true := by
        rw [h.hart]
        exact hact
      exact (VmStep.fill hpaged (h.walks (hres hact)) hgm').answers
        (h.mapped hact heff hreports) rfl
    · exact (h.unmapped hact hgm' heff hreports).answers_same rfl
  · -- on the machine table only that table changes
    rw [finishFault_ram hresult₁, if_neg hact] at hfinish
    obtain ⟨rfl, -⟩ := faultToGm_inactive (eq_false_of_ne_true hact) htranslate
    obtain ⟨own, free, hvm⟩ := hcore.mem.vm
    rw [hcore.current] at hensure
    obtain ⟨-, -, own', free', e, hb, hupd, -⟩ :=
      (ensureGuestMachineMapped_spec hvm hgm.1 hgm.2).ok hensure
    cases hfinish
    refine (h.builds hvm hb (fun key e' => ?_) hreports).answers_same rfl
    rw [hupd, if_neg (by simp)]

/-! ### Device accesses -/

theorem DeviceRegister.read_virtualHart (s : State) (d : DeviceRegister) :
    d.read s.virtualHart (s.clint.mtime - s.guest.timerAdjustment) = d.value s := by
  cases d with
  | _ => rfl

theorem virtualHart_observe (s : State) (o : Observation) :
    (s.observe o).virtualHart = s.virtualHart := rfl

/-- A message of the hypervisor's own. -/
theorem Represents.print (h : Represents s v) {line : List (BitVec 8)} (hline : Message line) :
    Represents (s.print line) v :=
  ⟨h.hart, h.ram, h.tlb, h.console.message hline⟩

/-- What a device register does with what it receives. -/
theorem Represents.receive (h : Represents s v) {d : DeviceRegister} {value : Word}
    (hreceive : d.receive value s = some s') :
    ∃ v', d.write v value = some v' ∧ Represents s' v' ∧ newlyObserved s s' = d.shown value := by
  cases d with
  | mtimecmp =>
    cases hreceive
    refine ⟨_, rfl, h.setHart ?_ (SameMem.refl _) rfl ?_, newlyObserved_cons rfl⟩
    · rw [virtualHart_observe, virtualHart_setGuest, h.hart]
      rfl
    · rw [State.guest_observe, State.guest_setGuest]
  | uartData =>
    cases hreceive
    exact ⟨_, rfl, ⟨h.hart, h.ram, h.tlb, h.console.byte _⟩, newlyObserved_same rfl⟩
  | mtime => cases hreceive
  | uartLsr => cases hreceive
  | _ =>
    cases hreceive
    exact ⟨v, rfl, h, newlyObserved_same rfl⟩

/-- The registers after a load. -/
theorem LoadEffect.virtualHart {access : DecodedAccess} {gm : Nat}
    (h : LoadEffect access gm s s') :
    ∃ d value, Loads s gm access.width d value ∧
      s'.virtualHart = { (s.virtualHart.writeReg access.reg
        (access.width.extend access.isSigned value)).advance access.pcAdvance with
          received := d.leaves s.uart.received } := by
  obtain ⟨d, value, hloads, hregs, hs'⟩ := h
  refine ⟨d, value, hloads, ?_⟩
  have hactive : s'.host.activeRegs = (s.virtualHart.writeReg access.reg
      (access.width.extend access.isSigned value)).regs := by
    funext n
    have hn := hregs (n + 1)
    rw [readReg_of_ne_zero (Nat.succ_ne_zero n), readReg_of_ne_zero (Nat.succ_ne_zero n)] at hn
    change s'.host.activeRegs n = if n + 1 = access.reg ∧ n + 1 ≠ 0 then _ else
      s.host.activeRegs n at hn
    rw [hn]
    unfold VirtualHart.writeReg
    by_cases hreg : access.reg = 0
    · rw [if_neg (by omega), if_neg (not_not_intro hreg)]
      rfl
    · rw [if_pos hreg]
      show _ = Function.update s.host.activeRegs (access.reg - 1) _ n
      by_cases hnr : n + 1 = access.reg
      · rw [if_pos ⟨hnr, Nat.succ_ne_zero n⟩, show access.reg - 1 = n by omega,
          Function.update_self]
      · rw [if_neg (fun hc => hnr hc.1), Function.update_of_ne (by omega)]
  have huart : (d.afterLoad s.uart).received = d.leaves s.uart.received := by
    cases d with
    | _ => rfl
  generalize s'.host.activeRegs = regs at hactive hs'
  rw [hs', hactive, ← huart]
  unfold VirtualHart.writeReg
  split
  · rfl
  · rfl

/-- A word the decoder takes for a load is one. -/
theorem exists_load {m : Mem} {ptr : Nat} {regs : SavedRegisters} {access : DecodedAccess}
    (h : parseSourceAddress (dereferenceInstruction m ptr) regs = .ok access) :
    ∃ i : Rv64.Load, dereferenceInstruction m ptr = i.encode ∧
      access = ⟨(i.access (readReg regs)).address, accessWidth (i.access (readReg regs)).width,
        (i.access (readReg regs)).reg, i.size, signFlag i⟩ := by
  obtain ⟨i, hi⟩ := ((parseSourceAddress_spec _ regs).ok h).exists_loadAt
  refine ⟨i, hi.dereference, ?_⟩
  rw [hi.dereference, parseSourceAddress_load] at h
  exact (Except.ok.inj h).symm

/-- And one it takes for a store. -/
theorem exists_store {m : Mem} {ptr : Nat} {regs : SavedRegisters} {access : DecodedAccess}
    (h : parseDestinationAddress (dereferenceInstruction m ptr) regs = .ok access) :
    ∃ i : Rv64.Store, dereferenceInstruction m ptr = i.encode ∧
      access = ⟨(i.access (readReg regs)).address, accessWidth (i.access (readReg regs)).width,
        (i.access (readReg regs)).reg, i.size, false⟩ := by
  have hword := (parseDestinationAddress_spec _ regs).ok h
  obtain ⟨i, hi⟩ : ∃ i : Rv64.Store, i.encode = dereferenceInstruction m ptr := by
    rcases dereferenceInstruction_cases m ptr with ⟨heq, hlow⟩ | ⟨heq, hlow⟩
    · rw [heq] at hword ⊢
      exact hword.exists_encode_long ((and_three _).trans hlow) (load_lt m ptr 4)
    · rw [heq] at hword ⊢
      exact hword.exists_encode_short (fun hc => hlow ((and_three _).symm.trans hc))
        (load_lt m ptr 2)
  refine ⟨i, hi.symm, ?_⟩
  rw [← hi, parseDestinationAddress_store] at h
  exact (Except.ok.inj h).symm

/-- The sign flag of the decoder says what the virtual machine does: a doubleword fills the
    register, whatever the flag. -/
theorem extend_signFlag (i : Rv64.Load) (x : Nat → Word) (value : Word) :
    (accessWidth (i.access x).width).extend (signFlag i) value =
      (accessWidth (i.access x).width).extend (signExtends i) value := by
  have hdouble : ∀ signed signed', MemoryAccessWidth.w64.extend signed value =
      MemoryAccessWidth.w64.extend signed' value := by
    intro signed signed'
    rw [MemoryAccessWidth.extend_w64, MemoryAccessWidth.extend_w64]
  cases i with
  | base op rd rs1 imm =>
    cases op with
    | ld => exact hdouble _ _
    | _ => rfl
  | clw => rfl
  | cld => exact hdouble _ _
  | clwsp => rfl
  | cldsp => exact hdouble _ _

/-- A load from a device. -/
theorem Represents.deviceLoad (h : Represents s v) (hset : Settled s.guest) {i : Rv64.Load}
    {gm : Nat} {access : DecodedAccess} (hfetch : v.Fetches i.encode)
    (hdecode : access = ⟨(i.access v.hart.reg).address, accessWidth (i.access v.hart.reg).width,
      (i.access v.hart.reg).reg, i.size, signFlag i⟩)
    (hlocate : v.Locates access.address.toNat gm) (heffect : LoadEffect access gm s s') :
    Answers s v s' := by
  obtain ⟨d, value, ⟨hregister, hwidth, hvalue⟩, hhart⟩ := heffect.virtualHart
  have hanswer : d.read v.hart (s.clint.mtime - s.guest.timerAdjustment) = some value := by
    rw [h.hart, DeviceRegister.read_virtualHart]
    exact hvalue
  subst hdecode
  have hstep := VmStep.deviceLoad (h.free hset) hfetch hlocate hregister hwidth hanswer
  dsimp only at hwidth hhart
  rw [extend_signFlag, ← hwidth] at hhart
  obtain ⟨_, _, _, _, hs'⟩ := heffect
  have hstore : s'.store = s.store := by rw [hs']
  refine hstep.answers (h.setHart ?_ ?_ (by rw [hstore]) ?_) ?_
  · rw [hhart, h.hart]
    rfl
  · rw [hstore]
    exact SameMem.refl _
  · rw [hs']
    rfl
  · rw [hs']

/-- A store to a device. -/
theorem Represents.deviceStore (h : Represents s v) (hset : Settled s.guest) {i : Rv64.Store}
    {gm : Nat} {access : DecodedAccess} (hfetch : v.Fetches i.encode)
    (hdecode : access = ⟨(i.access v.hart.reg).address, accessWidth (i.access v.hart.reg).width,
      (i.access v.hart.reg).reg, i.size, false⟩)
    (hlocate : v.Locates access.address.toNat gm) (heffect : StoreEffect access gm s s') :
    Answers s v s' := by
  obtain ⟨d, s₁, ⟨hregister, hwidth, hreceive⟩, -, rfl⟩ := heffect
  obtain ⟨v', hwrite, hrep, hshown⟩ := h.receive hreceive
  have hmepc : s₁.hart.mepc = s.hart.mepc := by rw [(DeviceRegister.receive_frame hreceive).2.1]
  have hreg : readReg s.host.activeRegs access.reg = v.hart.reg access.reg := by
    rw [h.hart]
    rfl
  rw [hreg] at hwrite hshown
  subst hdecode
  dsimp only at hwidth hwrite hshown
  rw [← hwidth] at hwrite hshown
  refine (VmStep.deviceStore (h.free hset) hfetch hlocate hregister hwidth hwrite).answers_shown
    (hrep.setHart ?_ (SameMem.refl _) rfl rfl) hshown
  rw [virtualHart_advance hmepc, hrep.hart]

/-! ### The handler -/

/-- **Page faults.** -/
theorem Represents.handlePageFault (h : Represents s v) (hcore : Core L s) (hset : Settled s.guest)
    {stale : Nat → Nat} {acc : MempermIndex} {va : Word}
    (hfault : handlePageFault L stale acc s = .ok (.success, va, s')) : Answers s v s' := by
  obtain ⟨access, gm, st, hdecode, rfl, htranslate, hcases⟩ := handlePageFault_cases hfault
  rcases hcases with ⟨-, hdev⟩ | ⟨-, hresult, -⟩ |
    ⟨hgm, result₁, hm, st₂, hensure, hresult₁, hfinish⟩
  · -- below RAM: the tables the walk has built are not noticed
    obtain ⟨own, free, hvm⟩ := hcore.mem.vm
    obtain ⟨st', own', free', hst, hb, hsame, -, -, hres⟩ :=
      (faultToGm_spec hcore hvm stale access.address.isLt).ok htranslate
    have hst' : st = st' := congrArg State.store hst
    rw [hst'] at hdev
    have hreports : Reports s.store st' := by
      rw [← hst']
      exact (faultToGm_reports htranslate).1
    have h₁ := h.builds hvm hb hsame hreports
    have hregs : readReg s.host.activeRegs = v.hart.reg := by
      rw [h.hart]
      rfl
    -- where the guest's own table puts the access, or the address as it is
    have hlocate : v.Locates access.address.toNat gm := by
      unfold VirtualMachine.Locates
      split
      · rename_i hpaged
        rw [h.hart] at hpaged
        exact h.walks (hres hpaged)
      · rename_i hpaged
        rw [h.hart] at hpaged
        exact (faultToGm_inactive (eq_false_of_ne_true hpaged) htranslate).2
    rcases emulateDevice_cases acc access gm { s with store := st' } with
      ⟨s₁, hdev', ⟨rfl, hload⟩ | ⟨rfl, hstore⟩⟩ | hdev'
    · rw [hdev] at hdev'
      cases hdev'
      obtain ⟨host, hhost, hparse⟩ := bind_eq_ok.mp hdecode
      have hfetch := h.fetches hcore hhost
      obtain ⟨i, hi, haccess⟩ := exists_load hparse
      rw [hi] at hfetch
      rw [hregs] at haccess
      exact h₁.deviceLoad hset hfetch haccess hlocate hload
    · rw [hdev] at hdev'
      cases hdev'
      obtain ⟨host, hhost, hparse⟩ := bind_eq_ok.mp hdecode
      have hfetch := h.fetches hcore hhost
      obtain ⟨i, hi, haccess⟩ := exists_store hparse
      rw [hi] at hfetch
      rw [hregs] at haccess
      exact h₁.deviceStore hset hfetch haccess hlocate hstore
    · rw [hdev] at hdev'
      cases hdev'
  · -- above RAM the result is not a success
    cases hresult
  · exact h.ramFault hcore hgm hfault htranslate hensure hresult₁ hfinish

end RiscvHypervisor
