import RiscvHypervisor.Proof.Effects

namespace RiscvHypervisor

open RadixForest Except ByteMem

/-!
# Page faults make progress

A page fault that is reported as handled has been: the access went to a device and the guest goes on
after it, or the table in use now grants the access and the guest retries it
(`page_fault_progress`).  "No change" is never reported for an access the table does not grant, so
that the panic on it is never the end of a fault that could have been handled.
-/

variable {L : Layout} {s s' : State} {acc : MempermIndex}

/-! ### What the table in use grants -/

/-- Whether the table at `root` gives `va` a leaf that lets user mode make an access of
    type `acc`. -/
def grants (st : Store) (root va : Nat) (acc : MempermIndex) : Bool :=
  match Sv39.walk st.load64 va 2 root with
  | none   => false
  | some l => l.pte.testBit Sv39.bitU && l.pte.testBit acc.toNat

section

variable {root va : Nat} {st : Store} {own : Owner Tree} {free : List Nat}

theorem grants_eq_true : grants st root va acc = true ↔
    ∃ l, Sv39.walk st.load64 va 2 root = some l ∧ l.pte.testBit Sv39.bitU = true ∧
      l.pte.testBit acc.toNat = true := by
  unfold grants
  cases Sv39.walk st.load64 va 2 root with
  | none => simp
  | some l => simp

/-- Every leaf of the machine table grants every access. -/
theorem grants_machine (h : VmInv L root st own free ∅) (hacc : IsAccess acc) {e : Nat}
    (hm : Maps st own .machine (regionOf va) e) : grants st (L.machineRoot 0) va acc = true := by
  have hleaf : MachineLeaf (regionOf va) e := Maps.leafOk h hm
  obtain ⟨t, ht, -⟩ := id hm
  rw [grants_eq_true]
  refine ⟨⟨1, t + 8 * (regionOf va % 512), e⟩, ?_, hleaf.u, ?_⟩
  · rw [walk_machine h]
    exact ⟨rfl, hm, t, ht, rfl⟩
  · rcases hacc with rfl | rfl | rfl
    · exact hleaf.r
    · exact hleaf.w
    · exact hleaf.x

/-- A leaf of the shadow table grants what its permission bits say. -/
theorem grants_shadow (h : VmInv L root st own free ∅) (hroot : root ≠ 0) {e : Nat}
    (hm : Maps st own .shadow (pageOf va) e) (hbit : e.testBit acc.toNat = true) :
    grants st root va acc = true := by
  have hleaf : ShadowLeaf e := Maps.leafOk h hm
  obtain ⟨t, ht, -⟩ := id hm
  rw [grants_eq_true]
  refine ⟨⟨0, t + 8 * (pageOf va % 512), e⟩, ?_, hleaf.u, hbit⟩
  rw [walk_shadow h hroot]
  exact ⟨rfl, hm, t, ht, rfl⟩

end

/-! ### The length of the instruction -/

/-- The length of the instruction at `ptr`, by its first half-word. -/
def instructionLength (m : Mem) (ptr : Nat) : Nat := if load m ptr 2 &&& 3 = 3 then 4 else 2

theorem instructionLength_even (m : Mem) (ptr : Nat) : instructionLength m ptr % 2 = 0 := by
  unfold instructionLength
  split <;> rfl

theorem and_three_dereference (m : Mem) (ptr : Nat) :
    dereferenceInstruction m ptr &&& 3 = 3 ↔ load m ptr 2 &&& 3 = 3 := by
  have hlong : load m ptr 4 = load m ptr 2 + 2 ^ 16 * load m (ptr + 2) 2 := load_add m ptr 2 2
  rw [and_three, and_three]
  rcases dereferenceInstruction_cases m ptr with ⟨heq, -⟩ | ⟨heq, -⟩
  · rw [heq]
    omega
  · rw [heq]

theorem parseSourceAddress_advance {w : Nat} {regs : SavedRegisters} {access : DecodedAccess}
    (h : parseSourceAddress w regs = .ok access) :
    access.pcAdvance = if w &&& 3 = 3 then 4 else 2 := by
  unfold parseSourceAddress at h
  dsimp only at h
  by_cases hlow : w &&& 3 = 3
  · rw [if_pos hlow] at h ⊢
    split at h
    · split at h <;> cases h <;> rfl
    · cases h
  · rw [if_neg hlow] at h ⊢
    split at h
    · split at h <;> cases h <;> rfl
    · split at h <;> cases h <;> rfl
    · cases h

theorem parseDestinationAddress_advance {w : Nat} {regs : SavedRegisters} {access : DecodedAccess}
    (h : parseDestinationAddress w regs = .ok access) :
    access.pcAdvance = if w &&& 3 = 3 then 4 else 2 := by
  unfold parseDestinationAddress at h
  dsimp only at h
  by_cases hlow : w &&& 3 = 3
  · rw [if_pos hlow] at h ⊢
    split at h
    · split at h <;> cases h <;> rfl
    · cases h
  · rw [if_neg hlow] at h ⊢
    split at h
    · split at h <;> cases h <;> rfl
    · split at h <;> cases h <;> rfl
    · cases h

/-- The decoders advance the program counter by the length of the instruction. -/
theorem decodeFault_advance {access : DecodedAccess} (hacc : acc = .r ∨ acc = .w)
    (h : decodeFault L acc s = .ok access) :
    ∃ host, resolveInstruction L s s.hart.mepc = .ok host ∧
      access.pcAdvance = instructionLength s.store.mem host := by
  rcases hacc with rfl | rfl
  · obtain ⟨host, hhost, hparse⟩ := bind_eq_ok.mp h
    refine ⟨host, hhost, ?_⟩
    rw [parseSourceAddress_advance hparse]
    exact if_congr (and_three_dereference _ _) rfl rfl
  · obtain ⟨host, hhost, hparse⟩ := bind_eq_ok.mp h
    refine ⟨host, hhost, ?_⟩
    rw [parseDestinationAddress_advance hparse]
    exact if_congr (and_three_dereference _ _) rfl rfl

/-- A device access succeeds or is rejected. -/
theorem emulateDevice_result (acc : MempermIndex) (access : DecodedAccess) (gm : Nat) (t : State) :
    (emulateDevice acc access gm t).1 = .success ∨ (emulateDevice acc access gm t).1 = .tooLow := by
  rcases emulateDevice_cases acc access gm t with ⟨s', hdev, -⟩ | hdev
  · exact Or.inl (congrArg Prod.fst hdev)
  · exact Or.inr (congrArg Prod.fst hdev)

/-- A device access that succeeds is a load or a store, and moves the program counter on. -/
theorem emulateDevice_success {access : DecodedAccess} {gm : Nat} {t : State}
    (h : emulateDevice acc access gm t = (.success, s')) :
    (acc = .r ∨ acc = .w) ∧
      s'.hart.mepc = legalMepc (t.hart.mepc + BitVec.ofNat 64 access.pcAdvance) := by
  rcases emulateDevice_cases acc access gm t with ⟨s₁, hdev, heffect⟩ | hdev
  · obtain rfl : s' = s₁ := congrArg Prod.snd (h.symm.trans hdev)
    rcases heffect with ⟨hacc, d, v, -, -, hs'⟩ | ⟨hacc, d, s₂, -, -, rfl⟩
    · rw [hs']
      exact ⟨Or.inl hacc, rfl⟩
    · exact ⟨Or.inr hacc, rfl⟩
  · rw [hdev] at h
    cases h

/-! ### The table builders -/

section

variable {root : Nat} {st st' : Store} {own : Owner Tree} {free : List Nat}
  {result : PageFaultHandlerResult}

/-- The machine table grants an access to guest RAM after `ensure_guest_machine_mapped`, and before
    it if no change is reported. -/
theorem ensureGuestMachineMapped_grants (h : VmInv L root st own free ∅) {gm : Nat}
    {hm : Option Nat} (hgm : InGuestRam gm) (hacc : IsAccess acc)
    (hens : ensureGuestMachineMapped L 0 gm st = .ok (result, hm, st')) :
    (result = .success ∨ result = .notChanged) ∧ grants st' (L.machineRoot 0) gm acc = true ∧
      (result = .notChanged → grants st (L.machineRoot 0) gm acc = true) := by
  have hregion : regionOf gm = gm / 2 ^ 21 := regionOf_of_lt hgm.2
  obtain ⟨hresult, -, own', free', e, hb, hupd, hsame⟩ :=
    (ensureGuestMachineMapped_spec h hgm.1 hgm.2).ok hens
  dsimp only at hresult hb hupd hsame
  refine ⟨hresult, ?_, ?_⟩
  · have hm' : Maps st' own' .machine (regionOf gm) e := by
      rw [hregion, hupd, if_pos ⟨rfl, rfl⟩]
    exact grants_machine hb.inv hacc hm'
  · intro hnc
    have hm' : Maps st own .machine (regionOf gm) e := by
      rw [hregion]
      exact hsame hnc
    exact grants_machine h hacc hm'

/-- The shadow table grants the access after `update_shadow_pt`; if no change is reported, its
    entry did before. -/
theorem updateShadowPt_grants (h : VmInv L root st own free ∅) (hroot : root ≠ 0) {gu hm : Nat}
    (hgu : gu < 2 ^ 39) (hlow : gu % 4096 = hm % 4096) (hlo : GUEST_BASE ≤ hm) (hhi : hm < 2 ^ 56)
    (hacc : IsAccess acc) (hupdate : updateShadowPt L root gu hm acc st = .ok (result, st')) :
    grants st' root gu acc = true ∧ (result = .notChanged →
      ∃ old, Maps st own .shadow (pageOf gu) old ∧ old.testBit acc.toNat = true) := by
  have hpage : pageOf gu = gu / 4096 := by
    unfold pageOf
    omega
  obtain ⟨-, own', free', old, hb, hold, hupd, hsame⟩ :=
    (updateShadowPt_spec h hroot hgu hlow hlo hhi hacc).ok hupdate
  dsimp only at hb hupd hsame
  constructor
  · have hm' : Maps st' own' .shadow (pageOf gu) (shadowEntry old hm acc) := by
      rw [hpage, hupd, if_pos ⟨rfl, rfl⟩]
    have hbit : (shadowEntry old hm acc).testBit acc.toNat = true := by
      rw [testBit_shadowEntry _ _ _ acc.toNat_lt, testBit_permbit_self, Bool.true_or, Bool.or_true]
    exact grants_shadow hb.inv hroot hm' hbit
  · intro hnc
    have hbit := hsame hnc
    refine ⟨old, ?_, hbit⟩
    rw [hpage, hold]
    exact ⟨rfl, ne_zero_of_testBit hbit⟩

end

/-! ### The handler -/

/-- A device access was emulated, and the guest goes on after the instruction. -/
def DeviceEmulated (L : Layout) (stale : Nat → Nat) (acc : MempermIndex) (access : DecodedAccess)
    (s s' : State) : Prop :=
  ∃ gm t host, faultToGm L stale access.address.toNat s = .ok (gm, t) ∧
    emulateDevice acc access gm t = (.success, s') ∧
    resolveInstruction L s s.hart.mepc = .ok host ∧
    s'.hart.mepc = s.hart.mepc + BitVec.ofNat 64 (instructionLength s.store.mem host)

/-- The table in use lets the guest retry the access. -/
def Retriable (L : Layout) (acc : MempermIndex) (va : Nat) (s s' : State) : Prop :=
  s'.hart.mepc = s.hart.mepc ∧ grants s'.store (activePt L s' s'.host.currentGuest) va acc = true

/-- Below guest RAM: devices. -/
theorem deviceEmulated_of_success {stale : Nat → Nat} {access : DecodedAccess} {gm : Nat}
    {t : State} (haccess : decodeFault L acc s = .ok access)
    (hgm : faultToGm L stale access.address.toNat s = .ok (gm, t))
    (hdev : emulateDevice acc access gm t = (.success, s')) :
    DeviceEmulated L stale acc access s s' := by
  obtain ⟨hrw, hmepc⟩ := emulateDevice_success hdev
  obtain ⟨host, hhost, hlen⟩ := decodeFault_advance hrw haccess
  refine ⟨gm, t, host, hgm, hdev, hhost, ?_⟩
  obtain ⟨st, rfl⟩ := faultToGm_store hgm
  rw [hmepc, hlen]
  exact legalMepc_add s.hart.mepc_even (instructionLength_even _ _)

/-- In guest RAM: the table in use grants the access afterwards, and did before if no change is
    reported. -/
theorem finishFault_progress {access : DecodedAccess} {gm : Nat} (h : Core L s)
    {own own₁ : Owner Tree} {free free₁ : List Nat} {st₁ st₂ : Store} {n : Nat}
    (hvm : VmInv L s.guest.shadowPageTable s.store own free ∅)
    (hb : Builds L s.guest.shadowPageTable s.store free st₁ own₁ free₁ n)
    (hsame : ∀ key e, Maps st₁ own₁ .shadow key e ↔ Maps s.store own .shadow key e)
    (hstay : s.guest.shadowPtActive = false → st₁ = s.store ∧ gm = access.address.toNat)
    (hgm : InGuestRam gm) (hmod : gm % 4096 = access.address.toNat % 4096) (hacc : IsAccess acc)
    {result₁ result : PageFaultHandlerResult} {hm : Option Nat} {va : Word}
    (hens : ensureGuestMachineMapped L 0 gm st₁ = .ok (result₁, hm, st₂))
    (hfinish : finishFault L acc access gm result₁ hm { s with store := st₂ } =
      .ok (result, va, s')) :
    access.address = va ∧ (result = .success → Retriable L acc va.toNat s s') ∧
      (result = .notChanged → grants s.store (activeRoot L s.guest) va.toNat acc = true) := by
  obtain ⟨hresult₁, hhm, own₂, free₂, e, hb₂, hupd, -⟩ :=
    (ensureGuestMachineMapped_spec hb.inv hgm.1 hgm.2).ok hens
  dsimp only at hresult₁ hhm hb₂ hupd
  subst hhm
  rw [finishFault_ram hresult₁] at hfinish
  have hactive := h.activePt_eq
  by_cases hact : s.guest.shadowPtActive = true
  · rw [if_pos hact] at hfinish
    obtain ⟨⟨result', st₃⟩, hupdate, hret⟩ := bind_eq_ok.mp hfinish
    cases hret
    have hroot := (h.priv.active hact).2
    have hlow : access.address.toNat % 4096 = (gm + GUEST_MEMORY_OFFSET) % 4096 := by
      rw [add_guestMemoryOffset_mod, hmod]
    -- an address above the table's range is reported as too high, which promises nothing
    by_cases hva : access.address.toNat < 2 ^ 39
    swap
    · rw [updateShadowPt_tooHigh (Nat.le_of_not_lt hva) hlow] at hupdate
      cases hupdate
      refine ⟨rfl, ?_, ?_⟩
      · intro hresult
        cases hresult
      · intro hresult
        cases hresult
    have htable : activeRoot L s.guest = s.guest.shadowPageTable := if_pos hact
    obtain ⟨hgrants, hnc⟩ := updateShadowPt_grants hb₂.inv hroot hva hlow
      (Nat.add_le_add_right hgm.1 _) hgm.host_lt hacc hupdate
    refine ⟨rfl, ?_, ?_⟩
    · intro _
      refine ⟨rfl, ?_⟩
      show grants st₃ (activePt L s s.host.currentGuest) _ acc = true
      rw [hactive, htable]
      exact hgrants
    · intro hresult
      -- the entry is not one that this fault has put there
      obtain ⟨old, hm, hbit⟩ := hnc hresult
      rw [hupd, if_neg (by simp), hsame] at hm
      rw [htable]
      exact grants_shadow hvm hroot hm hbit
  · rw [if_neg hact] at hfinish
    cases hfinish
    obtain ⟨rfl, rfl⟩ := hstay (eq_false_of_ne_true hact)
    have htable : activeRoot L s.guest = L.machineRoot 0 := if_neg hact
    obtain ⟨-, hgrants, hnc⟩ := ensureGuestMachineMapped_grants hvm hgm hacc hens
    refine ⟨rfl, ?_, ?_⟩
    · intro _
      refine ⟨rfl, ?_⟩
      show grants st₂ (activePt L s s.host.currentGuest) _ acc = true
      rw [hactive, htable]
      exact hgrants
    · intro hresult
      rw [htable]
      exact hnc hresult

/-- On the machine table addresses are not translated. -/
theorem faultToGm_inactive {stale : Nat → Nat} {va gm : Nat} {st : Store}
    (hact : s.guest.shadowPtActive = false)
    (h : faultToGm L stale va s = .ok (gm, { s with store := st })) : st = s.store ∧ gm = va := by
  unfold faultToGm at h
  rw [hact, Bool.not_false, if_pos rfl] at h
  obtain ⟨hgm, hst⟩ := Prod.mk.inj (Except.ok.inj h)
  exact ⟨(congrArg State.store hst).symm, hgm.symm⟩

/-- **Page faults make progress.**  In every reachable state, when the guest's access of type `acc`
    to `va` faults and the table in use does not grant it, the handler does not report "no change";
    and if it reports success, a device access was emulated and the guest goes on after the
    instruction, or the guest retries the instruction and the table in use now grants
    the access. -/
theorem page_fault_progress (h : Reachable L s) {mcause mtval : Word} {reads : MtimeReads}
    {stale : Nat → Nat} {t t' : State} (entry : t = suspended L reads (s.trapEntry mcause mtval))
    {result : PageFaultHandlerResult} {va : Word}
    (fault : handlePageFault L stale acc t = .ok (result, va, t'))
    (missing : grants t.store (activePt L t t.host.currentGuest) va.toNat acc = false) :
    ∃ access, decodeFault L acc t = .ok access ∧ access.address = va ∧ result ≠ .notChanged ∧
      (result = .success →
        DeviceEmulated L stale acc access t t' ∨ Retriable L acc va.toNat t t') := by
  have hcore : Core L t := by
    rw [entry]
    exact ((h.inv.trapEntry mcause mtval).suspended reads).core
  obtain ⟨own, free, hvm⟩ := hcore.mem.vm
  obtain ⟨access, gm, st₁, haccess, rfl, hgm, hcases⟩ := handlePageFault_cases fault
  refine ⟨access, haccess, rfl, ?_⟩
  rcases hcases with ⟨-, hdev⟩ | ⟨-, rfl, -⟩ | ⟨hram, result₁, hm, st₂, hens, -, hfinish⟩
  · refine ⟨fun hunchanged => ?_, fun hresult => Or.inl ?_⟩
    · have hresult := emulateDevice_result acc access gm { t with store := st₁ }
      rw [hdev, hunchanged] at hresult
      rcases hresult with hc | hc
      · cases hc
      · cases hc
    · rw [hresult] at hdev
      exact deviceEmulated_of_success haccess hgm hdev
  · -- above guest RAM the handler reports "too high", and nothing is promised
    exact ⟨by decide, fun hresult => by cases hresult⟩
  · have hacc := (decodeFault_spec t acc).ok haccess
    obtain ⟨st, own₁, free₁, heq, hb₁, hsame₁, hmod, -⟩ :=
      (faultToGm_spec hcore hvm stale access.address.isLt).ok hgm
    obtain rfl : st₁ = st := congrArg State.store heq
    rw [show t.host.currentGuest.machine = 0 by rw [hcore.current]] at hens
    rw [hcore.activePt_eq] at missing
    obtain ⟨-, hdone, hnc⟩ := finishFault_progress hcore hvm hb₁ hsame₁
      (fun hact => faultToGm_inactive hact hgm) hram hmod hacc hens hfinish
    refine ⟨fun hunchanged => ?_, fun hresult => Or.inr (hdone hresult)⟩
    rw [hnc hunchanged] at missing
    cases missing

/-- The fault of a fetch from `pc`. -/
def sampleFetchFault (pc : Word) (s : State) : State :=
  suspended sampleLayout (sampleReads 300) ((s.guestRun (fun _ => 0) pc).trapEntry 12 0)

/-- That fetch is not granted by the table in use, and its fault is handled: `t'` is the state
    after it. -/
structure FetchHandled (pc : Word) (s t' : State) : Prop where
  reach : Reachable sampleLayout s
  fault : handlePageFault sampleLayout (fun _ => 0) .x (sampleFetchFault pc s) =
    .ok (.success, pc, t')
  missing : grants (sampleFetchFault pc s).store (activePt sampleLayout (sampleFetchFault pc s)
    (sampleFetchFault pc s).host.currentGuest) pc.toNat .x = false

/-- What is to be computed of it, with the table that is in use. -/
def sampleFetchView (pc : Word) (s : State) :
    Option (PageFaultHandlerResult × Word) × Bool × Bool :=
  let t := sampleFetchFault pc s
  ((handlePageFault sampleLayout (fun _ => 0) .x t).toOption.map (fun r => (r.1, r.2.1)),
    grants t.store (activePt sampleLayout t t.host.currentGuest) pc.toNat .x,
    s.guest.shadowPtActive)

theorem exists_fetchHandled (ram : Mem) (traps : List SampleTrap) (pc : Word) (active : Bool)
    (hlen : traps.length < 2 ^ 32)
    (hrun : (sampleRun 0 traps (bootMain sampleLayout (sampleMachine ram))).toOption.map
      (sampleFetchView pc) = some (some (.success, pc), false, active)) :
    ∃ s t', FetchHandled pc s t' ∧ s.guest.shadowPtActive = active := by
  obtain ⟨s, hreach, hs⟩ := exists_reachable _ _ (sampleFetchView pc) _ hlen hrun
  obtain ⟨hfault, hview⟩ := Prod.mk.inj hs
  obtain ⟨hmissing, hactive⟩ := Prod.mk.inj hview
  obtain ⟨⟨result, va, t'⟩, hok, hr⟩ := map_toOption_eq_some.mp hfault
  obtain ⟨rfl, rfl⟩ := Prod.mk.inj hr
  exact ⟨s, t', ⟨hreach, hok, hmissing⟩, hactive⟩

/-- Two fetches that fault, of which nothing is mapped before and all after: the first one of the
    guest's kernel on the machine table, and the first one of its user mode on the shadow table. -/
theorem page_fault_progress_first_fetches :
    (∃ s t', FetchHandled 0x80000000 s t' ∧ s.guest.shadowPtActive = false ∧
      ∃ access, DeviceEmulated sampleLayout (fun _ => 0) .x access
          (sampleFetchFault 0x80000000 s) t' ∨
        Retriable sampleLayout .x 0x80000000 (sampleFetchFault 0x80000000 s) t') ∧
    ∃ s t', FetchHandled 0x80000008 s t' ∧ s.guest.shadowPtActive = true ∧
      ∃ access, DeviceEmulated sampleLayout (fun _ => 0) .x access
          (sampleFetchFault 0x80000008 s) t' ∨
        Retriable sampleLayout .x 0x80000008 (sampleFetchFault 0x80000008 s) t' := by
  have hprogress : ∀ {pc s t'}, FetchHandled pc s t' →
      ∃ access, DeviceEmulated sampleLayout (fun _ => 0) .x access (sampleFetchFault pc s) t' ∨
        Retriable sampleLayout .x pc.toNat (sampleFetchFault pc s) t' := by
    intro pc s t' h
    obtain ⟨access, -, -, -, hdone⟩ := page_fault_progress
      (h.reach.step (.run (fun _ => 0) pc)) (show sampleFetchFault pc s = _ from rfl) h.fault
      h.missing
    exact ⟨access, hdone rfl⟩
  constructor
  · obtain ⟨s, t', h, hactive⟩ := exists_fetchHandled (fun _ => 0) [] 0x80000000 false (by decide)
      (by decide +kernel)
    exact ⟨s, t', h, hactive, hprogress h⟩
  · obtain ⟨s, t', h, hactive⟩ := exists_fetchHandled (sampleUser 0x2000001F)
      (sampleEnterUser (8 <<< 60 + 0x80010)) 0x80000008 true (by decide) (by decide +kernel)
    exact ⟨s, t', h, hactive, hprogress h⟩

end RiscvHypervisor
