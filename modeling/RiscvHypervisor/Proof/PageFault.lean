import RiscvHypervisor.Proof.DeviceMap
import RiscvHypervisor.Proof.Handlers
import RiscvHypervisor.Proof.Walk

namespace RiscvHypervisor

open RadixForest Except

/-!
# Page faults

`handle_page_fault` as a whole: it keeps the invariant, and on the shadow table it changes at most
the leaf of the faulting page (`handlePageFault_spec`).  The content of the shadow table is read
as the MMU reads it, by `shadowPte`.  What a handled fault can do at all is in
`handlePageFault_cases`.
-/

variable {L : Layout} {s s' : State}

/-! ### Devices -/

/-- What an access to a device leaves alone.  The store changes by what the device sends.  The
    guest's timer is re-armed by a store to `mtimecmp`, which is then on the trace. -/
structure DeviceAccess (s s' : State) : Prop where
  store : ∃ sent, s'.store = printStringSlice sent s.store
  current : s'.host.currentGuest = s.host.currentGuest
  satp : s'.hart.satp = s.hart.satp
  satpSince : s'.satpSince = s.satpSince
  effect : s'.guest = s.guest ∧ s'.trace = s.trace ∨
    ∃ v, s'.guest = { s.guest with timerDeadline := v, timerScheduled := true } ∧
      s'.trace = .mtimecmpStore v :: s.trace

theorem DeviceAccess.sameMem (hd : DeviceAccess s s') : SameMem s.store s'.store := by
  obtain ⟨sent, hsent⟩ := hd.store
  rw [hsent]
  exact SameMem.print sent s.store

theorem DeviceAccess.core (hd : DeviceAccess s s') (h : Core L s) : Core L s' := by
  rcases hd.effect with ⟨hguest, htrace⟩ | ⟨v, hguest, htrace⟩
  · exact h.congr hd.current hguest hd.sameMem hd.satp htrace
  · refine ⟨by rw [hd.current, h.current], ?_, ?_⟩
    · rw [hguest]
      exact h.mem.same hd.sameMem
    · rw [hguest, hd.satp, htrace]
      refine ⟨h.priv.satp_eq, h.priv.active, h.priv.mdt, h.priv.cause, ?_⟩
      have hcount := h.priv.count
      have hstores : mtimecmpStores (.mtimecmpStore v :: s.trace) = mtimecmpStores s.trace + 1 :=
        List.countP_cons_of_pos rfl
      have htraps : timerTraps (.mtimecmpStore v :: s.trace) = timerTraps s.trace := by
        unfold timerTraps
        rw [List.count_cons_of_ne (by simp)]
      simp only [hstores, htraps, Bool.toNat_true]
      omega

/-- The mode of the guest is not the business of a device. -/
theorem DeviceAccess.mode (hd : DeviceAccess s s') :
    s'.guest.csr = s.guest.csr ∧ s'.guest.shadowPageTable = s.guest.shadowPageTable ∧
      s'.guest.shadowPtActive = s.guest.shadowPtActive ∧ (Settled s.guest → Settled s'.guest) := by
  rcases hd.effect with ⟨hguest, -⟩ | ⟨v, hguest, -⟩
  · rw [hguest]
    exact ⟨rfl, rfl, rfl, id⟩
  · rw [hguest]
    exact ⟨rfl, rfl, rfl, id⟩

theorem DeviceAccess.refl (s : State) : DeviceAccess s s :=
  ⟨⟨[], (printStringSlice_nil s.store).symm⟩, rfl, rfl, rfl, Or.inl ⟨rfl, rfl⟩⟩

/-- Loads change registers and the UART. -/
theorem LoadEffect.deviceAccess {access : DecodedAccess} {gm : Nat}
    (h : LoadEffect access gm s s') : DeviceAccess s s' := by
  obtain ⟨d, v, -, -, hs'⟩ := h
  rw [hs']
  exact ⟨⟨[], (printStringSlice_nil s.store).symm⟩, rfl, rfl, rfl, Or.inl ⟨rfl, rfl⟩⟩

/-- Stores change the UART, or the guest's timer. -/
theorem StoreEffect.deviceAccess {access : DecodedAccess} {gm : Nat}
    (h : StoreEffect access gm s s') : DeviceAccess s s' := by
  obtain ⟨d, s₁, ⟨-, -, hreceive⟩, -, rfl⟩ := h
  obtain ⟨hhost, hhart, hsince, -, hstore⟩ := DeviceRegister.receive_frame hreceive
  have hsatp : s₁.hart.satp = s.hart.satp := by rw [hhart]
  refine ⟨⟨_, hstore⟩, congrArg HostThreadData.currentGuest hhost, hsatp, hsince, ?_⟩
  cases d with
  | mtimecmp =>
    cases hreceive
    refine Or.inr ⟨_, ?_, rfl⟩
    rw [State.guest_setMepc, State.guest_observe, State.guest_setGuest]
  | mtime => cases hreceive
  | uartLsr => cases hreceive
  | _ =>
    cases hreceive
    exact Or.inl ⟨rfl, rfl⟩

theorem emulateDevice_spec (acc : MempermIndex) (access : DecodedAccess) (gm : Nat) (s : State) :
    DeviceAccess s (emulateDevice acc access gm s).2 := by
  rcases emulateDevice_cases acc access gm s with ⟨s', hdev, ⟨-, hload⟩ | ⟨-, hstore⟩⟩ | hdev
  · rw [hdev]
    exact hload.deviceAccess
  · rw [hdev]
    exact hstore.deviceAccess
  · rw [hdev]
    exact DeviceAccess.refl s

/-! ### The shadow table as the MMU reads it -/

/-- The leaf entry of page `p` in the shadow table at `root`. -/
def shadowPte (st : Store) (root p : Nat) : Option Nat :=
  (Sv39.walk st.load64 (p * 4096) 2 root).map Sv39.Leaf.pte

section

variable {root : Nat} {st st' : Store} {own own' : Owner Tree} {free free' : List Nat}

theorem shadowPte_eq_some (h : VmInv L root st own free ∅) (hroot : root ≠ 0) {p e : Nat}
    (hp : p < 2 ^ 27) : shadowPte st root p = some e ↔ Maps st own .shadow p e := by
  have hpage : pageOf (p * 4096) = p := by
    unfold pageOf
    omega
  unfold shadowPte
  rw [Option.map_eq_some_iff]
  constructor
  · rintro ⟨l, hl, rfl⟩
    rw [walk_shadow h hroot, hpage] at hl
    exact hl.2.1
  · rintro ⟨t, ht, he, hne⟩
    refine ⟨⟨0, t + 8 * (p % 512), e⟩, ?_, rfl⟩
    rw [walk_shadow h hroot, hpage]
    exact ⟨rfl, ⟨t, ht, he, hne⟩, t, ht, rfl⟩

/-- Steps that keep the content of the shadow tree keep its entries. -/
theorem shadowPte_congr (h : VmInv L root st own free ∅) (h' : VmInv L root st' own' free' ∅)
    (hroot : root ≠ 0)
    (hsame : ∀ key e, Maps st' own' .shadow key e ↔ Maps st own .shadow key e) {p : Nat}
    (hp : p < 2 ^ 27) : shadowPte st' root p = shadowPte st root p := by
  ext e
  rw [shadowPte_eq_some h' hroot hp, shadowPte_eq_some h hroot hp, hsame]

/-- An update of the shadow tree changes the one entry. -/
theorem shadowPte_update (h : VmInv L root st own free ∅) (h' : VmInv L root st' own' free' ∅)
    (hroot : root ≠ 0) {key e p : Nat} (hupd : MapsUpdate st own st' own' .shadow key e)
    (hp : p < 2 ^ 27) :
    shadowPte st' root p = if p = key then some e else shadowPte st root p := by
  ext e'
  rw [shadowPte_eq_some h' hroot hp, hupd]
  by_cases hk : p = key
  · rw [if_pos ⟨rfl, hk⟩, if_pos hk, Option.some_inj, eq_comm]
  · rw [if_neg (fun hc => hk hc.2), if_neg hk, shadowPte_eq_some h hroot hp]

end

/-! ### The handler -/

/-- What a page fault does, given the guest-machine address `gm` of the faulting address `va`. -/
structure FaultEffect (L : Layout) (acc : MempermIndex) (s : State) (va gm : Nat) (s' : State) :
    Prop where
  core : Core L s'
  csr : s'.guest.csr = s.guest.csr
  table : s'.guest.shadowPageTable = s.guest.shadowPageTable
  active : s'.guest.shadowPtActive = s.guest.shadowPtActive
  settled : Settled s.guest → Settled s'.guest
  ram : SameGuestRam s.store s'.store
  shadow : s.guest.shadowPtActive = true → ∀ p, p < 2 ^ 27 →
    shadowPte s'.store s.guest.shadowPageTable p =
      if p = va / 4096 ∧ InGuestRam gm then
        some (shadowEntry ((shadowPte s.store s.guest.shadowPageTable p).getD 0)
          (gm + GUEST_MEMORY_OFFSET) acc)
      else shadowPte s.store s.guest.shadowPageTable p

/-- A store the table builders made. -/
theorem Core.setStore (h : Core L s) {own' : Owner Tree} {free free' : List Nat} {st' : Store}
    {n : Nat} (hb : Builds L s.guest.shadowPageTable s.store free st' own' free' n) :
    Core L { s with store := st' } where
  current := h.current
  mem := by
    refine ⟨⟨own', free', hb.inv⟩, ?_, ?_⟩
    · intro c hc
      rw [show ({ s with store := st' } : State).store.freed = s.store.freed from hb.freed] at hc
      exact h.mem.freed c hc
    · intro h0
      rw [show ({ s with store := st' } : State).store.freed = s.store.freed from hb.freed]
      exact h.mem.unfreed h0
  priv := h.priv

/-- The first translation of a faulting address changes the machine table at most. -/
theorem faultToGm_spec (h : Core L s) {own : Owner Tree} {free : List Nat}
    (hvm : VmInv L s.guest.shadowPageTable s.store own free ∅) (stale : Nat → Nat) {va : Nat}
    (hva : va < 2 ^ 64) :
    (faultToGm L stale va s).Post (fun e => ¬ e.Excluded)
      (fun r => ∃ st' own' free', r.2 = { s with store := st' } ∧
        Builds L s.guest.shadowPageTable s.store free st' own' free' 2 ∧
        (∀ key e, Maps st' own' .shadow key e ↔ Maps s.store own .shadow key e) ∧
        r.1 % 4096 = va % 4096 ∧ r.1 < 2 ^ 64 ∧
        (s.guest.shadowPtActive = true → WalkInRam (guestRead s.store) s.guest.csr.satpPpn va →
          resolveGu (guestRead s.store) s.guest.csr.satpPpn va = some r.1)) := by
  unfold faultToGm
  by_cases hact : s.guest.shadowPtActive = true
  · -- on the shadow table the guest's own table is walked first
    rw [hact, Bool.not_true, if_neg (by simp), h.current]
    refine Post.bind ((tryResolveGuToGm_spec hvm stale s.guest.csr.satpPpn va).mono ?_
      (fun _ hr => hr)) ?_
    · rintro e ⟨rfl, -⟩
      simp [Panic.Excluded]
    rintro ⟨gm, st'⟩ ⟨own', free', hb, hsame, hmod, hwalk⟩
    cases gm with
    | none => simp [Panic.Excluded]
    | some gm =>
      refine post_ok.mpr ⟨st', own', free', rfl, hb, hsame, (hmod gm rfl).1, (hmod gm rfl).2, ?_⟩
      intro _ hram
      exact (hwalk hram).symm
  · -- on the machine table the address is a guest-physical one already
    rw [if_pos (by simpa using hact)]
    exact post_ok.mpr ⟨s.store, own, free, rfl, (Builds.refl hvm).mono (Nat.zero_le 2),
      fun _ _ => Iff.rfl, rfl, hva, fun hc => absurd hc hact⟩

/-- The end of the handler for an address outside guest RAM: the tables are done with. -/
theorem FaultEffect.of_device {acc : MempermIndex} {va gm : Nat} {s₁ : State} (h : Core L s)
    {own own₁ : Owner Tree} {free free₁ : List Nat} {st₁ : Store} {n : Nat}
    (hvm : VmInv L s.guest.shadowPageTable s.store own free ∅)
    (hb : Builds L s.guest.shadowPageTable s.store free st₁ own₁ free₁ n)
    (hsame : ∀ key e, Maps st₁ own₁ .shadow key e ↔ Maps s.store own .shadow key e)
    (hgm : ¬ InGuestRam gm) (hd : DeviceAccess { s with store := st₁ } s₁) :
    FaultEffect L acc s va gm s₁ := by
  obtain ⟨hcsr, htable, hactive, hset⟩ := hd.mode
  refine ⟨hd.core (h.setStore hb), hcsr, htable, hactive, hset, ?_, ?_⟩
  · exact hb.ram.trans hd.sameMem.sameGuestRam
  · intro hact p hp
    rw [if_neg (fun hc => hgm hc.2)]
    exact shadowPte_congr hvm (hb.inv.same hd.sameMem) (h.priv.active hact).2
      (fun key e => hd.sameMem.maps.trans (hsame key e)) hp

/-- The end of the handler for an address of guest RAM: the shadow table follows, if it
    is active. -/
theorem finishFault_ram {acc : MempermIndex} {access : DecodedAccess} {gm hm : Nat} {st : Store}
    {result : PageFaultHandlerResult} (hresult : result = .success ∨ result = .notChanged) :
    finishFault L acc access gm result (some hm) { s with store := st } =
      if s.guest.shadowPtActive then
        updateShadowPt L s.guest.shadowPageTable access.address.toNat hm acc st >>=
          fun r => .ok (r.1, access.address, { s with store := r.2 })
      else .ok (result, access.address, { s with store := st }) := by
  rcases hresult with rfl | rfl
  · rfl
  · rfl

/-- It keeps the invariant, and changes at most the leaf of the faulting page. -/
theorem finishFault_spec {acc : MempermIndex} {access : DecodedAccess} {gm : Nat} (h : Core L s)
    {own own₂ : Owner Tree} {free free₂ : List Nat} {st₂ : Store} {n : Nat}
    (hvm : VmInv L s.guest.shadowPageTable s.store own free ∅)
    (hb : Builds L s.guest.shadowPageTable s.store free st₂ own₂ free₂ n)
    (hsame : ∀ key e, Maps st₂ own₂ .shadow key e ↔ Maps s.store own .shadow key e)
    (hgm : InGuestRam gm) (hmod : gm % 4096 = access.address.toNat % 4096) (hacc : IsAccess acc)
    {result : PageFaultHandlerResult} (hresult : result = .success ∨ result = .notChanged) :
    (finishFault L acc access gm result (some (gm + GUEST_MEMORY_OFFSET))
        { s with store := st₂ }).Post (fun e => ¬ e.Excluded)
      (fun r => r.2.1 = access.address ∧ FaultEffect L acc s access.address.toNat gm r.2.2) := by
  have h₂ := h.setStore hb
  rw [finishFault_ram hresult]
  by_cases hact : s.guest.shadowPtActive = true
  swap
  · rw [if_neg hact]
    exact post_ok.mpr ⟨rfl, h₂, rfl, rfl, rfl, id, hb.ram, fun hc => absurd hc hact⟩
  rw [if_pos hact]
  have hroot := (h.priv.active hact).2
  have hlow : access.address.toNat % 4096 = (gm + GUEST_MEMORY_OFFSET) % 4096 := by
    rw [add_guestMemoryOffset_mod, hmod]
  by_cases hva : access.address.toNat < 2 ^ 39
  · refine Post.bind ((updateShadowPt_spec hb.inv hroot hva hlow (Nat.add_le_add_right hgm.1 _)
      hgm.host_lt hacc).mono ?_ (fun _ hr => hr)) ?_
    · rintro e ⟨rfl, -⟩
      simp [Panic.Excluded]
    rintro ⟨res, st₃⟩ ⟨-, own₃, free₃, old, hb₃, hold, hupd, -⟩
    refine post_ok.mpr ⟨rfl, h.setStore (hb.trans hb₃), rfl, rfl, rfl, id, (hb.trans hb₃).ram, ?_⟩
    intro _ p hp
    show shadowPte st₃ s.guest.shadowPageTable p = _
    rw [shadowPte_update hb.inv hb₃.inv hroot hupd hp, shadowPte_congr hvm hb.inv hroot hsame hp]
    by_cases hpage : p = access.address.toNat / 4096
    · rw [if_pos hpage, if_pos ⟨hpage, hgm⟩]
      -- the entry found by the builder is the one the MMU reads
      have hget : (shadowPte s.store s.guest.shadowPageTable p).getD 0 = old := by
        cases hpte : shadowPte s.store s.guest.shadowPageTable p with
        | some e =>
          rw [shadowPte_eq_some hvm hroot hp, ← hsame, hpage, hold] at hpte
          exact hpte.1
        | none =>
          by_contra hne
          have hmaps : Maps st₂ own₂ .shadow p old := by
            rw [hpage, hold]
            exact ⟨rfl, fun h0 => hne h0.symm⟩
          rw [hsame, ← shadowPte_eq_some hvm hroot hp, hpte] at hmaps
          cases hmaps
      rw [hget]
    · rw [if_neg hpage, if_neg (fun hc => hpage hc.1)]
  · rw [updateShadowPt_tooHigh (Nat.le_of_not_lt hva) hlow]
    refine post_ok.mpr ⟨rfl, h₂, rfl, rfl, rfl, id, hb.ram, ?_⟩
    intro _ p hp
    rw [if_neg (fun hc => by omega)]
    exact shadowPte_congr hvm hb.inv hroot hsame hp

/-- **`handle_page_fault`.**  The handler keeps the invariant; with the shadow table active, the
    address it works on is the one the guest's table gives, if that table is in RAM. -/
theorem handlePageFault_spec (h : Core L s) (stale : Nat → Nat) (acc : MempermIndex) :
    (handlePageFault L stale acc s).Post (fun e => ¬ e.Excluded)
      (fun r => IsAccess acc ∧ ∃ gm, FaultEffect L acc s r.2.1.toNat gm r.2.2 ∧
        (s.guest.shadowPtActive = true →
          WalkInRam (guestRead s.store) s.guest.csr.satpPpn r.2.1.toNat →
          resolveGu (guestRead s.store) s.guest.csr.satpPpn r.2.1.toNat = some gm)) := by
  obtain ⟨own, free, hvm⟩ := h.mem.vm
  unfold handlePageFault
  refine (decodeFault_spec s acc).bind (fun access hacc => ?_)
  refine (faultToGm_spec h hvm stale access.address.isLt).bind ?_
  rintro ⟨gm, s₁⟩ ⟨st₁, own₁, free₁, rfl, hb₁, hsame₁, hmod, hlt, hres⟩
  show (ensureGuestMachineMapped L s.host.currentGuest.machine gm st₁ >>= fun r =>
    finishFault L acc access gm r.1 r.2.1 { s with store := r.2.2 }).Post _ _
  rw [h.current]
  by_cases hgm : InGuestRam gm
  · refine Post.bind ((ensureGuestMachineMapped_spec hb₁.inv hgm.1 hgm.2).mono ?_
      (fun _ hr => hr)) ?_
    · rintro e ⟨rfl, -⟩
      simp [Panic.Excluded]
    rintro ⟨result, hm, st₂⟩ ⟨hresult, hhm, own₂, free₂, e₂, hb₂, hupd, -⟩
    simp only at hhm hresult hb₂ hupd
    subst hhm
    -- neither the walk nor the mapping touches the shadow table
    have hsame₂ : ∀ key e, Maps st₂ own₂ .shadow key e ↔ Maps s.store own .shadow key e := by
      intro key e
      rw [hupd, if_neg (by simp), hsame₁]
    refine (finishFault_spec h hvm (hb₁.trans hb₂) hsame₂ hgm hmod hacc hresult).mono
      (fun _ he => he) ?_
    rintro ⟨res, va, s'⟩ ⟨rfl, heff⟩
    exact ⟨hacc, gm, heff, hres⟩
  · by_cases hlo : RAM_START ≤ gm
    · rw [ensureGuestMachineMapped_tooHigh (Nat.le_of_not_lt (fun hhi => hgm ⟨hlo, hhi⟩))]
      refine post_ok.mpr ⟨hacc, gm, ?_, hres⟩
      exact FaultEffect.of_device h hvm hb₁ hsame₁ hgm (DeviceAccess.refl _)
    · rw [ensureGuestMachineMapped_tooLow (Nat.lt_of_not_le hlo)]
      refine post_ok.mpr ⟨hacc, gm, ?_, hres⟩
      exact FaultEffect.of_device h hvm hb₁ hsame₁ hgm (emulateDevice_spec _ _ _ _)

/-! ### What a page fault can do -/

/-- The first translation changes the store only. -/
theorem faultToGm_store {stale : Nat → Nat} {va gm : Nat}
    (h : faultToGm L stale va s = .ok (gm, t)) : ∃ st, t = { s with store := st } := by
  unfold faultToGm at h
  by_cases hact : s.guest.shadowPtActive = true
  · rw [if_neg (by simp [hact])] at h
    obtain ⟨⟨gm', st⟩, -, h⟩ := bind_eq_ok.mp h
    cases gm' with
    | none => cases h
    | some gm' =>
      cases h
      exact ⟨st, rfl⟩
  · rw [if_pos (by simpa using hact)] at h
    cases h
    exact ⟨s.store, rfl⟩

/-- In guest RAM the rest of the handler changes the store only. -/
theorem finishFault_store {acc : MempermIndex} {access : DecodedAccess} {gm hm : Nat} {st : Store}
    {result₁ result : PageFaultHandlerResult} {va : Word}
    (hresult₁ : result₁ = .success ∨ result₁ = .notChanged)
    (h : finishFault L acc access gm result₁ (some hm) { s with store := st } =
      .ok (result, va, s')) :
    ∃ st', s' = { s with store := st' } ∧ access.address = va := by
  rw [finishFault_ram hresult₁] at h
  split at h
  · obtain ⟨⟨result', st'⟩, -, h⟩ := bind_eq_ok.mp h
    cases h
    exact ⟨st', rfl, rfl⟩
  · cases h
    exact ⟨st, rfl, rfl⟩

/-- An address of guest RAM is mapped, or has been before. -/
theorem ensureGuestMachineMapped_inRam {machine : Int} {gm : Nat} (hgm : InGuestRam gm)
    {st st' : Store} {result : PageFaultHandlerResult} {hm : Option Nat}
    (h : ensureGuestMachineMapped L machine gm st = .ok (result, hm, st')) :
    (result = .success ∨ result = .notChanged) ∧ ∃ a, hm = some a := by
  have hlvl3 : gm >>> 30 < 512 := by
    have hhi := hgm.2
    rw [Nat.shiftRight_eq_div_pow]
    omega
  unfold ensureGuestMachineMapped at h
  rw [if_neg (Nat.not_lt.mpr hgm.1)] at h
  dsimp only at h
  rw [if_neg (Nat.not_le.mpr hlvl3)] at h
  obtain ⟨⟨c, st₁⟩, -, h⟩ := bind_eq_ok.mp h
  dsimp only at h
  split at h
  · cases h
    exact ⟨Or.inr rfl, _, rfl⟩
  · cases h
    exact ⟨Or.inl rfl, _, rfl⟩

/-- Below guest RAM the fault goes to the devices. -/
theorem handlePageFault_low {stale : Nat → Nat} {acc : MempermIndex} {access : DecodedAccess}
    {gm : Nat} {t : State} (haccess : decodeFault L acc s = .ok access)
    (hgm : faultToGm L stale access.address.toNat s = .ok (gm, t)) (hlow : gm < RAM_START) :
    handlePageFault L stale acc s =
      .ok ((emulateDevice acc access gm t).1, access.address,
        (emulateDevice acc access gm t).2) := by
  unfold handlePageFault
  refine bind_eq_ok.mpr ⟨access, haccess, bind_eq_ok.mpr ⟨_, hgm, ?_⟩⟩
  dsimp only
  rw [ensureGuestMachineMapped_tooLow hlow]
  rfl

/-- **Handled page faults.**  Which of the three ways the handler takes depends on where the
    guest-machine address is. -/
theorem handlePageFault_cases {stale : Nat → Nat} {acc : MempermIndex}
    {result : PageFaultHandlerResult} {va : Word}
    (h : handlePageFault L stale acc s = .ok (result, va, s')) :
    ∃ access gm st, decodeFault L acc s = .ok access ∧ access.address = va ∧
      faultToGm L stale va.toNat s = .ok (gm, { s with store := st }) ∧
      (gm < RAM_START ∧ emulateDevice acc access gm { s with store := st } = (result, s') ∨
        2 ^ 39 ≤ gm ∧ result = .tooHigh ∧ s' = { s with store := st } ∨
        InGuestRam gm ∧ ∃ result₁ hm st₂,
          ensureGuestMachineMapped L s.host.currentGuest.machine gm st =
            .ok (result₁, some hm, st₂) ∧
          (result₁ = .success ∨ result₁ = .notChanged) ∧
          finishFault L acc access gm result₁ (some hm) { s with store := st₂ } =
            .ok (result, va, s')) := by
  unfold handlePageFault at h
  obtain ⟨access, haccess, htranslate⟩ := bind_eq_ok.mp h
  obtain ⟨⟨gm, t⟩, hgm, hmap⟩ := bind_eq_ok.mp htranslate
  obtain ⟨⟨result₁, hm, st₂⟩, hens, hfinish⟩ := bind_eq_ok.mp hmap
  clear h htranslate hmap
  obtain ⟨st, rfl⟩ := faultToGm_store hgm
  dsimp only at hens hfinish
  by_cases hlow : gm < RAM_START
  · rw [ensureGuestMachineMapped_tooLow hlow] at hens
    cases hens
    unfold finishFault at hfinish
    cases hfinish
    exact ⟨access, gm, st₂, haccess, rfl, hgm, Or.inl ⟨hlow, rfl⟩⟩
  by_cases hhigh : 2 ^ 39 ≤ gm
  · rw [ensureGuestMachineMapped_tooHigh hhigh] at hens
    cases hens
    cases hfinish
    exact ⟨access, gm, st₂, haccess, rfl, hgm, Or.inr (Or.inl ⟨hhigh, rfl, rfl⟩)⟩
  · have hram : InGuestRam gm := ⟨Nat.le_of_not_lt hlow, Nat.lt_of_not_le hhigh⟩
    obtain ⟨hresult₁, a, rfl⟩ := ensureGuestMachineMapped_inRam hram hens
    obtain ⟨-, -, rfl⟩ := finishFault_store hresult₁ hfinish
    exact ⟨access, gm, st, haccess, rfl, hgm,
      Or.inr (Or.inr ⟨hram, result₁, a, st₂, hens, hresult₁, hfinish⟩)⟩

end RiscvHypervisor
