import RiscvHypervisor.Model.Fences
import RiscvHypervisor.Proof.AddressRange
import RiscvHypervisor.Proof.MachineTable
import RiscvHypervisor.Proof.Refinement

namespace RiscvHypervisor

open ByteMem RadixForest Except Transition

/-!
# The fences suffice

Whatever a hart caches of the page tables, it translates by the tables as they are.

* `State.Steady` — what a handler leaves to be cached: nothing since its last write;
* `exception_steady` — every handler writes no table and not `satp`, or ends with a fence;
* `State.Fresh` — all that may be cached is as in memory, up to accessed and dirty bits;
* `State.Fresh.answers` — fresh caches answer as the tables do;
* `fences_suffice` — the system with caches has the runs of the system without.
-/

variable {L : Layout} {s s' t : State}

/-! ### Steady stores -/

/-- From `st` to `st'` nothing has been written, or the last write is followed by a fence. -/
def Store.Steady (st st' : Store) : Prop :=
  st'.since = [] ∨ st'.mem = st.mem ∧ st'.since = st.since

namespace Store.Steady

variable {st st' st'' : Store}

/-- What does not write is steady. -/
theorem refl (st : Store) : st.Steady st := Or.inr ⟨rfl, rfl⟩

/-- A fence is. -/
theorem fenced (h : st'.since = []) : st.Steady st' := Or.inl h

/-- A fence stays one, if nothing is written after it. -/
theorem trans (h : st.Steady st') (h' : st'.Steady st'') : st.Steady st'' := by
  rcases h' with hfence | ⟨hmem', hsince'⟩
  · exact Or.inl hfence
  · rcases h with hfence | ⟨hmem, hsince⟩
    · exact Or.inl (hsince'.trans hfence)
    · exact Or.inr ⟨hmem'.trans hmem, hsince'.trans hsince⟩

/-- Printing writes no memory. -/
theorem print (slc : List (BitVec 8)) (st : Store) : st.Steady (printStringSlice slc st) :=
  Or.inr ⟨rfl, rfl⟩

end Store.Steady

section

variable {root : Nat} {st st' : Store} {own : Owner Tree} {free : List Nat}

/-- `ensure_guest_machine_mapped` fences on the path that returns `PFHR_SUCCESS`, and writes nothing
    on the others: a table that is there already is only read. -/
theorem ensureGuestMachineMapped_steady (h : VmInv L root st own free ∅) {gm : Nat}
    {result : PageFaultHandlerResult} {hm : Option Nat}
    (hens : ensureGuestMachineMapped L 0 gm st = .ok (result, hm, st')) : st.Steady st' := by
  by_cases hram : InGuestRam gm
  swap
  · obtain ⟨result', heq⟩ := ensureGuestMachineMapped_outside L st hram
    rw [heq] at hens
    cases hens
    exact Store.Steady.refl st
  obtain ⟨hcases, -, own', free', e, -, -, hmaps⟩ :=
    (ensureGuestMachineMapped_spec h hram.1 hram.2).ok hens
  rcases hcases with hresult | hresult
  · -- the region is new: the function has gone all the way to its fence
    have hresult' : result = .success := hresult
    subst hresult'
    unfold ensureGuestMachineMapped at hens
    dsimp only at hens
    split at hens
    · cases hens
    split at hens
    · cases hens
    obtain ⟨⟨c, st₁⟩, -, hens⟩ := bind_eq_ok.mp hens
    dsimp only at hens
    split at hens
    · cases hens
    · cases hens
      exact Store.Steady.fenced rfl
  · have hhit := ensureGuestMachineMapped_hit h hram.1 hram.2 (hmaps hresult)
    rw [hhit] at hens
    cases hens
    exact Store.Steady.refl st

/-- A leaf of the shadow table is written under a fence, or not at all. -/
theorem writeShadowLeaf_steady {parent vpn0 hmPage : Nat} {acc : MempermIndex}
    {result : PageFaultHandlerResult}
    (h : writeShadowLeaf parent vpn0 hmPage acc st = (result, st')) :
    result = .success ∧ st'.since = [] ∨ result = .notChanged ∧ st' = st := by
  rcases writeShadowLeaf_cases parent vpn0 hmPage acc st with heq | ⟨v, heq⟩
  · rw [heq] at h
    cases h
    exact Or.inr ⟨rfl, rfl⟩
  · rw [heq] at h
    cases h
    exact Or.inl ⟨rfl, rfl⟩

/-- So does `update_shadow_pt`: the tables on the way are there if the leaf is. -/
theorem updateShadowPt_steady (h : VmInv L root st own free ∅) (hroot : root ≠ 0) {gu hm : Nat}
    {acc : MempermIndex} (hlow : gu % 4096 = hm % 4096) (hlo : GUEST_BASE ≤ hm) (hhi : hm < 2 ^ 56)
    (hacc : IsAccess acc) {result : PageFaultHandlerResult}
    (hupdate : updateShadowPt L root gu hm acc st = .ok (result, st')) : st.Steady st' := by
  by_cases hgu : gu < 2 ^ 39
  swap
  · rw [updateShadowPt_tooHigh (Nat.le_of_not_lt hgu) hlow] at hupdate
    cases hupdate
    exact Store.Steady.refl st
  obtain ⟨hcases, own', free', old, -, hold, -, hbit⟩ :=
    (updateShadowPt_spec h hroot hgu hlow hlo hhi hacc).ok hupdate
  have hvpn2 : gu >>> 30 < 512 := by
    rw [Nat.shiftRight_eq_div_pow]
    omega
  have hvpn1 : (gu >>> 21) &&& 0x1FF < 512 := by
    rw [and_0x1FF]
    exact Nat.mod_lt _ (by decide)
  unfold updateShadowPt at hupdate
  rw [and_0xFFF, and_0xFFF, if_neg (not_not.mpr hlow)] at hupdate
  dsimp only at hupdate
  rw [if_neg (Nat.not_le.mpr hvpn2)] at hupdate
  by_cases hsuccess : result = .success
  · -- the leaf has been written, and the fence follows
    subst hsuccess
    obtain ⟨⟨c₁, st₁⟩, -, hupdate⟩ := bind_eq_ok.mp hupdate
    obtain ⟨⟨c₂, st₂⟩, -, hleaf⟩ := bind_eq_ok.mp hupdate
    rcases writeShadowLeaf_steady (Except.ok.inj hleaf) with ⟨-, hfence⟩ | ⟨hresult, -⟩
    · exact Store.Steady.fenced hfence
    · cases hresult
  · -- the leaf was there, hence both tables above it
    have hne := ne_zero_of_testBit (hbit (hcases.resolve_left hsuccess))
    obtain ⟨c', hc', -⟩ := (hold old).mpr ⟨rfl, hne⟩
    obtain ⟨c, hc, -⟩ := h.forest.parent hc' (by decide) (by simp)
    rw [ptFormat_width] at hc
    have hkey2 : gu / 4096 / 512 / 512 = 0 * 512 + gu >>> 30 := by
      rw [Nat.shiftRight_eq_div_pow]
      omega
    have hkey1 : gu / 4096 / 512 = gu / 4096 / 512 / 512 * 512 + ((gu >>> 21) &&& 0x1FF) := by
      rw [and_0x1FF, Nat.shiftRight_eq_div_pow]
      omega
    rw [childTable_hit h (h.shadow_of_ne_zero hroot) hvpn2 (by rw [← hkey2]; exact hc)] at hupdate
    rw [hkey1] at hc'
    obtain ⟨_, hroot', hupdate⟩ := bind_eq_ok.mp hupdate
    cases hroot'
    rw [childTable_hit h hc hvpn1 hc'] at hupdate
    rcases writeShadowLeaf_steady (Except.ok.inj hupdate) with ⟨hresult, -⟩ | ⟨-, heq⟩
    · exact absurd hresult hsuccess
    · rw [heq]
      exact Store.Steady.refl st

/-- The walk of the guest's table maps one of its pages after the other, by induction on its
    bound. -/
theorem resolveGuLoop_steady (stale : Nat → Nat) (gu : Nat) : ∀ (fuel co : Nat)
    (entry : UnpackedPagetableEntry) {st st' : Store} {own : Owner Tree} {free : List Nat}
    {gm : Option Nat}, VmInv L root st own free ∅ →
    resolveGuLoop L stale 0 gu fuel co entry st = .ok (gm, st') → st.Steady st' := by
  intro fuel
  induction fuel with
  | zero =>
    intro co entry st st' own free gm _ hr
    cases hr
  | succ fuel ih =>
    intro co entry st st' own free gm h hr
    by_cases hgo : GoesOn co entry
    · rw [resolveGuLoop_of_goesOn hgo] at hr
      obtain ⟨⟨result, hm, st₁⟩, hens, hr⟩ := bind_eq_ok.mp hr
      obtain ⟨⟨own₁, free₁, h₁⟩, -⟩ := ensureGuestMachineMapped_sameShadow h hens
      -- what is printed of the place of the page is between two steps of the walk
      have hprint : st₁.Steady (afterMapping (result, hm, st₁)) := Store.Steady.print _ _
      have hsame : SameMem st₁ (afterMapping (result, hm, st₁)) := SameMem.print _ _
      have hrest := ih _ _ (h₁.same hsame) hr
      exact (ensureGuestMachineMapped_steady h hens).trans (hprint.trans hrest)
    · rw [resolveGuLoop_of_not_goesOn hgo (guestRead st)] at hr
      cases hr
      exact Store.Steady.refl st

end

/-! ### Steady states -/

/-- From `s` to `s'` no table and not `satp` has been written, or the last write is followed by a
    fence. -/
structure State.Steady (s s' : State) : Prop where
  store : s.store.Steady s'.store
  satp : s'.satpSince = [] ∨ s'.hart.satp = s.hart.satp ∧ s'.satpSince = s.satpSince

namespace State.Steady

/-- What writes neither memory nor `satp` is steady. -/
theorem of_store (h : s.store.Steady s'.store) (hsatp : s'.hart.satp = s.hart.satp)
    (hsince : s'.satpSince = s.satpSince) : s.Steady s' := ⟨h, Or.inr ⟨hsatp, hsince⟩⟩

/-- So is what leaves the store, `satp` and their history alone. -/
theorem of_eq (hstore : s'.store = s.store) (hsatp : s'.hart.satp = s.hart.satp)
    (hsince : s'.satpSince = s.satpSince) : s.Steady s' := by
  refine of_store ?_ hsatp hsince
  rw [hstore]
  exact Store.Steady.refl _

theorem refl (s : State) : s.Steady s := of_eq rfl rfl rfl

theorem trans (h : s.Steady t) (h' : t.Steady s') : s.Steady s' := by
  refine ⟨h.store.trans h'.store, ?_⟩
  rcases h'.satp with hfence | ⟨hsatp', hsince'⟩
  · exact Or.inl hfence
  · rcases h.satp with hfence | ⟨hsatp, hsince⟩
    · exact Or.inl (hsince'.trans hfence)
    · exact Or.inr ⟨hsatp'.trans hsatp, hsince'.trans hsince⟩

/-- What goes before may change anything else. -/
theorem before (h : t.Steady s') (hstore : t.store = s.store) (hsatp : t.hart.satp = s.hart.satp)
    (hsince : t.satpSince = s.satpSince) : s.Steady s' := (of_eq hstore hsatp hsince).trans h

/-- `vmem_fence` makes anything steady. -/
theorem vmemFence (s t : State) : s.Steady t.vmemFence :=
  ⟨Store.Steady.fenced rfl, Or.inl rfl⟩

end State.Steady

/-! ### Privilege transitions -/

/-- `guest_exception` writes `satp` under a fence, or leaves it alone. -/
theorem guestException_steady {mcause : Word} (h : guestException L mcause s = .ok s') :
    s.Steady s' := by
  unfold guestException at h
  split at h
  · cases h
  dsimp only at h
  split at h
  · cases h
    exact (State.Steady.vmemFence s _).trans (State.Steady.of_eq rfl rfl rfl)
  · cases h
    exact State.Steady.of_eq rfl rfl rfl

/-- The check for deferred exceptions delivers one, or does nothing. -/
theorem Checked.steady (h : Checked L s s') : s.Steady s' := by
  obtain ⟨delivered, h⟩ := h
  unfold guestCheckDeferred at h
  split at h
  · cases h
    exact State.Steady.refl s
  split at h
  · obtain ⟨t, hdeliver, h⟩ := bind_eq_ok.mp h
    cases h
    exact (guestException_steady hdeliver).before rfl rfl rfl
  · cases h
    exact State.Steady.refl s

/-- `timer_on_interrupt` defers an exception, which may be delivered at once. -/
theorem timerOnInterrupt_steady (h : timerOnInterrupt L s = .ok s') : s.Steady s' := by
  unfold timerOnInterrupt at h
  split at h
  · cases h
    exact State.Steady.refl s
  split at h
  · cases h
  unfold guestDeferException at h
  split at h
  · cases h
    exact State.Steady.of_eq rfl rfl rfl
  · obtain ⟨⟨delivered, t⟩, hcheck, h⟩ := bind_eq_ok.mp h
    cases h
    exact (Checked.steady ⟨delivered, hcheck⟩).before rfl rfl rfl

/-- The translation is switched under a fence, or not at all. -/
theorem mretTranslation_steady (h : mretTranslation L s = .ok s') : s.Steady s' := by
  unfold mretTranslation at h
  dsimp only at h
  split at h
  · cases h
    exact State.Steady.refl s
  split at h
  · cases h
    exact State.Steady.vmemFence s _
  · cases h

/-- `guest_mret` switches the translation, and may deliver an exception after that. -/
theorem guestMret_steady (h : guestMret L s = .ok s') : s.Steady s' := by
  unfold guestMret at h
  split at h
  · cases h
  obtain ⟨t, hswitch, h⟩ := bind_eq_ok.mp h
  obtain ⟨⟨delivered, t'⟩, hcheck, h⟩ := bind_eq_ok.mp h
  cases h
  have hdeliver := Checked.steady ⟨delivered, hcheck⟩
  exact ((mretTranslation_steady hswitch).trans hdeliver).before rfl rfl rfl

/-! ### Page faults -/

/-- A device access writes neither memory nor `satp`. -/
theorem DeviceAccess.steady (h : DeviceAccess s s') : s.Steady s' := by
  obtain ⟨sent, hstore⟩ := h.store
  refine State.Steady.of_store ?_ h.satp h.satpSince
  rw [hstore]
  exact Store.Steady.print sent s.store

/-- The translation of a faulting address builds the machine table only. -/
theorem faultToGm_steady (hcore : Core L s) {stale : Nat → Nat} {va gm : Nat}
    (h : faultToGm L stale va s = .ok (gm, t)) : s.Steady t := by
  obtain ⟨own, free, hvm⟩ := hcore.mem.vm
  unfold faultToGm at h
  split at h
  · cases h
    exact State.Steady.refl s
  rw [hcore.current] at h
  obtain ⟨⟨out, st⟩, hwalk, h⟩ := bind_eq_ok.mp h
  cases out with
  | none => cases h
  | some out =>
    cases h
    exact State.Steady.of_store (resolveGuLoop_steady stale va 4 _ _ hvm hwalk) rfl rfl

/-- **Page faults.** -/
theorem handlePageFault_steady (hcore : Core L s) {stale : Nat → Nat} {acc : MempermIndex}
    {result : PageFaultHandlerResult} {va : Word}
    (h : handlePageFault L stale acc s = .ok (result, va, s')) : s.Steady s' := by
  obtain ⟨own, free, hvm⟩ := hcore.mem.vm
  obtain ⟨access, gm, st, haccess, rfl, hgm, hcases⟩ := handlePageFault_cases h
  have htranslate := faultToGm_steady hcore hgm
  rcases hcases with ⟨-, hdev⟩ | ⟨-, -, rfl⟩ | ⟨hram, result₁, hm, st₂, hens, hresult₁, hfinish⟩
  · have hspec := emulateDevice_spec acc access gm { s with store := st }
    rw [hdev] at hspec
    exact htranslate.trans hspec.steady
  · exact htranslate
  -- in RAM the machine table comes first, then the shadow table if it is in use
  obtain ⟨st₁, own₁, free₁, heq, hb₁, -, hmod, -⟩ :=
    (faultToGm_spec hcore hvm stale access.address.isLt).ok hgm
  have hst : st₁ = st := (congrArg State.store heq).symm
  subst hst
  rw [hcore.current] at hens
  obtain ⟨-, hhm, own₂, free₂, e, hb₂, -⟩ :=
    (ensureGuestMachineMapped_spec hb₁.inv hram.1 hram.2).ok hens
  have hhm' : hm = gm + GUEST_MEMORY_OFFSET := Option.some.inj hhm
  subst hhm'
  have hmapped : s.Steady { s with store := st₂ } := by
    refine htranslate.trans (State.Steady.of_store ?_ rfl rfl)
    exact ensureGuestMachineMapped_steady hb₁.inv hens
  rw [finishFault_ram hresult₁] at hfinish
  split at hfinish
  · rename_i hact
    obtain ⟨⟨result', st'⟩, hupdate, hfinish⟩ := bind_eq_ok.mp hfinish
    cases hfinish
    have hlow : access.address.toNat % 4096 = (gm + GUEST_MEMORY_OFFSET) % 4096 := by
      rw [add_guestMemoryOffset_mod, hmod]
    refine hmapped.trans (State.Steady.of_store ?_ rfl rfl)
    exact updateShadowPt_steady hb₂.inv (hcore.priv.active hact).2 hlow
      (Nat.add_le_add_right hram.1 _) hram.host_lt ((decodeFault_spec s acc).ok haccess) hupdate
  · cases hfinish
    exact hmapped

/-! ### Traps -/

/-- `flush_shadow_pagetable` ends with a fence. -/
theorem flushShadowPagetable_steady (h : flushShadowPagetable s = .ok s') : s.Steady s' := by
  unfold flushShadowPagetable at h
  split at h
  · cases h
    exact State.Steady.refl s
  · obtain ⟨st, -, h⟩ := bind_eq_ok.mp h
    cases h
    exact State.Steady.of_store (Store.Steady.fenced rfl) rfl rfl

/-- `csrrw` writes a virtual CSR and a register: neither a table nor the `satp` of the host. -/
theorem emulateCsrrw_steady {guestAddr : Word} {u : UnpackedInstruction}
    (h : emulateCsrrw L guestAddr u s = .ok s') : s.Steady s' := by
  obtain ⟨old, csr, -, -, hcheck⟩ := emulateCsrrw_ok h
  refine State.Steady.trans (State.Steady.of_eq ?_ ?_ ?_) hcheck.steady
  · rw [State.store_setMepc, store_writeReg, State.store_setGuest]
  · rw [State.hart_setMepc, hart_writeReg]
    rfl
  · split
    · rfl
    · rfl

/-- Nor does `csrrs`. -/
theorem emulateCsrrs_steady {guestAddr : Word} {u : UnpackedInstruction}
    (h : emulateCsrrs L guestAddr u s = .ok s') : s.Steady s' := by
  obtain ⟨value, csr, -, -, hcheck⟩ := emulateCsrrs_ok h
  refine State.Steady.trans (State.Steady.of_eq ?_ ?_ ?_) hcheck.steady
  · rw [State.store_setMepc, State.store_setGuest, store_writeReg]
  · rw [State.hart_setMepc, State.hart_setGuest, hart_writeReg]
    rfl
  · split
    · rfl
    · rfl

/-- Of the emulated instructions `sfence.vma` and `mret` may write, and then they fence. -/
theorem emulateInstruction_steady {guestAddr : Word} {u : UnpackedInstruction}
    (h : emulateInstruction L guestAddr u s = .ok s') : s.Steady s' := by
  rcases emulateInstruction_cases h with ⟨hf3, hf7, -⟩ | ⟨-, hmret⟩ | ⟨-, rfl⟩ | ⟨-, hcsrrw⟩ |
    ⟨-, hcsrrs⟩
  · obtain ⟨-, t, hflush, rfl⟩ := emulateInstruction_fence h hf3 hf7
    exact (flushShadowPagetable_steady hflush).trans (State.Steady.of_eq rfl rfl rfl)
  · exact guestMret_steady hmret
  · exact State.Steady.refl _
  · exact emulateCsrrw_steady hcsrrw
  · exact emulateCsrrs_steady hcsrrs

/-- Finding the instruction reads memory only. -/
theorem handleIllegalInstruction_steady (h : handleIllegalInstruction L s = .ok s') :
    s.Steady s' := by
  unfold handleIllegalInstruction at h
  dsimp only at h
  split at h
  · cases h
  · obtain ⟨host, -, h⟩ := bind_eq_ok.mp h
    exact emulateInstruction_steady h

/-- The dispatch on the cause.  An access fault is reported before it is handled, and printing
    writes no memory. -/
theorem dispatch_steady (hcore : Core L s) {stale : Nat → Nat} (h : dispatch L stale s = .ok s') :
    s.Steady s' := by
  have hfault : ∀ {s : State} {acc : MempermIndex}, Core L s →
      handleAccessFault L stale acc s = .ok s' → s.Steady s' := by
    intro s acc hcore hacc
    obtain ⟨va, hpage⟩ := handlePageFault_of_handleAccessFault hacc
    exact handlePageFault_steady hcore hpage
  have hreported : ∀ acc mcause, handleAccessFault L stale acc
      (s.print (accessFaultMessage mcause)) = .ok s' → s.Steady s' := by
    intro acc mcause hacc
    have hprint : s.Steady (s.print (accessFaultMessage mcause)) :=
      State.Steady.of_store (Store.Steady.print _ _) rfl rfl
    exact hprint.trans (hfault (hcore.print _) hacc)
  unfold RiscvHypervisor.dispatch at h
  dsimp only at h
  split at h
  · unfold handleInterrupt at h
    split at h
    · exact timerOnInterrupt_steady h
    · cases h
      exact State.Steady.refl s
  split at h
  · cases h
  unfold handleGuestException at h
  split at h
  · exact handleIllegalInstruction_steady h
  split at h
  · exact guestException_steady h
  split at h
  · exact hfault hcore h
  split at h
  · exact hreported _ _ h
  split at h
  · exact hreported _ _ h
  · cases h

/-- Rescheduling writes the comparator and `mie`. -/
theorem timerReschedule_steady (s : State) :
    s.Steady (timerReschedule MAX_GUESTS MAX_VIRT_HARTS s) := by
  rw [timerReschedule_eq]
  rcases rescheduleThread_cases (timerInterruptAt (s.clint.mtime + milliseconds 200)
    { s with interruptTarget := ⟨-1, -1⟩ }) 0 0 with heq | ⟨-, heq⟩
  · rw [heq]
    exact State.Steady.of_eq rfl rfl rfl
  · rw [heq]
    exact State.Steady.of_eq rfl rfl rfl

/-- **Exceptions.**  Whatever the trap, the handler writes no table and not `satp`, or ends with
    a fence after its last write. -/
theorem exception_steady (hinv : Inv L s) {stale : Nat → Nat} {reads : MtimeReads}
    (h : exception L stale reads s = .ok s') : s.Steady s' := by
  unfold RiscvHypervisor.exception at h
  obtain ⟨s₁, hdispatch, h⟩ := bind_eq_ok.mp h
  cases h
  have hbefore : s.Steady (suspended L reads s) := State.Steady.of_eq rfl rfl rfl
  have hhandler := dispatch_steady (hinv.suspended reads).core hdispatch
  have hresume : s₁.Steady ((timerResumeVirtual (s₁.setMtime reads.resume)).setMtime
      reads.reschedule) := State.Steady.of_eq rfl rfl rfl
  have hresched := timerReschedule_steady
    ((timerResumeVirtual (s₁.setMtime reads.resume)).setMtime reads.reschedule)
  have hafter := hbefore.trans (hhandler.trans (hresume.trans hresched))
  exact hafter.trans (State.Steady.of_eq rfl rfl rfl)

/-! ### Fresh caches -/

/-- What may be cached is right: `satp`, and the entries of all tables up to accessed and dirty
    bits. -/
structure State.Fresh (s : State) : Prop where
  satp : ∀ v ∈ s.satpSince, v = s.hart.satp
  entries : ∀ mem ∈ s.store.since, ∀ a, a % 8 = 0 → a + 8 ≤ GUEST_BASE →
    Sv39.SameButAD (s.store.load64 a) (load mem a 8)

namespace State.Fresh

/-- A walk goes by the present `satp`. -/
theorem satp_eq (h : s.Fresh) {v : Word} (hv : v ∈ s.satps) : v = s.hart.satp := by
  rcases List.mem_cons.mp hv with rfl | hv
  · rfl
  · exact h.satp v hv

/-- And by entries that are still the same. -/
theorem entry_same (h : s.Fresh) {mem : Mem} (hmem : mem ∈ s.mems) {a : Nat} (hal : a % 8 = 0)
    (ha : a + 8 ≤ GUEST_BASE) : Sv39.SameButAD (s.store.load64 a) (load mem a 8) := by
  rcases List.mem_cons.mp hmem with rfl | hmem
  · exact Sv39.SameButAD.refl _
  · exact h.entries mem hmem a hal ha

/-- **Handlers keep the caches fresh**, since they are steady. -/
theorem steady (h : s.Fresh) (hsteady : s.Steady s') : s'.Fresh := by
  refine ⟨?_, ?_⟩
  · intro v hv
    rcases hsteady.satp with hfence | ⟨hsatp, hsince⟩
    · rw [hfence] at hv
      cases hv
    · rw [hsince] at hv
      exact (h.satp v hv).trans hsatp.symm
  · intro mem hmem a hal ha
    rcases hsteady.store with hfence | ⟨hmem', hsince⟩
    · rw [hfence] at hmem
      cases hmem
    · rw [hsince] at hmem
      have hload : s'.store.load64 a = s.store.load64 a := by
        unfold Store.load64
        rw [hmem']
      rw [hload]
      exact h.entries mem hmem a hal ha

/-- So does a write to memory that leaves of the entries all but accessed and dirty bits. -/
theorem setMem (h : s.Fresh) {mem : Mem} (hentries : ∀ a, a % 8 = 0 → a + 8 ≤ GUEST_BASE →
    Sv39.SameButAD (load mem a 8) (s.store.load64 a)) :
    State.Fresh { s with store := s.store.setMem mem } := by
  refine ⟨h.satp, ?_⟩
  intro old hold a hal ha
  have hnow : Sv39.SameButAD ((s.store.setMem mem).load64 a) (s.store.load64 a) :=
    hentries a hal ha
  exact hnow.trans (h.entry_same hold hal ha)

end State.Fresh

/-! ### Accesses -/

/-- The accesses of the guest, by what its walk reads. -/
theorem guestAccess_eq (s : State) (bit : Nat) (va : Word) :
    guestAccess s bit va = accessBy s.hart.satp s.store.load64 bit va := by
  show guestAccess s bit va = if s.hart.satp >>> 60 = 0 then some va.toNat
    else ((mmuLeaf s va).filter _).map _
  unfold guestAccess
  split
  · rfl
  cases mmuLeaf s va with
  | none => rfl
  | some l =>
    dsimp only
    rw [Option.filter_some]
    split
    · rfl
    · rfl

/-- Walks that end alike give the same access. -/
theorem accessBy_same {satp : Word} {read read' : Nat → Nat} {bit : Nat} {va : Word}
    (hbit : bit ≠ Sv39.bitA ∧ bit ≠ Sv39.bitD)
    (hwalk : Option.Rel Sv39.Leaf.Same
      (Sv39.walk read va.toNat 2 ((satp.extractLsb' 0 44).toNat * 4096))
      (Sv39.walk read' va.toNat 2 ((satp.extractLsb' 0 44).toNat * 4096))) :
    accessBy satp read bit va = accessBy satp read' bit va := by
  unfold accessBy
  split
  · rfl
  dsimp only
  split
  swap
  · rfl
  generalize Sv39.walk read va.toNat 2 _ = leaf at hwalk ⊢
  generalize Sv39.walk read' va.toNat 2 _ = leaf' at hwalk ⊢
  cases hwalk with
  | none => rfl
  | some hsame =>
    have hu := hsame.pte Sv39.bitU (by decide) (by decide)
    have hb := hsame.pte bit hbit.1 hbit.2
    simp only [Option.filter_some, hsame.aligned]
    split
    · simp only [Option.filter_some, hu, hb]
      split
      · simp only [Option.map_some, hsame.translate]
      · rfl
    · rfl

/-- **A fresh cache answers as the tables do.** -/
theorem State.Fresh.answers (h : s.Fresh) (hcore : Core L s) {bit : Nat}
    (hbit : bit ≠ Sv39.bitA ∧ bit ≠ Sv39.bitD) {va : Word} {outcome : Option Nat} :
    s.Answers bit va outcome ↔ outcome = guestAccess s bit va := by
  rw [guestAccess_eq]
  constructor
  · rintro ⟨satp, hsatp, read, hread, rfl⟩
    obtain ⟨own, free, hvm⟩ := hcore.mem.vm
    have hown := hvm.activeRoot_own hcore
    have hroot : (s.hart.satp.extractLsb' 0 44).toNat * 4096 =
        activeRoot L s.guest := by
      have hb := hvm.table_bounds hown
      rw [hcore.priv.satp_eq]
      refine (makeSatp_fields ?_ hb.1).2
      simp only [GUEST_BASE, RAM_START, GUEST_MEMORY_OFFSET] at hb
      omega
    -- a stale `satp` has the same root
    rw [h.satp_eq hsatp]
    symm
    refine accessBy_same hbit ?_
    rw [hroot]
    -- the walk stays among the tables, so each entry it reads may come from another moment
    refine Sv39.walk_same (T := {t | own t ≠ none}) va.toNat ?_ ?_ 2 _ hown
    · -- the entries of a table are words of the hypervisor's memory
      intro t ht i hi
      have hb := hvm.table_bounds ht
      obtain ⟨mem, hmem, hread'⟩ := hread (t + 8 * i)
      rw [hread']
      exact h.entry_same hmem (by omega) (by omega)
    · intro t ht i hi hvalid hleaf
      obtain ⟨⟨x, hh, k⟩, hsl⟩ := Option.ne_none_iff_exists'.mp ht
      cases hh with
      | zero =>
        rcases hvm.forest.leaf hsl hi with hz | hok
        · rw [show s.store.load64 (t + 8 * i) = 0 from hz] at hvalid
          simp at hvalid
        · rw [show Sv39.isLeaf (s.store.load64 (t + 8 * i)) = true from
            (leafOk_isLeaf hok).2.1] at hleaf
          cases hleaf
      | succ hh =>
        rcases hvm.forest.inner hsl hi with hz | ⟨c, hchild, hc, -⟩
        · rw [show s.store.load64 (t + 8 * i) = 0 from hz] at hvalid
          simp at hvalid
        · obtain ⟨-, -, hlt, haddr⟩ := ptChild_eq_some hchild
          rw [unpackPtEntry_address_eq_ppn hlt] at haddr
          show own (Sv39.ppn (s.store.entry t i) * 4096) ≠ none
          rw [haddr, hc]
          exact Option.some_ne_none _
  · rintro rfl
    have hnow : s.store.mem ∈ s.mems := List.mem_cons_self
    exact ⟨s.hart.satp, List.mem_cons_self, s.store.load64, fun a => ⟨_, hnow, rfl⟩, rfl⟩

/-! ### The system with caches -/

/-- A mark of the MMU's changes accessed and dirty bits only. -/
theorem sameButAD_mmuMark (hcore : Core L s) {va : Word} {l : Sv39.Leaf}
    (hl : mmuLeaf s va = some l) (dirty : Bool) {a : Nat} (hal : a % 8 = 0) :
    Sv39.SameButAD ((s.mmuMark l dirty).store.load64 a) (s.store.load64 a) := by
  obtain ⟨own, free, hvm⟩ := hcore.mem.vm
  obtain ⟨x, key, ⟨t, ht, hpte, -⟩, t', ht', hslot⟩ : ∃ x key, Maps s.store own x key l.pte ∧
      ∃ t, own t = some ⟨x, 0, key / 512⟩ ∧ l.slot = t + 8 * (key % 512) := by
    have hw := hcore.mmuLeaf_walk hl
    unfold activeRoot at hw
    split at hw
    · rename_i hact
      rw [walk_shadow hvm (hcore.priv.active hact).2] at hw
      exact ⟨.shadow, pageOf va.toNat, hw.2⟩
    · rw [walk_machine hvm] at hw
      exact ⟨.machine, regionOf va.toNat, hw.2⟩
  -- the marked leaf is an entry of a table, and `a` is that word or another one
  rw [hvm.forest.inj ht' ht] at hslot
  have hb := hvm.table_bounds (t := t) (by rw [ht]; exact Option.some_ne_none _)
  by_cases ha : a = l.slot
  · have hold : s.store.load64 a = l.pte := by
      rw [ha, hslot]
      exact hpte
    have hnew : (s.mmuMark l dirty).store.load64 a =
        l.pte ||| 1 <<< Sv39.bitA ||| (if dirty then 1 <<< Sv39.bitD else 0) := by
      rw [ha]
      refine (load_store_same _ _ _ _).trans (Nat.mod_eq_of_lt ?_)
      refine Nat.or_lt_two_pow (n := 64) (Nat.or_lt_two_pow ?_ (by decide)) ?_
      · rw [← hpte]
        exact s.store.entry_lt _ _
      · cases dirty <;> decide
    rw [hold, hnew]
    intro j hja hjd
    have hbitA : (1 <<< Sv39.bitA).testBit j = false := by
      rw [Nat.one_shiftLeft]
      exact Nat.testBit_two_pow_of_ne (Ne.symm hja)
    have hbitD : (if dirty then 1 <<< Sv39.bitD else 0).testBit j = false := by
      split
      · rw [Nat.one_shiftLeft]
        exact Nat.testBit_two_pow_of_ne (Ne.symm hjd)
      · exact Nat.zero_testBit j
    rw [Nat.testBit_or, Nat.testBit_or, hbitA, hbitD, Bool.or_false, Bool.or_false]
  · have hsame : (s.mmuMark l dirty).store.load64 a = s.store.load64 a := by
      refine load_store_disjoint ?_
      omega
    rw [hsame]
    exact Sv39.SameButAD.refl _

/-- **Every step keeps the caches fresh.** -/
theorem Step.fresh {ev : GuestEvent} (hinv : Inv L s) (h : s.Fresh) (hstep : Step L s ev s') :
    s'.Fresh := by
  cases hstep with
  | run regs pc => exact h.steady (State.Steady.of_eq rfl rfl rfl)
  | receive byte => exact h.steady (State.Steady.of_eq rfl rfl rfl)
  | @store va pa value access guest =>
    refine h.setMem (fun a _ ha => ?_)
    -- the guest writes above all tables
    have hsame : load (Function.update s.store.mem pa value) a 8 = s.store.load64 a := by
      refine load_congr (fun x _ hx => ?_)
      exact Function.update_of_ne (by omega) _ _
    rw [hsame]
    exact Sv39.SameButAD.refl _
  | corrupt after access image =>
    exact absurd (hinv.core.guestAccess_ge access) (Nat.not_le.mpr image)
  | mmu dirty leaf => exact h.setMem (fun a hal _ => sameButAD_mmuMark hinv.core leaf dirty hal)
  | @trap _ mcause mtval reads stale clock handled =>
    have hentry : (s.trapEntry mcause mtval).Fresh := h.steady (State.Steady.of_eq rfl rfl rfl)
    exact hentry.steady (exception_steady (hinv.trapEntry mcause mtval) handled)

/-- With fresh caches the steps are those of the tables as they are. -/
theorem cachedStep_iff (hinv : Inv L s) (h : s.Fresh) {ev : GuestEvent} :
    CachedStep L s ev s' ↔ Step L s ev s' := by
  have hw : Sv39.bitW ≠ Sv39.bitA ∧ Sv39.bitW ≠ Sv39.bitD := by decide
  constructor
  · intro hstep
    cases hstep with
    | store value access guest =>
      exact .store value ((h.answers hinv.core hw).mp access).symm guest
    | corrupt _ access image =>
      exact .corrupt _ ((h.answers hinv.core hw).mp access).symm image
    | other kind step => exact step
  · intro hstep
    cases hstep with
    | store value access guest =>
      exact .store value ((h.answers hinv.core hw).mpr access.symm) guest
    | corrupt _ access image =>
      exact .corrupt _ ((h.answers hinv.core hw).mpr access.symm) image
    | run regs pc => exact .other rfl (.run regs pc)
    | mmu dirty leaf => exact .other rfl (.mmu dirty leaf)
    | receive byte => exact .other rfl (.receive byte)
    | trap clock handled => exact .other rfl (.trap clock handled)

/-- The steps of the system with caches, and the bytes the guest fetches and loads. -/
inductive CachedHostStep (L : Layout) : State → Option VmEvent → State → Prop where
  | step {s s' : State} {ev : GuestEvent} (step : CachedStep L s ev s') :
      CachedHostStep L s (ev.shown s s') s'
  | read {s : State} {bit : Nat} {va : Word} {pa : Nat} (kind : bit = Sv39.bitR ∨ bit = Sv39.bitX)
      (access : s.Answers bit va (some pa)) :
      CachedHostStep L s (some (.read va (s.store.mem pa))) s

/-- The system with caches, from boot on. -/
def cachedSystem (L : Layout) : System State VmEvent where
  start := (hypervisorSystem L).start
  step := CachedHostStep L

/-- Fetches and loads need other bits than the MMU sets. -/
theorem bit_ne_of_kind {bit : Nat} (kind : bit = Sv39.bitR ∨ bit = Sv39.bitX) :
    bit ≠ Sv39.bitA ∧ bit ≠ Sv39.bitD := by
  rcases kind with rfl | rfl
  · decide
  · decide

/-- What holds between two steps of the guest. -/
structure CacheInv (L : Layout) (s : State) : Prop where
  inv : Inv L s
  fresh : s.Fresh

/-- At boot the last thing done is a fence. -/
theorem PowerOn.cacheInv {s₀ : State} (on : PowerOn L s₀) : CacheInv L (bootMain L s₀) where
  inv := bootMain_inv on
  fresh := by
    refine ⟨?_, ?_⟩
    · intro v hv
      cases hv
    · intro mem hmem
      cases hmem

/-- Every step of the system keeps the invariant of the caches, -/
theorem CacheInv.hostStep (h : CacheInv L s) {label : Option VmEvent}
    (hstep : HostStep L s label s') : CacheInv L s' := by
  cases hstep with
  | step step => exact ⟨step.inv h.inv, step.fresh h.inv h.fresh⟩
  | read kind access => exact h

/-- and is one of the system with caches. -/
theorem CacheInv.hostStep_iff (h : CacheInv L s) {label : Option VmEvent} :
    HostStep L s label s' ↔ CachedHostStep L s label s' := by
  constructor
  · intro hstep
    cases hstep with
    | step step => exact .step ((cachedStep_iff h.inv h.fresh).mpr step)
    | read kind access =>
      exact .read kind ((h.fresh.answers h.inv.core (bit_ne_of_kind kind)).mpr access.symm)
  · intro hstep
    cases hstep with
    | step step => exact .step ((cachedStep_iff h.inv h.fresh).mp step)
    | read kind access =>
      exact .read kind ((h.fresh.answers h.inv.core (bit_ne_of_kind kind)).mp access).symm

/-- **The fences suffice.**  With whatever the hart caches of the tables between two fences, the
    guest goes through the runs it goes through without caches, and every access is answered as
    the tables answer it at that moment. -/
theorem fences_suffice {s₀ : State} (on : PowerOn L s₀) (events : List VmEvent) (s : State) :
    ((hypervisorSystem L).Run (bootMain L s₀) events s ↔
      (cachedSystem L).Run (bootMain L s₀) events s) ∧
    ((cachedSystem L).Run (bootMain L s₀) events s →
      ∀ bit, bit ≠ Sv39.bitA ∧ bit ≠ Sv39.bitD → ∀ va outcome,
        s.Answers bit va outcome ↔ outcome = guestAccess s bit va) := by
  have hsame : (hypervisorSystem L).Run (bootMain L s₀) events s ↔
      (cachedSystem L).Run (bootMain L s₀) events s :=
    System.Run.same (fun _ _ _ h => h.hostStep_iff) (fun _ _ _ h hstep => h.hostStep hstep)
      on.cacheInv
  refine ⟨hsame, fun hrun bit hbit va outcome => ?_⟩
  have hinv : CacheInv L s :=
    System.Run.invariant (I := CacheInv L) (fun _ _ _ h hstep => h.hostStep hstep)
      (hsame.mpr hrun) on.cacheInv
  exact hinv.fresh.answers hinv.inv.core hbit

/-- After the first fetch of a guest, no cache can still miss the region of the kernel. -/
theorem fences_suffice_first_fetch :
    ∃ s₀ events s, (cachedSystem sampleLayout).Run (bootMain sampleLayout s₀) events s ∧
      s.Answers Sv39.bitW 0x80000123 (some 0x85000123) ∧
      ¬ s.Answers Sv39.bitW 0x80000123 none := by
  obtain ⟨s, hreach, haccess⟩ := exists_reachable (fun _ => 0) [⟨fun _ => 0, 0x80000000, 12⟩]
    (fun s => guestAccess s Sv39.bitW 0x80000123) (some 0x85000123) (by decide) (by decide +kernel)
  obtain ⟨s₀, events, on, hrun⟩ := hreach.hostRun
  obtain ⟨hruns, hanswers⟩ := fences_suffice on events s
  have hcached := hruns.mp hrun
  have hanswer := hanswers hcached Sv39.bitW (by decide) 0x80000123
  rw [haccess] at hanswer
  refine ⟨s₀, events, s, hcached, (hanswer _).mpr rfl, fun hmiss => ?_⟩
  cases (hanswer none).mp hmiss

end RiscvHypervisor
