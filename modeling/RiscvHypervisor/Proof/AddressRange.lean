import RiscvHypervisor.Proof.Ownership
import RiscvHypervisor.Proof.Progress

namespace RiscvHypervisor

open RadixForest Except

/-!
# Faults at addresses the MMU cannot translate

Sv39 translates an address only if its bits 63..39 repeat bit 38 (`Sv39.canonical`).  The handler
asks instead whether the address fits into 39 bits, once for guest-machine and once for guest-user
addresses.  `noncanonical_fault_iff` is what becomes of the faults in between.

That a fault reported as too high leaves the table in use alone needs one thing that the invariant
does not say: building the machine table writes no page of the shadow table
(`ensureGuestMachineMapped_sameShadow`).
-/

variable {L : Layout} {root : Nat} {st st' : Store} {own : Owner Tree} {free : List Nat}

/-! ### Building the machine table -/

theorem SameTree.refl (x : Tree) (st : Store) : SameTree L root x st st :=
  SameTree.of_entries (fun _ _ _ _ _ => rfl)

theorem SameTree.trans {x : Tree} {st'' : Store} (h : SameTree L root x st st')
    (h' : SameTree L root x st' st'') : SameTree L root x st st'' := by
  intro hh t ht
  obtain ⟨ht₁, hentries⟩ := h hh t ht
  obtain ⟨ht₂, hentries'⟩ := h' hh t ht₁
  refine ⟨ht₂, fun i hi => ?_⟩
  rw [hentries' i hi, hentries i hi]

/-- A table of one tree is no table of the other. -/
theorem Table.ne_of_tree (h : VmInv L root st own free ∅) {x y : Tree} (hxy : x ≠ y)
    {hx hy kx t u : Nat} (ht : own t = some ⟨x, hx, kx⟩) (hu : Table L root st y hy u) : u ≠ t := by
  rintro rfl
  obtain ⟨k, hk⟩ := hu.exists_own h
  rw [ht] at hk
  cases hk
  exact hxy rfl

/-- A write to a table of one tree leaves the other alone. -/
theorem VmInv.sameTree_setEntry (h : VmInv L root st own free ∅) {x y : Tree} (hxy : x ≠ y)
    {t hh k i v : Nat} (ht : own t = some ⟨x, hh, k⟩) (hi : i < 512) :
    SameTree L root y st (st.setEntry t i v) := by
  refine SameTree.of_entries (fun hu u hu' j hj => ?_)
  obtain ⟨ku, hown⟩ := hu'.exists_own h
  have hne : u ≠ t := Table.ne_of_tree h hxy ht hu'
  exact st.entry_setEntry_ne (h.table_bounds (by simp [ht])).1 (h.table_bounds (by simp [hown])).1
    hi hj (fun hc => hne hc.1)

/-- So does hanging a new table below it. -/
theorem childTable_sameTree (h : VmInv L root st own free ∅) {x y : Tree} (hxy : x ≠ y)
    {t hh k i c : Nat} {onNull : Panic} {message : List (BitVec 8)}
    (ht : own t = some ⟨x, hh, k⟩) (hi : i < 512)
    (hchild : childTable L onNull message t i st = .ok (c, st')) : SameTree L root y st st' := by
  unfold childTable at hchild
  dsimp only at hchild
  split at hchild
  swap
  · cases hchild
    exact SameTree.refl y st
  rcases allocatePagepable_spec h.alloc with ⟨heq, -⟩ |
    ⟨p, st₁, free', heq, hp, hfresh, hin, -, hmem, -, -, halloc⟩
  · rw [heq] at hchild
    cases hchild
  have hpal := (hin.bounds halloc.next_le).1
  have hown : own p = none := own_eq_none_of_not_mem hfresh hin halloc.next_le
  rw [heq] at hchild
  dsimp only at hchild
  rw [if_neg hp] at hchild
  cases hchild
  refine SameTree.trans (SameTree.of_entries (fun hu u hu' j hj => ?_))
    (SameMem.print message _).sameTree
  obtain ⟨ku, hown'⟩ := hu'.exists_own h
  have hne : u ≠ t := Table.ne_of_tree h hxy ht hu'
  rw [st₁.entry_setEntry_ne (h.table_bounds (by simp [ht])).1 (h.table_bounds (by simp [hown'])).1
    hi hj (fun hc => hne hc.1)]
  exact h.agree_of_fresh hown hpal hmem u (by simp [hown']) j hj

/-- **The machine table is built apart.** -/
theorem ensureGuestMachineMapped_sameShadow (h : VmInv L root st own free ∅) {gm : Nat}
    {res : PageFaultHandlerResult} {hm : Option Nat}
    (hens : ensureGuestMachineMapped L 0 gm st = .ok (res, hm, st')) :
    (∃ own' free', VmInv L root st' own' free' ∅) ∧ SameTree L root .shadow st st' := by
  have hne : Tree.machine ≠ Tree.shadow := by decide
  by_cases hram : InGuestRam gm
  swap
  · obtain ⟨res', heq⟩ := ensureGuestMachineMapped_outside L st hram
    rw [heq] at hens
    cases hens
    exact ⟨⟨own, free, h⟩, SameTree.refl _ _⟩
  obtain ⟨-, -, own', free', -, hb, -⟩ := (ensureGuestMachineMapped_spec h hram.1 hram.2).ok hens
  refine ⟨⟨own', free', hb.inv⟩, ?_⟩
  have hlvl3 : gm >>> 30 < 512 := by
    have hhi := hram.2
    rw [Nat.shiftRight_eq_div_pow]
    omega
  have hlvl2 : (gm >>> 21) &&& 0x1FF < 512 := by
    rw [and_0x1FF]
    exact Nat.mod_lt _ (by decide)
  unfold ensureGuestMachineMapped at hens
  rw [if_neg (Nat.not_lt.mpr hram.1)] at hens
  dsimp only at hens
  rw [if_neg (Nat.not_le.mpr hlvl3)] at hens
  obtain ⟨⟨c, st₁⟩, hchild, hens⟩ := bind_eq_ok.mp hens
  have hsame := childTable_sameTree h hne h.machine hlvl3 hchild
  obtain ⟨own₁, free₁, hb₁, hc, -⟩ := (childTable_spec h h.machine hlvl3 .pageAlloc _).ok hchild
  dsimp only at hens hb₁ hc
  split at hens
  · cases hens
    exact hsame
  · cases hens
    exact (hsame.trans (hb₁.inv.sameTree_setEntry hne hc hlvl2)).trans
      ((SameMem.print _ _).trans (SameMem.fence _)).sameTree

/-- So is it when the guest's own table is walked. -/
theorem resolveGuLoop_sameShadow (stale : Nat → Nat) (gu : Nat) : ∀ (fuel co : Nat)
    (entry : UnpackedPagetableEntry) {st : Store} {own : Owner Tree} {free : List Nat}
    {r : Option Nat × Store}, VmInv L root st own free ∅ →
    resolveGuLoop L stale 0 gu fuel co entry st = .ok r → SameTree L root .shadow st r.2 := by
  intro fuel
  induction fuel with
  | zero =>
    intro co entry st own free r _ hr
    cases hr
  | succ fuel ih =>
    intro co entry st own free r h hr
    by_cases hgo : GoesOn co entry
    · rw [resolveGuLoop_of_goesOn hgo] at hr
      obtain ⟨⟨res, hm, st₁⟩, hens, hr⟩ := bind_eq_ok.mp hr
      obtain ⟨⟨own₁, free₁, h₁⟩, hsame⟩ := ensureGuestMachineMapped_sameShadow h hens
      have hs : SameMem st₁ (afterMapping (res, hm, st₁)) := SameMem.print _ _
      exact (hsame.trans hs.sameTree).trans (ih _ _ (h₁.same hs) hr)
    · rw [resolveGuLoop_of_not_goesOn hgo (guestRead st)] at hr
      cases hr
      exact SameTree.refl _ _

variable {s t t' : State} {acc : MempermIndex}

theorem faultToGm_sameShadow (hcurrent : s.host.currentGuest.machine = 0)
    (h : VmInv L s.guest.shadowPageTable s.store own free ∅) {stale : Nat → Nat} {va gm : Nat}
    (hgm : faultToGm L stale va s = .ok (gm, t)) :
    SameTree L s.guest.shadowPageTable .shadow s.store t.store := by
  unfold faultToGm at hgm
  split at hgm
  · cases hgm
    exact SameTree.refl _ _
  · obtain ⟨⟨out, st'⟩, hresolve, hgm⟩ := bind_eq_ok.mp hgm
    rw [hcurrent] at hresolve
    cases out with
    | none => cases hgm
    | some gm' =>
      cases hgm
      exact resolveGuLoop_sameShadow stale va 4 _ _ h hresolve

/-! ### The handler -/

/-- The tree the guest runs on. -/
def activeTree (g : GuestThreadContext) : Tree := if g.shadowPtActive then .shadow else .machine

/-- The fault was reported as too high, and the table in use is as it was. -/
def ReportedTooHigh (L : Layout) (result : PageFaultHandlerResult) (t t' : State) : Prop :=
  result = .tooHigh ∧
    SameTree L t.guest.shadowPageTable (activeTree t.guest) t.store t'.store

/-- Where the handler draws the line for a fault at `va` whose guest-machine address is `gm`: at
    2³⁹, for both. -/
def BeyondRange (g : GuestThreadContext) (va gm : Nat) : Prop :=
  2 ^ 39 ≤ gm ∨ g.shadowPtActive = true ∧ RAM_START ≤ gm ∧ 2 ^ 39 ≤ va

/-- In guest RAM the outcome depends on the guest-user address alone. -/
theorem finishFault_range {access : DecodedAccess} {gm : Nat} {st₁ st₂ : Store} (h : Core L s)
    (hvm : VmInv L s.guest.shadowPageTable st₁ own free ∅) (hgm : InGuestRam gm)
    (hmod : gm % 4096 = access.address.toNat % 4096) (hacc : IsAccess acc)
    {result₁ result : PageFaultHandlerResult} {hm : Option Nat} {va : Word}
    (hens : ensureGuestMachineMapped L 0 gm st₁ = .ok (result₁, hm, st₂))
    (hfinish : finishFault L acc access gm result₁ hm { s with store := st₂ } =
      .ok (result, va, t')) :
    access.address = va ∧ t'.hart.mepc = s.hart.mepc ∧
      (s.guest.shadowPtActive = true ∧ 2 ^ 39 ≤ va.toNat ∧ result = .tooHigh ∧ t'.store = st₂ ∨
        ¬ (s.guest.shadowPtActive = true ∧ 2 ^ 39 ≤ va.toNat) ∧
          (result = .success ∨ result = .notChanged)) := by
  obtain ⟨hresult₁, hhm, own₂, free₂, e, hb₂, -⟩ :=
    (ensureGuestMachineMapped_spec hvm hgm.1 hgm.2).ok hens
  dsimp only at hresult₁ hhm hb₂
  subst hhm
  rw [finishFault_ram hresult₁] at hfinish
  by_cases hact : s.guest.shadowPtActive = true
  swap
  · rw [if_neg hact] at hfinish
    cases hfinish
    exact ⟨rfl, rfl, Or.inr ⟨fun hc => hact hc.1, hresult₁⟩⟩
  rw [if_pos hact] at hfinish
  obtain ⟨⟨result', st₃⟩, hupdate, hret⟩ := bind_eq_ok.mp hfinish
  cases hret
  refine ⟨rfl, rfl, ?_⟩
  have hlow : access.address.toNat % 4096 = (gm + GUEST_MEMORY_OFFSET) % 4096 := by
    rw [add_guestMemoryOffset_mod, hmod]
  by_cases hva : access.address.toNat < 2 ^ 39
  · obtain ⟨hresult, -⟩ := (updateShadowPt_spec hb₂.inv (h.priv.active hact).2 hva hlow
      (Nat.add_le_add_right hgm.1 _) hgm.host_lt hacc).ok hupdate
    exact Or.inr ⟨fun hc => Nat.not_le.mpr hva hc.2, hresult⟩
  · rw [updateShadowPt_tooHigh (Nat.le_of_not_lt hva) hlow] at hupdate
    cases hupdate
    exact Or.inl ⟨hact, Nat.le_of_not_lt hva, rfl, rfl⟩

/-- **Addresses beyond Sv39.**  In every reachable state, for a fault at an address in the range of
    guest RAM or above that the MMU cannot translate, and with `gm` its guest-machine address: the
    fault is reported as too high, with the table in use as it was, exactly if the address is beyond
    the handler's range.  Otherwise the guest's own table has led to a device, or the address is one
    of those between 2³⁸ and 2³⁹ and the guest is told to retry. -/
theorem noncanonical_fault_iff (h : Reachable L s) {mcause mtval : Word} {reads : MtimeReads}
    {stale : Nat → Nat} (entry : t = suspended L reads (s.trapEntry mcause mtval))
    {result : PageFaultHandlerResult} {va : Word}
    (fault : handlePageFault L stale acc t = .ok (result, va, t')) (hlo : RAM_START ≤ va.toNat)
    (hillegal : Sv39.canonical va.toNat = false) :
    ∃ gm t₁, faultToGm L stale va.toNat t = .ok (gm, t₁) ∧
      (t.guest.shadowPtActive = false → gm = va.toNat) ∧
      (t.guest.shadowPtActive = true → WalkInRam (guestRead t.store) t.guest.csr.satpPpn va.toNat →
        resolveGu (guestRead t.store) t.guest.csr.satpPpn va.toNat = some gm) ∧
      (ReportedTooHigh L result t t' ↔ BeyondRange t.guest va.toNat gm) ∧
      (¬ BeyondRange t.guest va.toNat gm →
        t.guest.shadowPtActive = true ∧ gm < RAM_START ∨
        2 ^ 38 ≤ va.toNat ∧ va.toNat < 2 ^ 39 ∧ t'.hart.mepc = t.hart.mepc ∧
          (result = .success ∨ result = .notChanged)) := by
  have hcore : Core L t := by
    rw [entry]
    exact ((h.inv.trapEntry mcause mtval).suspended reads).core
  obtain ⟨own, free, hvm⟩ := hcore.mem.vm
  have hcurrent : t.host.currentGuest.machine = 0 := by rw [hcore.current]
  obtain ⟨access, gm, st₁, haccess, rfl, hgm, hcases⟩ := handlePageFault_cases fault
  obtain ⟨st, own₁, free₁, heq, hb₁, -, hmod, -, hresolve⟩ :=
    (faultToGm_spec hcore hvm stale access.address.isLt).ok hgm
  obtain rfl : st₁ = st := congrArg State.store heq
  -- on the machine table the address is a guest-machine one, and the store is as it was
  have hstay : t.guest.shadowPtActive ≠ true → st₁ = t.store ∧ gm = access.address.toNat :=
    fun hact => faultToGm_inactive (eq_false_of_ne_true hact) hgm
  have hshadow := faultToGm_sameShadow hcurrent hvm hgm
  refine ⟨gm, _, hgm, fun hact => (faultToGm_inactive hact hgm).2, hresolve, ?_⟩
  rcases hcases with ⟨hlow, hdev⟩ | ⟨hhigh, rfl, rfl⟩ | ⟨hram, result₁, hm, st₂, hens, -, hfinish⟩
  · -- below guest RAM: only a user can get there from an address above it, and it is a device's
    have hact : t.guest.shadowPtActive = true := by
      by_contra hact
      rw [← (hstay hact).2] at hlo
      exact Nat.not_lt.mpr hlo hlow
    refine ⟨⟨fun hreport => ?_, ?_⟩, fun _ => Or.inl ⟨hact, hlow⟩⟩
    · have hresult := emulateDevice_result acc access gm { t with store := st₁ }
      rw [hdev, hreport.1] at hresult
      rcases hresult with hc | hc
      · cases hc
      · cases hc
    · rintro (hhigh | ⟨-, hge, -⟩)
      · simp only [RAM_START] at hlow
        omega
      · exact absurd hlow (Nat.not_lt.mpr hge)
  · -- above guest RAM nothing is written but what the walk of the guest's table has mapped
    refine ⟨⟨fun _ => Or.inl hhigh, fun _ => ⟨rfl, ?_⟩⟩, fun hc => absurd (Or.inl hhigh) hc⟩
    by_cases hact : t.guest.shadowPtActive = true
    · rw [show activeTree t.guest = .shadow from if_pos hact]
      exact hshadow
    · rw [(hstay hact).1]
      exact SameTree.refl _ _
  · -- inside: it is the width of `va` that decides, and only the shadow table looks at it
    have hacc := (decodeFault_spec t acc).ok haccess
    rw [hcurrent] at hens
    obtain ⟨-, hmepc, hout⟩ := finishFault_range hcore hb₁.inv hram hmod hacc hens hfinish
    rcases hout with ⟨hact, hhigh, rfl, hstore⟩ | ⟨hno, hresult⟩
    · have hcond : BeyondRange t.guest access.address.toNat gm := Or.inr ⟨hact, hram.1, hhigh⟩
      refine ⟨⟨fun _ => hcond, fun _ => ⟨rfl, ?_⟩⟩, fun hc => absurd hcond hc⟩
      rw [hstore, show activeTree t.guest = .shadow from if_pos hact]
      exact hshadow.trans (ensureGuestMachineMapped_sameShadow hb₁.inv hens).2
    · have hcond : ¬ BeyondRange t.guest access.address.toNat gm := by
        rintro (hhigh | ⟨hact, -, hhigh⟩)
        · exact Nat.not_le.mpr hram.2 hhigh
        · exact hno ⟨hact, hhigh⟩
      refine ⟨⟨fun hreport => ?_, fun hc => absurd hc hcond⟩, fun _ => Or.inr ?_⟩
      · rcases hresult with hr | hr
        · exact absurd (hreport.1.symm.trans hr) (by decide)
        · exact absurd (hreport.1.symm.trans hr) (by decide)
      · -- below 2³⁹ the addresses that are not canonical are those with bit 38
        have hhi : access.address.toNat < 2 ^ 39 := by
          by_contra hge
          by_cases hact : t.guest.shadowPtActive = true
          · exact hno ⟨hact, Nat.le_of_not_lt hge⟩
          · rw [← (hstay hact).2] at hge
            exact hge hram.2
        exact ⟨Sv39.le_of_not_canonical hillegal, hhi, hmepc, hresult⟩

/-- The fault of a guest that has jumped to `pc`, right after boot. -/
def sampleJump (pc : Word) (s : State) : State :=
  suspended sampleLayout (sampleReads 0) ((s.guestRun (fun _ => 0) pc).trapEntry 12 0)

/-- A jump to 2³⁹. -/
theorem noncanonical_fault_reported :
    ∃ s t', Reachable sampleLayout s ∧ Sv39.canonical 0x8000000000 = false ∧
      handlePageFault sampleLayout (fun _ => 0) .x (sampleJump 0x8000000000 s) =
        .ok (.tooHigh, 0x8000000000, t') ∧
      ReportedTooHigh sampleLayout .tooHigh (sampleJump 0x8000000000 s) t' := by
  obtain ⟨s, hreach, hs⟩ := exists_reachable (fun _ => 0) []
    (fun s => ((handlePageFault sampleLayout (fun _ => 0) .x
        (sampleJump 0x8000000000 s)).toOption.map (fun r => (r.1, r.2.1)),
      (sampleJump 0x8000000000 s).guest.shadowPtActive))
    (some (.tooHigh, 0x8000000000), false) (by decide) (by decide +kernel)
  obtain ⟨hrun, hinactive⟩ := Prod.mk.inj hs
  obtain ⟨⟨result, va, t'⟩, hfault, hr⟩ := map_toOption_eq_some.mp hrun
  obtain ⟨rfl, rfl⟩ := Prod.mk.inj hr
  have hstep := hreach.step (.run (fun _ => 0) 0x8000000000)
  obtain ⟨gm, t₁, -, hgm, -, hiff, -⟩ := noncanonical_fault_iff hstep
    (show sampleJump 0x8000000000 s = _ from rfl) hfault (by decide) (by decide)
  refine ⟨s, t', hreach, by decide, hfault, hiff.mpr (Or.inl ?_)⟩
  rw [hgm hinactive]
  decide

/-- A jump to 2³⁸: a region of the machine table is mapped where the MMU will never look, and the
    guest is sent back to fault again. -/
theorem noncanonical_fault_retried :
    ∃ s t', Reachable sampleLayout s ∧ Sv39.canonical 0x4000000000 = false ∧
      handlePageFault sampleLayout (fun _ => 0) .x (sampleJump 0x4000000000 s) =
        .ok (.success, 0x4000000000, t') ∧
      t'.hart.mepc = (sampleJump 0x4000000000 s).hart.mepc ∧
      (sampleJump 0x4000000000 s).guest.shadowPtActive = false ∧
      ¬ ReportedTooHigh sampleLayout .success (sampleJump 0x4000000000 s) t' := by
  obtain ⟨s, hreach, hs⟩ := exists_reachable (fun _ => 0) []
    (fun s => ((handlePageFault sampleLayout (fun _ => 0) .x
        (sampleJump 0x4000000000 s)).toOption.map (fun r => (r.1, r.2.1, r.2.2.hart.mepc)),
      (sampleJump 0x4000000000 s).guest.shadowPtActive,
      (sampleJump 0x4000000000 s).hart.mepc))
    (some (.success, 0x4000000000, 0x4000000000), false, 0x4000000000) (by decide)
    (by decide +kernel)
  obtain ⟨hrun, hview⟩ := Prod.mk.inj hs
  obtain ⟨hinactive, hpc⟩ := Prod.mk.inj hview
  obtain ⟨⟨result, va, t'⟩, hfault, hr⟩ := map_toOption_eq_some.mp hrun
  obtain ⟨rfl, hrest⟩ := Prod.mk.inj hr
  obtain ⟨rfl, hmepc⟩ := Prod.mk.inj hrest
  refine ⟨s, t', hreach, by decide, hfault, hmepc.trans hpc.symm, hinactive, fun hreport => ?_⟩
  cases hreport.1

end RiscvHypervisor
