import RiscvHypervisor.Lib.Occupancy
import RiscvHypervisor.Proof.Flush
import RiscvHypervisor.Proof.Panics
import RiscvHypervisor.Proof.Refinement

namespace RiscvHypervisor

open ByteMem RadixForest Except FreeChain

/-!
# How far the pool goes

Every table page but the two roots is there for a mapping: the builders hang no table up without
filling it, and a flush of the shadow table leaves the root only.  So no table below a root is ever
empty (`Reachable.wellUsed`), the pages in use can be counted by what is mapped (`pool_use_exact`),
and few mappings need few pages (`pool_suffices`).

* `Populated` — no table is empty, up to some that are about to be filled;
* `Populated.childTable`, `Populated.setEntry` — the two moves of the builders;
* `VmInv.ncard_tablePages` — the tables in use, level by level;
* `mappedRegions` — the same levels, as the MMU sees them.
-/

variable {L : Layout} {root : Nat} {st st' : Store} {own own' : Owner Tree} {free free' : List Nat}

/-! ### Tables that are not empty -/

/-- No table is empty, the roots and those in `E` excepted. -/
def Populated (st : Store) (own : Owner Tree) (E : Set Nat) : Prop :=
  ∀ t x h k, own t = some ⟨x, h, k⟩ → h < ptFormat.rootHeight x → t ∉ E →
    ∃ i, i < 512 ∧ st.entry t i ≠ 0

/-- More tables may be exempt. -/
theorem Populated.mono {E E' : Set Nat} (h : Populated st own E) (hE : E ⊆ E') :
    Populated st own E' :=
  fun t x hh k ht hlt hne => h t x hh k ht hlt (fun hc => hne (hE hc))

/-- The tables of before, with the entries they had. -/
theorem Populated.congr {E : Set Nat} (h : Populated st own E)
    (hown : ∀ t sl, own' t = some sl → own t = some sl)
    (hentry : ∀ t, own' t ≠ none → ∀ i, i < 512 → st'.entry t i = st.entry t i) :
    Populated st' own' E := by
  intro t x hh k ht hlt hne
  obtain ⟨i, hi, hnz⟩ := h t x hh k (hown t _ ht) hlt hne
  exact ⟨i, hi, by rw [hentry t (by simp [ht]) i hi]; exact hnz⟩

/-- Only the memory counts. -/
theorem Populated.same {E : Set Nat} (h : Populated st own E) (hs : SameMem st st') :
    Populated st' own E :=
  h.congr (fun _ _ ht => ht) (fun _ _ _ _ => by rw [hs.entry])

/-- Allocating a page writes none of the tables. -/
theorem VmInv.entry_allocatePagepable (h : VmInv L root st own free ∅) {p : Nat}
    (heq : allocatePagepable L st = (p, st')) (hp : p ≠ 0) {u : Nat} (hu : own u ≠ none) {j : Nat}
    (hj : j < 512) : st'.entry u j = st.entry u j := by
  rcases allocatePagepable_spec h.alloc with ⟨heq', -⟩ |
    ⟨p', st₁, free', heq', -, hfresh, hin, -, hmem, -, -, halloc⟩
  · rw [heq] at heq'
    cases heq'
    exact absurd rfl hp
  · rw [heq] at heq'
    cases heq'
    exact h.agree_of_fresh (own_eq_none_of_not_mem hfresh hin halloc.next_le)
      (hin.bounds halloc.next_le).1 hmem u hu j hj

/-- One level down, the table above has an entry now, and the one below may have none yet. -/
theorem Populated.childTable (h : VmInv L root st own free ∅) {t k i hh c : Nat} {x : Tree}
    (hpop : Populated st own {t}) (ht : own t = some ⟨x, hh + 1, k⟩) (hi : i < 512)
    {onNull : Panic} {message : List (BitVec 8)}
    (hchild : childTable L onNull message t i st = .ok (c, st')) :
    ∃ own' free', VmInv L root st' own' free' ∅ ∧ own' c = some ⟨x, hh, k * 512 + i⟩ ∧
      Populated st' own' {c} := by
  have htne : own t ≠ none := by simp [ht]
  rcases h.forest.inner ht hi with hz | ⟨c', hc', hown, -⟩
  · -- a table is added: it is the one exempt now, and `t` has an entry
    rw [ptFormat_zero] at hz
    unfold RiscvHypervisor.childTable at hchild
    simp only [hz, hasAny_unpack, Nat.zero_testBit, Bool.not_false, if_true] at hchild
    rcases h.link_spec ht hi hz with ⟨heq, -⟩ | ⟨p, st₁, free', heq, hp, hown, hinv, -⟩
    · rw [heq] at hchild
      cases hchild
    rw [heq] at hchild
    simp only [hp, if_false] at hchild
    cases hchild
    refine ⟨_, free', hinv.same (SameMem.print _ _), Function.update_self _ _ _,
      Populated.same ?_ (SameMem.print _ _)⟩
    have hb := h.table_bounds htne
    intro u y hy ky hu hlt hne
    rcases update_some_cases hu with ⟨rfl, -⟩ | hold
    · exact absurd rfl hne
    by_cases hut : u = t
    · refine ⟨i, hi, ?_⟩
      have hpb := hinv.table_bounds (t := c) (by simp)
      rw [hut, st₁.entry_setEntry_same (lt_trans (packPtEntry_lt ?_ (by decide)) (by decide))]
      · have hv : (packPtEntry ⟨c, permbit .v⟩).testBit 0 = true := by
          rw [testBit_packPtEntry (by decide) (by decide)]
          decide
        exact ne_zero_of_testBit hv
      · simp only [GUEST_BASE, RAM_START, GUEST_MEMORY_OFFSET] at hpb
        omega
    · obtain ⟨j, hj, hnz⟩ := hpop u y hy ky hold hlt hut
      refine ⟨j, hj, ?_⟩
      rw [st₁.entry_setEntry_ne hb.1 (h.table_bounds (by simp [hold])).1 hi hj
        (fun hc => hut hc.1), h.entry_allocatePagepable heq hp (by simp [hold]) hj]
      exact hnz
  · -- the table was there, so the entry of `t` was
    rw [childTable_hit h ht hi hown] at hchild
    cases hchild
    refine ⟨own, free, h, hown, ?_⟩
    intro u y hy ky hu hlt hne
    by_cases hut : u = t
    · refine ⟨i, hi, ?_⟩
      rw [hut]
      exact entry_ne_zero_of_child h ht hi hown
    · exact hpop u y hy ky hu hlt hut

/-- Setting one entry fills the table that was exempt. -/
theorem Populated.fill {t i : Nat} (hpop : Populated st own {t}) (hi : i < 512)
    (hne : st.entry t i ≠ 0) : Populated st own ∅ := by
  intro u x hh k hu hlt _
  by_cases hut : u = t
  · rw [hut]
    exact ⟨i, hi, hne⟩
  · exact hpop u x hh k hu hlt hut

/-- An entry is written, which is not zero. -/
theorem Populated.setEntry (h : VmInv L root st own free ∅) {t i v : Nat}
    (hpop : Populated st own {t}) (ht : own t ≠ none) (hi : i < 512) (hv : v < 2 ^ 64)
    (hv0 : v ≠ 0) : Populated (st.setEntry t i v) own ∅ := by
  have hrest : Populated (st.setEntry t i v) own {t} := by
    intro u x hh k hu hlt hut
    obtain ⟨j, hj, hnz⟩ := hpop u x hh k hu hlt hut
    refine ⟨j, hj, ?_⟩
    rw [st.entry_setEntry_ne (h.table_bounds ht).1 (h.table_bounds (by simp [hu])).1 hi hj
      (fun hc => hut hc.1)]
    exact hnz
  refine hrest.fill hi ?_
  rw [st.entry_setEntry_same hv]
  exact hv0

/-! ### The machine table -/

/-- The invariant and no empty table. -/
def WellUsed (L : Layout) (root : Nat) (st : Store) : Prop :=
  ∃ own free, VmInv L root st own free ∅ ∧ Populated st own ∅

/-- `WellUsed` looks at the tables only. -/
theorem WellUsed.same (h : WellUsed L root st) (hs : SameMem st st') : WellUsed L root st' := by
  obtain ⟨own, free, hvm, hpop⟩ := h
  exact ⟨own, free, hvm.same hs, hpop.same hs⟩

/-- A table taken for a region is filled before `ensure_guest_machine_mapped` returns, -/
theorem ensureGuestMachineMapped_wellUsed (h : WellUsed L root st) {gm : Nat}
    {r : PageFaultHandlerResult × Option Nat × Store}
    (hens : ensureGuestMachineMapped L 0 gm st = .ok r) : WellUsed L root r.2.2 := by
  obtain ⟨own, free, hvm, hpop⟩ := h
  by_cases hram : InGuestRam gm
  swap
  · obtain ⟨res, heq⟩ := ensureGuestMachineMapped_outside L st hram
    rw [heq] at hens
    cases hens
    exact ⟨own, free, hvm, hpop⟩
  obtain ⟨hlo, hhi⟩ := hram
  have hlvl3 : gm >>> 30 < 512 := by
    rw [Nat.shiftRight_eq_div_pow]
    omega
  have hlvl2 : (gm >>> 21) &&& 0x1FF < 512 := by
    rw [and_0x1FF]
    exact Nat.mod_lt _ (by decide)
  have hkey : (0 * 512 + gm >>> 30) * 512 + ((gm >>> 21) &&& 0x1FF) = gm / 2 ^ 21 := by
    rw [and_0x1FF, Nat.shiftRight_eq_div_pow, Nat.shiftRight_eq_div_pow]
    omega
  unfold ensureGuestMachineMapped at hens
  rw [if_neg (Nat.not_lt.mpr hlo)] at hens
  dsimp only at hens
  rw [if_neg (Nat.not_le.mpr hlvl3)] at hens
  obtain ⟨⟨c, st₁⟩, hchild, hens⟩ := bind_eq_ok.mp hens
  obtain ⟨own₁, free₁, hvm₁, hc, hpop₁⟩ :=
    (hpop.mono (Set.empty_subset _)).childTable hvm hvm.machine hlvl3 hchild
  dsimp only at hens hvm₁ hpop₁
  rw [hasAny_unpack] at hens
  -- either way the table below the root ends with an entry, and is not exempt any more
  split at hens
  · rename_i hv
    cases hens
    exact ⟨own₁, free₁, hvm₁, hpop₁.fill hlvl2 (ne_zero_of_testBit hv)⟩
  · cases hens
    have hbase : RAM_START ≤ gm / 2 ^ 21 * 2 ^ 21 := by
      simp only [RAM_START] at *
      omega
    have hlt : packPtEntry
        ⟨gm / 2 ^ 21 * 2 ^ 21 + GUEST_MEMORY_OFFSET, machinePermissions⟩ < 2 ^ 64 :=
      lt_trans (packPtEntry_lt (by simp only [GUEST_MEMORY_OFFSET]; omega) (by decide)) (by decide)
    have hgood := machineLeaf_pack hbase
    have hne := ne_zero_of_testBit hgood.v
    dsimp only
    rw [regionBase_eq]
    refine WellUsed.same ⟨own₁, free₁, ?_, ?_⟩ ((SameMem.print _ _).trans (SameMem.fence _))
    · exact hvm₁.setLeaf hc hlvl2 hlt (Or.inr (by rw [hkey]; exact hgood))
    · exact hpop₁.setEntry hvm₁ (by simp [hc]) hlvl2 hlt hne

/-- and that is all the guest's walk does to the tables. -/
theorem resolveGuLoop_wellUsed (stale : Nat → Nat) (gu : Nat) : ∀ (fuel co : Nat)
    (entry : UnpackedPagetableEntry) {st : Store} {r : Option Nat × Store}, WellUsed L root st →
    resolveGuLoop L stale 0 gu fuel co entry st = .ok r → WellUsed L root r.2 := by
  intro fuel
  induction fuel with
  | zero =>
    intro co entry st r _ hr
    cases hr
  | succ fuel ih =>
    intro co entry st r h hr
    by_cases hgo : GoesOn co entry
    · rw [resolveGuLoop_of_goesOn hgo] at hr
      obtain ⟨⟨res, hm, st₁⟩, hens, hr⟩ := bind_eq_ok.mp hr
      exact ih _ _ ((ensureGuestMachineMapped_wellUsed h hens).same (SameMem.print _ _)) hr
    · rw [resolveGuLoop_of_not_goesOn hgo (guestRead st)] at hr
      cases hr
      exact h

/-! ### The shadow table -/

/-- The mapping that an update writes is there afterwards. -/
theorem MapsUpdate.maps {x : Tree} {key e : Nat} (h : MapsUpdate st own st' own' x key e) :
    Maps st' own' x key e := by
  rw [h, if_pos ⟨rfl, rfl⟩]

/-- Both levels that `update_shadow_pt` may add are filled at once. -/
theorem updateShadowPt_wellUsed (h : WellUsed L root st) (hroot : root ≠ 0) {gu hm : Nat}
    {acc : MempermIndex} (hlow : gu % 4096 = hm % 4096) (hlo : GUEST_BASE ≤ hm) (hhi : hm < 2 ^ 56)
    (hacc : IsAccess acc) {r : PageFaultHandlerResult × Store}
    (hupdate : updateShadowPt L root gu hm acc st = .ok r) : WellUsed L root r.2 := by
  obtain ⟨own, free, hvm, hpop⟩ := h
  by_cases hgu : gu < 2 ^ 39
  swap
  · rw [updateShadowPt_tooHigh (Nat.le_of_not_lt hgu) hlow] at hupdate
    cases hupdate
    exact ⟨own, free, hvm, hpop⟩
  have hvpn2 : gu >>> 30 < 512 := by
    rw [Nat.shiftRight_eq_div_pow]
    omega
  have hvpn1 : (gu >>> 21) &&& 0x1FF < 512 := by
    rw [and_0x1FF]
    exact Nat.mod_lt _ (by decide)
  have hvpn0 : (gu >>> 12) &&& 0x1FF < 512 := by
    rw [and_0x1FF]
    exact Nat.mod_lt _ (by decide)
  have hshift : hm >>> PGSHIFT <<< PGSHIFT = hm / 4096 * 4096 := by
    rw [Nat.shiftRight_eq_div_pow, Nat.shiftLeft_eq]
    rfl
  unfold updateShadowPt at hupdate
  rw [and_0xFFF, and_0xFFF, if_neg (not_not.mpr hlow)] at hupdate
  dsimp only at hupdate
  rw [if_neg (Nat.not_le.mpr hvpn2), hshift] at hupdate
  obtain ⟨⟨c₁, st₁⟩, hchild₁, hupdate⟩ := bind_eq_ok.mp hupdate
  obtain ⟨⟨c, st₂⟩, hchild, hupdate⟩ := bind_eq_ok.mp hupdate
  dsimp only at hchild hupdate
  obtain ⟨own₁, free₁, hvm₁, hc₁, hpop₁⟩ :=
    (hpop.mono (Set.empty_subset _)).childTable hvm (hvm.shadow_of_ne_zero hroot) hvpn2 hchild₁
  obtain ⟨own₂, free₂, hvm₂, hc, hpop₂⟩ := hpop₁.childTable hvm₁ hc₁ hvpn1 hchild
  cases hupdate
  obtain ⟨-, hb, hmaps⟩ := writeShadowLeaf_spec hvm₂ hc hvpn0 hlo hhi hacc
  refine ⟨own₂, free₂, hb.inv, ?_⟩
  -- the other tables keep their entries, and the leaf table has the entry of the page now
  have hrest : Populated (writeShadowLeaf c ((gu >>> 12) &&& 0x1FF) (hm / 4096 * 4096) acc st₂).2
      own₂ {c} := by
    intro u x hh k hu hlt huc
    obtain ⟨j, hj, hnz⟩ := hpop₂ u x hh k hu hlt huc
    refine ⟨j, hj, ?_⟩
    rcases writeShadowLeaf_cases c ((gu >>> 12) &&& 0x1FF) (hm / 4096 * 4096) acc st₂ with
      heq | ⟨v, heq⟩
    · rw [heq]
      exact hnz
    · rw [heq]
      show (st₂.setEntry c ((gu >>> 12) &&& 0x1FF) v).entry u j ≠ 0
      rw [st₂.entry_setEntry_ne (hvm₂.table_bounds (by simp [hc])).1
        (hvm₂.table_bounds (by simp [hu])).1 hvpn0 hj (fun he => huc he.1)]
      exact hnz
  obtain ⟨t, ht, he, hne⟩ := hmaps.maps
  rw [show ∀ k i, i < 512 → (k * 512 + i) / 512 = k by omega] at ht
  · rw [hvm₂.forest.inj ht hc] at he
    exact hrest.fill (Nat.mod_lt _ (by decide)) (fun hz => hne (he.symm.trans hz))
  · exact hvpn0

/-- A new shadow root is a root. -/
theorem allocatePagepable_wellUsed (h : WellUsed L 0 st) :
    WellUsed L (allocatePagepable L st).1 (allocatePagepable L st).2 := by
  obtain ⟨own, free, hvm, hpop⟩ := h
  rcases hvm.newRoot_spec with ⟨heq, -⟩ | ⟨p, st', free', heq, hp, hown, hvm', -⟩
  · rw [heq]
    exact ⟨own, free, hvm, hpop⟩
  rw [heq]
  refine ⟨_, free', hvm', ?_⟩
  intro u x hh k hu hlt hne
  rcases update_some_cases hu with ⟨-, hsl⟩ | hold
  · cases hsl
    exact absurd hlt (lt_irrefl 2)
  · obtain ⟨i, hi, hnz⟩ := hpop u x hh k hold hlt hne
    refine ⟨i, hi, ?_⟩
    rw [hvm.entry_allocatePagepable heq hp (by simp [hold]) hi]
    exact hnz

/-! ### Every reachable state -/

variable {s s' t : State}

/-- The state's tables are well used. -/
def State.WellUsed (L : Layout) (s : State) : Prop :=
  RiscvHypervisor.WellUsed L s.guest.shadowPageTable s.store

/-- What leaves the tables alone. -/
theorem State.WellUsed.congr (h : s.WellUsed L)
    (htable : s'.guest.shadowPageTable = s.guest.shadowPageTable)
    (hstore : SameMem s.store s'.store) : s'.WellUsed L := by
  unfold State.WellUsed
  rw [htable]
  exact h.same hstore

/-- Delivering an exception switches between the tables. -/
theorem Checked.wellUsed (h : Checked L t s') (ht : t.WellUsed L) : s'.WellUsed L := by
  rcases h.cases with ⟨rfl, -⟩ | hdel
  · exact ht
  refine ht.congr ?_ hdel.trapped.sameMem
  rw [hdel.trapped.guest, State.guest_setGuest]
  rfl

/-- Finding the guest machine address of a fault keeps it, -/
theorem faultToGm_wellUsed (hcore : Core L s) (h : s.WellUsed L) {stale : Nat → Nat} {va gm : Nat}
    (hgm : faultToGm L stale va s = .ok (gm, t)) : t.WellUsed L := by
  unfold faultToGm at hgm
  rw [hcore.current] at hgm
  split at hgm
  · cases hgm
    exact h
  obtain ⟨⟨out, st⟩, hresolve, hgm⟩ := bind_eq_ok.mp hgm
  have hst : RiscvHypervisor.WellUsed L s.guest.shadowPageTable st :=
    resolveGuLoop_wellUsed stale va _ _ _ h hresolve
  cases out with
  | none => cases hgm
  | some gm' =>
    cases hgm
    exact hst

/-- and so does the whole page fault handler. -/
theorem handlePageFault_wellUsed (hcore : Core L s) (h : s.WellUsed L) {stale : Nat → Nat}
    {acc : MempermIndex} {result : PageFaultHandlerResult} {va : Word}
    (hfault : handlePageFault L stale acc s = .ok (result, va, s')) : s'.WellUsed L := by
  obtain ⟨own, free, hvm⟩ := hcore.mem.vm
  obtain ⟨access, gm, st, haccess, rfl, hgm, hcases⟩ := handlePageFault_cases hfault
  have hst := faultToGm_wellUsed hcore h hgm
  obtain ⟨st₁, own₁, free₁, heq, hb₁, -, hmod, -⟩ :=
    (faultToGm_spec hcore hvm stale access.address.isLt).ok hgm
  rcases hcases with ⟨-, hdev⟩ | ⟨-, -, rfl⟩ | ⟨hram, result₁, hm, st₂, hens, hresult₁, hfinish⟩
  · have hspec := emulateDevice_spec acc access gm { s with store := st }
    rw [hdev] at hspec
    exact hst.congr hspec.mode.2.1 hspec.sameMem
  · exact hst
  obtain rfl : st = st₁ := congrArg State.store heq
  rw [hcore.current] at hens
  have hst₂ := ensureGuestMachineMapped_wellUsed hst hens
  obtain ⟨-, hhm, -⟩ := (ensureGuestMachineMapped_spec hb₁.inv hram.1 hram.2).ok hens
  cases hhm
  rw [finishFault_ram hresult₁] at hfinish
  split at hfinish
  · rename_i hact
    obtain ⟨⟨result₂, st₃⟩, hupdate, hret⟩ := bind_eq_ok.mp hfinish
    cases hret
    exact updateShadowPt_wellUsed hst₂ (hcore.priv.active hact).2
      (by rw [add_guestMemoryOffset_mod, hmod]) (Nat.add_le_add_right hram.1 _) hram.host_lt
      ((decodeFault_spec s acc).ok haccess) hupdate
  · cases hfinish
    exact hst₂

/-- The shadow root of a guest `mret` is taken whole, as an empty root. -/
theorem mretTranslation_wellUsed (h : s.WellUsed L) (hok : mretTranslation L s = .ok t) :
    t.WellUsed L := by
  unfold mretTranslation at hok
  dsimp only at hok
  split at hok
  · cases hok
    exact h
  split at hok
  · cases hok
    unfold State.WellUsed
    rw [State.guest_setGuest]
    by_cases hroot : s.guest.shadowPageTable = 0
    · rw [if_pos hroot, State.guest_vmemFence, State.guest_setSatp, State.guest_setGuest]
      unfold State.WellUsed at h
      rw [hroot] at h
      exact (allocatePagepable_wellUsed h).same (SameMem.fence _)
    · rw [if_neg hroot, State.guest_vmemFence, State.guest_setSatp, State.guest_setGuest]
      exact h.same (SameMem.fence _)
  · cases hok

/-- After a flush there are no tables below the shadow root. -/
theorem flushShadowPagetable_wellUsed (h : s.WellUsed L)
    (hflush : flushShadowPagetable s = .ok s') : s'.WellUsed L := by
  unfold flushShadowPagetable at hflush
  split at hflush
  · cases hflush
    exact h
  rename_i hroot
  obtain ⟨st', hclear, hret⟩ := bind_eq_ok.mp hflush
  cases hret
  obtain ⟨own, free, hvm, hpop⟩ := h
  obtain ⟨own', free', htrims, hzero⟩ := (clearPagetable_spec 2 teardownDepth (by decide)
    (hvm.shadow_of_ne_zero hroot) hvm).ok hclear
  refine WellUsed.same ⟨own', free', htrims.inv, ?_⟩ (SameMem.fence _)
  intro t x hh k ht hlt _
  cases x with
  | machine =>
    have hold := htrims.sub t _ ht
    obtain ⟨i, hi, hne⟩ := hpop t .machine hh k hold hlt (Set.notMem_empty t)
    refine ⟨i, hi, ?_⟩
    have hts : t ∉ ({s.guest.shadowPageTable} : Set Nat) := by
      rintro rfl
      rw [hvm.shadow_of_ne_zero hroot] at hold
      cases hold
    show st'.entry t i ≠ 0
    rw [htrims.entries t _ hold (Or.inl Tree.noConfusion) hts i hi]
    exact hne
  | shadow =>
    rw [htrims.inv.no_shadow_below hroot hzero ht] at hlt
    exact absurd hlt (lt_irrefl 2)

/-- The instructions that are emulated write no table but through `mret`. -/
theorem handleIllegalInstruction_wellUsed (h : s.WellUsed L)
    (hok : handleIllegalInstruction L s = .ok s') : s'.WellUsed L := by
  unfold handleIllegalInstruction at hok
  dsimp only at hok
  split at hok
  · cases hok
  obtain ⟨host, -, hok⟩ := bind_eq_ok.mp hok
  rcases emulateInstruction_cases hok with
    ⟨hf3, hf7, -⟩ | ⟨-, hmret⟩ | ⟨-, rfl⟩ | ⟨-, hcsr⟩ | ⟨-, hcsr⟩
  · obtain ⟨-, t, hflush, rfl⟩ := emulateInstruction_fence hok hf3 hf7
    exact (flushShadowPagetable_wellUsed h hflush).congr rfl (SameMem.refl _)
  · obtain ⟨-, t, ht, hcheck⟩ := guestMret_ok hmret
    refine hcheck.wellUsed (mretTranslation_wellUsed ?_ ht)
    exact h.congr (by unfold State.returned; rw [State.guest_setGuest]) (SameMem.refl _)
  · exact h
  · obtain ⟨old, csr, -, -, hcheck⟩ := emulateCsrrw_ok hcsr
    refine hcheck.wellUsed (h.congr ?_ ?_)
    · rw [State.guest_setMepc, guest_writeReg, State.guest_setGuest]
    · rw [State.store_setMepc, store_writeReg, State.store_setGuest]
      exact SameMem.refl _
  · obtain ⟨value, csr, -, -, hcheck⟩ := emulateCsrrs_ok hcsr
    refine hcheck.wellUsed (h.congr ?_ ?_)
    · rw [State.guest_setMepc, State.guest_setGuest, guest_writeReg]
    · rw [State.store_setMepc, State.store_setGuest, store_writeReg]
      exact SameMem.refl _

/-- Access faults go through the page fault handler. -/
theorem handleAccessFault_wellUsed (hcore : Core L s) (h : s.WellUsed L) {stale : Nat → Nat}
    {acc : MempermIndex} (hok : handleAccessFault L stale acc s = .ok s') : s'.WellUsed L := by
  obtain ⟨va, hfault⟩ := handlePageFault_of_handleAccessFault hok
  exact handlePageFault_wellUsed hcore h hfault

/-- A timer interrupt takes no page. -/
theorem timerOnInterrupt_wellUsed (h : s.WellUsed L) (hok : timerOnInterrupt L s = .ok s') :
    s'.WellUsed L := by
  unfold timerOnInterrupt at hok
  split at hok
  · cases hok
    exact h
  split at hok
  · cases hok
  unfold guestDeferException at hok
  rw [State.guest_setGuest] at hok
  split at hok
  · cases hok
    exact h.congr (by rw [State.guest_setGuest]) (SameMem.refl _)
  · obtain ⟨⟨b, t⟩, hcheck, hret⟩ := bind_eq_ok.mp hok
    cases hret
    exact Checked.wellUsed ⟨b, hcheck⟩
      (h.congr (by rw [State.guest_setGuest]) (SameMem.refl _))

/-- So every exit keeps it, -/
theorem dispatch_wellUsed (hcore : Core L s) (h : s.WellUsed L) {stale : Nat → Nat}
    (hok : dispatch L stale s = .ok s') : s'.WellUsed L := by
  -- an access fault is reported before it is handled as a page fault
  have hreported : ∀ acc mcause, handleAccessFault L stale acc
      (s.print (accessFaultMessage mcause)) = .ok s' → s'.WellUsed L := by
    intro acc mcause hacc
    have hprinted : (s.print (accessFaultMessage mcause)).WellUsed L :=
      h.congr rfl (SameMem.print _ _)
    exact handleAccessFault_wellUsed (hcore.print _) hprinted hacc
  unfold dispatch at hok
  dsimp only at hok
  split at hok
  · unfold handleInterrupt at hok
    split at hok
    · exact timerOnInterrupt_wellUsed h hok
    · cases hok
      exact h
  split at hok
  · cases hok
  unfold handleGuestException at hok
  split at hok
  · exact handleIllegalInstruction_wellUsed h hok
  split at hok
  · obtain ⟨-, htrap⟩ := trapped_of_guestException hok
    exact h.congr (by rw [htrap.guest]; rfl) htrap.sameMem
  split at hok
  · exact handleAccessFault_wellUsed hcore h hok
  split at hok
  · exact hreported _ _ hok
  split at hok
  · exact hreported _ _ hok
  · cases hok

/-- The MMU marks entries that are there. -/
theorem Inv.mmuMark_wellUsed (hinv : Inv L s) (h : s.WellUsed L) {va : Word} {l : Sv39.Leaf}
    (hl : mmuLeaf s va = some l) (dirty : Bool) : (s.mmuMark l dirty).WellUsed L := by
  obtain ⟨own, free, hvm, hpop⟩ := h
  have hw := hinv.core.mmuLeaf_walk hl
  have hmask : 1 <<< Sv39.bitA ||| (if dirty then 1 <<< Sv39.bitD else 0) < 1024 := by
    cases dirty <;> decide
  obtain ⟨x, key, hmaps, hslot⟩ : ∃ x key, Maps s.store own x key l.pte ∧
      ∃ t, own t = some ⟨x, 0, key / 512⟩ ∧ l.slot = t + 8 * (key % 512) := by
    unfold activeRoot at hw
    split at hw
    · rename_i hact
      exact ⟨_, _, ((walk_shadow hvm (hinv.core.priv.active hact).2 _ _).mp hw).2⟩
    · exact ⟨_, _, ((walk_machine hvm _ _).mp hw).2⟩
  have hinv' := hvm.mark hmaps hslot hmask
  obtain ⟨t, ht, heq⟩ := hslot
  obtain ⟨t', -, he, hne⟩ := hmaps
  have hpte : l.pte < 2 ^ 64 := by
    rw [← he]
    exact s.store.entry_lt _ _
  have hpop' := (hpop.mono (Set.empty_subset {t})).setEntry hvm (by simp [ht])
    (Nat.mod_lt key (by decide)) (Nat.or_lt_two_pow hpte (lt_trans hmask (by decide)))
    (fun hz => hne (Nat.or_eq_zero_iff.mp hz).1)
  unfold State.WellUsed State.mmuMark
  dsimp only
  rw [Nat.lor_assoc]
  refine ⟨own, free, hinv', ?_⟩
  rw [heq]
  exact hpop'

/-- and so does every step. -/
theorem Step.wellUsed {ev : GuestEvent} (hinv : Inv L s) (h : s.WellUsed L)
    (hstep : Step L s ev s') : s'.WellUsed L := by
  cases hstep with
  | run regs pc => exact h.congr rfl (SameMem.refl _)
  | receive byte => exact h.congr rfl (SameMem.refl _)
  | store value access guest =>
    obtain ⟨own, free, hvm, hpop⟩ := h
    rename_i va pa
    have hmem : ∀ x, x < GUEST_BASE → Function.update s.store.mem pa value x = s.store.mem x := by
      intro x hx
      exact Function.update_of_ne (by omega) _ _
    refine ⟨own, free, hvm.frame rfl rfl hmem, hpop.congr (fun _ _ ht => ht) ?_⟩
    intro t ht i hi
    have hb := hvm.table_bounds ht
    exact Store.load64_congr (fun x _ hx => hmem x (by omega))
  | corrupt after access image =>
    -- the installed table does not let the guest write there
    exact absurd (hinv.core.guestAccess_ge access) (Nat.not_le.mpr image)
  | mmu dirty leaf => exact hinv.mmuMark_wellUsed h leaf dirty
  | trap clock handled =>
    rename_i mcause mtval reads stale
    unfold exception at handled
    obtain ⟨s₁, hdispatch, hret⟩ := bind_eq_ok.mp handled
    cases hret
    have hs₁ := dispatch_wellUsed ((hinv.trapEntry mcause mtval).suspended reads).core
      (h.congr (by rw [guest_suspended]; rfl) (SameMem.refl _)) hdispatch
    refine hs₁.congr ?_ (SameMem.of_eq (timerReschedule_view _).2)
    change (timerReschedule MAX_GUESTS MAX_VIRT_HARTS _).guest.shadowPageTable = _
    rw [(timerReschedule_frame _).1, State.guest_setMtime]
    unfold timerResumeVirtual
    rw [State.guest_setGuest]
    rfl

/-- **Use.**  In every reachable state no table below a root is empty. -/
theorem Reachable.wellUsed (h : Reachable L s) : s.WellUsed L := by
  induction h with
  | boot on =>
    refine ⟨bootOwner L, [], ?_, ?_⟩
    · rw [on.guest_bootMain]
      exact on.vmInv.same (SameMem.fence _)
    · intro t x hh k ht hlt _
      obtain ⟨-, hsl⟩ := bootOwner_eq_some ht
      cases hsl
      exact absurd hlt (lt_irrefl 1)
  | step before hstep ih => exact hstep.wellUsed before.inv ih

/-! ### Counting the pages -/

/-- With nothing exempt, no table is empty. -/
theorem Populated.noEmpty (h : Populated st own ∅) : NoEmpty ptFormat st.entry own :=
  fun t x hh k ht hlt => h t x hh k ht hlt (Set.notMem_empty t)

/-- The pages of the pool that were handed out, counted. -/
theorem Layout.image_poolPage (L : Layout) (n : Nat) :
    {p | L.InPool n p} = L.poolPage '' (Finset.range n : Finset Nat) := by
  ext p
  simp only [Set.mem_ofPred_eq, Layout.InPool, Set.mem_image, Finset.mem_coe, Finset.mem_range,
    eq_comm]

/-- The pool is finite, so what is taken from it is. -/
theorem AllocInv.used_finite {used : Set Nat} (h : AllocInv L st free used) : used.Finite := by
  have hpool : {p | L.InPool st.nextUnallocatedIdx p}.Finite := by
    rw [L.image_poolPage]
    exact (Finset.finite_toSet _).image _
  exact hpool.subset h.used_pool

/-- A page of the pool is left, or in use. -/
theorem AllocInv.pagesLeft_add {used : Set Nat} (h : AllocInv L st free used) :
    pagesLeft st free + used.ncard = MAX_ALLOCATEABLE_PAGES := by
  have hnext : {p | L.InPool st.nextUnallocatedIdx p}.ncard = st.nextUnallocatedIdx := by
    rw [L.image_poolPage, Set.InjOn.ncard_image (fun i _ j _ hij => Layout.poolPage_inj hij),
      Set.ncard_coe_finset, Finset.card_range]
  have hunion : {p | L.InPool st.nextUnallocatedIdx p} = (free.toFinset : Set Nat) ∪ used := by
    ext p
    simp only [Set.mem_union, Finset.mem_coe, List.mem_toFinset]
    constructor
    · rintro ⟨i, hi, rfl⟩
      exact h.cover i hi
    · rintro (hf | hu)
      · exact h.free_pool p hf
      · exact h.used_pool p hu
  have hdisjoint : Disjoint (free.toFinset : Set Nat) used := by
    rw [Set.disjoint_left]
    intro p hp
    exact h.disjoint p (List.mem_toFinset.mp (Finset.mem_coe.mp hp))
  rw [hunion, Set.ncard_union_eq hdisjoint (Finset.finite_toSet _) h.used_finite,
    Set.ncard_coe_finset, List.toFinset_card_of_nodup h.nodup] at hnext
  have hle := h.next_le
  unfold pagesLeft
  omega

/-- The tables of tree `x` of height `h`. -/
def tablesAt (own : Owner Tree) (x : Tree) (h : Nat) : Set Nat := {t | ∃ k, own t = some ⟨x, h, k⟩}

/-- The tables of a level lie among the pages in use. -/
theorem VmInv.tablesAt_subset (h : VmInv L root st own free ∅) {x : Tree} {hh : Nat}
    (hne : x = .machine → hh = 0) : tablesAt own x hh ⊆ tablePages L own := by
  rintro t ⟨k, ht⟩
  refine ⟨by simp [ht], ?_⟩
  rintro rfl
  rw [h.machine] at ht
  cases ht
  exact absurd (hne rfl) (by decide)

/-- Without a shadow table the pages in use are the leaf tables of the machine table. -/
theorem VmInv.tablePages_machine (h : VmInv L 0 st own free ∅) :
    tablePages L own = tablesAt own .machine 0 := by
  refine Set.Subset.antisymm ?_ (h.tablesAt_subset (fun _ => rfl))
  rintro t ⟨hne, hroot⟩
  obtain ⟨⟨x, hh, k⟩, ht⟩ := Option.ne_none_iff_exists'.mp hne
  obtain rfl : x = .machine := h.tree_eq_machine t _ ht
  have hle : hh ≤ 1 := h.forest.height_le ht
  rcases Nat.le_one_iff_eq_zero_or_eq_one.mp hle with rfl | rfl
  · exact ⟨k, ht⟩
  · have hlt : k < 512 ^ (1 - 1) := h.forest.key_lt ht
    obtain rfl : k = 0 := by omega
    exact absurd (h.forest.inj ht h.machine) hroot

/-- With one, they are these, the shadow root, and the tables below it. -/
theorem VmInv.tablePages_shadow (h : VmInv L root st own free ∅) (hroot : root ≠ 0) :
    tablePages L own = tablesAt own .machine 0 ∪
      (insert root (tablesAt own .shadow 1 ∪ tablesAt own .shadow 0)) := by
  ext t
  constructor
  · rintro ⟨hne, hmachine⟩
    obtain ⟨⟨x, hh, k⟩, ht⟩ := Option.ne_none_iff_exists'.mp hne
    have hle := h.forest.height_le ht
    have hlt := h.forest.key_lt ht
    cases x with
    | machine =>
      rcases Nat.le_one_iff_eq_zero_or_eq_one.mp hle with rfl | rfl
      · exact Or.inl ⟨k, ht⟩
      · obtain rfl : k = 0 := by
          change k < 512 ^ (1 - 1) at hlt
          omega
        exact absurd (h.forest.inj ht h.machine) hmachine
    | shadow =>
      right
      change hh ≤ 2 at hle
      obtain rfl | rfl | rfl : hh = 0 ∨ hh = 1 ∨ hh = 2 := by omega
      · exact Or.inr (Or.inr ⟨k, ht⟩)
      · exact Or.inr (Or.inl ⟨k, ht⟩)
      · obtain rfl : k = 0 := by
          change k < 512 ^ (2 - 2) at hlt
          omega
        exact Or.inl (h.forest.inj ht (h.shadow_of_ne_zero hroot))
  · rintro (ht | rfl | ht | ht)
    · exact h.tablesAt_subset (fun _ => rfl) ht
    · refine ⟨by simp [h.shadow_of_ne_zero hroot], ?_⟩
      rintro heq
      have hown := h.shadow_of_ne_zero hroot
      rw [heq, h.machine] at hown
      cases hown
    · exact h.tablesAt_subset (fun hc => Tree.noConfusion hc) ht
    · exact h.tablesAt_subset (fun hc => Tree.noConfusion hc) ht

/-- A page is a table of one level only. -/
theorem notMem_tablesAt {x y : Tree} {hx hy t : Nat} (hne : x = y → hx ≠ hy)
    (ht : t ∈ tablesAt own x hx) : t ∉ tablesAt own y hy := by
  rintro ⟨k', ht'⟩
  obtain ⟨k, ht⟩ := ht
  rw [ht] at ht'
  cases ht'
  exact hne rfl rfl

/-- The tables in use, level by level. -/
theorem VmInv.ncard_tablePages (h : VmInv L root st own free ∅) (hpop : Populated st own ∅) :
    (tablePages L own).ncard = (groups ptFormat st.entry own .machine 0).ncard +
      if root = 0 then 0
      else 1 + (groups ptFormat st.entry own .shadow 1).ncard +
        (groups ptFormat st.entry own .shadow 0).ncard := by
  have hfinite : ∀ {x hh}, (x = .machine → hh = 0) → (tablesAt own x hh).Finite :=
    fun hx => h.alloc.used_finite.subset (h.tablesAt_subset hx)
  have hcount : ∀ {x hh}, hh < ptFormat.rootHeight x →
      (tablesAt own x hh).ncard = (groups ptFormat st.entry own x hh).ncard :=
    fun hlt => h.forest.ncard_tables hpop.noEmpty hlt
  have hshadow : ∀ hh, (tablesAt own .shadow hh).Finite :=
    fun hh => hfinite (fun hc => Tree.noConfusion hc)
  -- the pages are those of the machine table and, with a shadow root, those of its three levels
  split
  · rename_i hroot
    subst hroot
    rw [h.tablePages_machine, hcount (by decide), Nat.add_zero]
  · rename_i hroot
    have hown := h.shadow_of_ne_zero hroot
    have hnot : root ∉ tablesAt own .shadow 1 ∪ tablesAt own .shadow 0 := by
      rintro (⟨k, hk⟩ | ⟨k, hk⟩)
      · rw [hown] at hk
        cases hk
      · rw [hown] at hk
        cases hk
    have hbelow : Disjoint (tablesAt own .shadow 1) (tablesAt own .shadow 0) :=
      Set.disjoint_left.mpr (fun _ => notMem_tablesAt (fun _ => by decide))
    have hapart : Disjoint (tablesAt own .machine 0)
        (insert root (tablesAt own .shadow 1 ∪ tablesAt own .shadow 0)) := by
      refine Set.disjoint_left.mpr ?_
      rintro t ht (rfl | ht' | ht')
      · obtain ⟨k, hk⟩ := ht
        rw [hown] at hk
        cases hk
      · exact notMem_tablesAt (fun hc => Tree.noConfusion hc) ht ht'
      · exact notMem_tablesAt (fun hc => Tree.noConfusion hc) ht ht'
    rw [h.tablePages_shadow hroot,
      Set.ncard_union_eq hapart (hfinite (fun _ => rfl))
        (((hshadow 1).union (hshadow 0)).insert root),
      Set.ncard_insert_of_notMem hnot ((hshadow 1).union (hshadow 0)),
      Set.ncard_union_eq hbelow (hshadow 1) (hshadow 0), hcount (by decide), hcount (by decide),
      hcount (by decide)]
    omega

/-! ### Regions -/

/-- The regions of `2^n` bytes in which the table at `root` maps something. -/
def mappedRegions (st : Store) (root n : Nat) : Set Nat :=
  {r | ∃ va, va < 2 ^ 39 ∧ va / 2 ^ n = r ∧ Sv39.walk st.load64 va 2 root ≠ none}

/-- The pages of the pool that the tables of the state need: one for each GiB of guest RAM that is
    mapped, one for the shadow root, and one for each GiB and each 2 MiB that the shadow table
    maps something in. -/
noncomputable def poolUse (L : Layout) (s : State) : Nat :=
  (mappedRegions s.store (L.machineRoot 0) 30).ncard +
    if s.guest.shadowPageTable = 0 then 0
    else 1 + (mappedRegions s.store s.guest.shadowPageTable 30).ncard +
      (mappedRegions s.store s.guest.shadowPageTable 21).ncard

/-- The machine tables below the root are counted by the regions of 1 GiB they cover, -/
theorem VmInv.groups_machine (h : VmInv L root st own free ∅) :
    groups ptFormat st.entry own .machine 0 = mappedRegions st (L.machineRoot 0) 30 := by
  ext r
  constructor
  · rintro ⟨key, hin, rfl⟩
    have hkey := h.forest.inUse_lt hin
    rw [ptFormat_width, show ptFormat.rootHeight .machine = 1 from rfl] at hkey
    obtain ⟨t, ht, hne⟩ := hin
    have hregion : regionOf (key * 2 ^ 21) = key := by
      unfold regionOf
      omega
    refine ⟨key * 2 ^ 21, by omega, ?_, ?_⟩
    · show key * 2 ^ 21 / 2 ^ 30 = key / 512 ^ (0 + 1)
      omega
    · rw [Option.ne_none_iff_exists']
      refine ⟨⟨1, t + 8 * (key % 512), st.entry t (key % 512)⟩,
        (walk_machine h _ _).mpr ⟨rfl, ?_, ?_⟩⟩
      · rw [hregion]
        exact ⟨t, ht, rfl, hne⟩
      · rw [hregion]
        exact ⟨t, ht, rfl⟩
  · rintro ⟨va, hva, rfl, hwalk⟩
    obtain ⟨l, hl⟩ := Option.ne_none_iff_exists'.mp hwalk
    obtain ⟨-, ⟨t, ht, he, hne⟩, -⟩ := (walk_machine h va l).mp hl
    refine ⟨regionOf va, ⟨t, ht, fun hz => hne (he.symm.trans hz)⟩, ?_⟩
    show regionOf va / 512 ^ (0 + 1) = va / 2 ^ 30
    rw [regionOf_of_lt hva]
    omega

/-- and those of the shadow tree by the regions of their level. -/
theorem VmInv.groups_shadow (h : VmInv L root st own free ∅) (hroot : root ≠ 0) {hh n : Nat}
    (hn : 2 ^ n = 4096 * 512 ^ (hh + 1)) :
    groups ptFormat st.entry own .shadow hh = mappedRegions st root n := by
  have hdiv : ∀ key, key * 4096 / 2 ^ n = key / 512 ^ (hh + 1) := by
    intro key
    rw [hn, ← Nat.div_div_eq_div_mul, Nat.mul_div_cancel _ (by decide)]
  ext r
  constructor
  · rintro ⟨key, hin, rfl⟩
    have hkey := h.forest.inUse_lt hin
    rw [ptFormat_width, show ptFormat.rootHeight .shadow = 2 from rfl] at hkey
    obtain ⟨t, ht, hne⟩ := hin
    have hpage : pageOf (key * 4096) = key := by
      unfold pageOf
      omega
    refine ⟨key * 4096, by omega, hdiv key, ?_⟩
    rw [Option.ne_none_iff_exists']
    refine ⟨⟨0, t + 8 * (key % 512), st.entry t (key % 512)⟩,
      (walk_shadow h hroot _ _).mpr ⟨rfl, ?_, ?_⟩⟩
    · rw [hpage]
      exact ⟨t, ht, rfl, hne⟩
    · rw [hpage]
      exact ⟨t, ht, rfl⟩
  · rintro ⟨va, hva, rfl, hwalk⟩
    obtain ⟨l, hl⟩ := Option.ne_none_iff_exists'.mp hwalk
    obtain ⟨-, ⟨t, ht, he, hne⟩, -⟩ := (walk_shadow h hroot va l).mp hl
    have hpage : pageOf va = va / 4096 := by
      unfold pageOf
      omega
    refine ⟨pageOf va, ⟨t, ht, fun hz => hne (he.symm.trans hz)⟩, ?_⟩
    show pageOf va / 512 ^ (hh + 1) = va / 2 ^ n
    rw [hpage, hn, Nat.div_div_eq_div_mul]

/-- Of the GiB regions of Sv39 there are 512. -/
theorem ncard_mappedRegions_le (st : Store) (root : Nat) :
    (mappedRegions st root 30).ncard ≤ 512 := by
  have hsub : mappedRegions st root 30 ⊆ (Finset.range 512 : Finset Nat) := by
    rintro r ⟨va, hva, rfl, -⟩
    rw [Finset.mem_coe, Finset.mem_range]
    omega
  calc (mappedRegions st root 30).ncard ≤ ((Finset.range 512 : Finset Nat) : Set Nat).ncard :=
        Set.ncard_le_ncard hsub (Finset.finite_toSet _)
    _ = 512 := by rw [Set.ncard_coe_finset, Finset.card_range]

/-- Pages left and pages in use make up the pool. -/
theorem State.WellUsed.pagesLeft_add (h : s.WellUsed L)
    (hfree : Linked s.store.load64 s.store.freeListTop free) :
    pagesLeft s.store free + poolUse L s = MAX_ALLOCATEABLE_PAGES := by
  obtain ⟨own, free', hvm, hpop⟩ := h
  obtain rfl := hvm.alloc.chain.unique hfree
  rw [← hvm.alloc.pagesLeft_add, hvm.ncard_tablePages hpop, hvm.groups_machine]
  unfold poolUse
  split
  · rfl
  · rename_i hroot
    rw [hvm.groups_shadow hroot (n := 30) (by decide),
      hvm.groups_shadow hroot (n := 21) (by decide)]

/-- **Pool use.**  In every reachable state the pool is in use exactly as far as what is mapped
    needs: one page for each GiB of guest RAM that is mapped, one for the shadow root, and one for
    each GiB and each 2 MiB in which user mode has something mapped. -/
theorem pool_use_exact (h : Reachable L s)
    (hfree : Linked s.store.load64 s.store.freeListTop free) :
    pagesLeft s.store free + poolUse L s = MAX_ALLOCATEABLE_PAGES :=
  h.wellUsed.pagesLeft_add hfree

/-- A user program that has faulted on its first instruction, and then jumps to an address that its
    own table does not map. -/
theorem exists_lost_user :
    ∃ s, Reachable sampleLayout s ∧ s.store.freeListTop = 0 ∧ s.store.nextUnallocatedIdx = 4 ∧
      s.guest.shadowPageTable ≠ 0 ∧
      exception sampleLayout (fun _ => 0) (sampleReads 1000)
        ((s.guestRun (fun _ => 0) 0x1000).trapEntry 12 0) = .error .propagateFault := by
  obtain ⟨s, hreach, hs⟩ := exists_reachable
    (sampleKernel (store (fun _ => 0) 0x85010010 8 0x2000001F))
    (sampleEnterUser (8 <<< 60 + 0x80010) ++ [⟨fun _ => 0, 0x80000008, 12⟩])
    (fun s => (s.store.freeListTop, s.store.nextUnallocatedIdx,
      decide (s.guest.shadowPageTable ≠ 0),
      (exception sampleLayout (fun _ => 0) (sampleReads 1000)
        ((s.guestRun (fun _ => 0) 0x1000).trapEntry 12 0)).map fun _ => ()))
    (0, 4, true, .error .propagateFault) (by decide) (by decide +kernel)
  simp only [Prod.mk.injEq, decide_eq_true_eq] at hs
  exact ⟨s, hreach, hs.1, hs.2.1, hs.2.2.1, map_eq_error.mp hs.2.2.2⟩

/-- It uses four pages: there are a GiB of guest RAM, a shadow table, and a page in it. -/
theorem pool_use_exact_lost_user :
    ∃ s, Reachable sampleLayout s ∧ s.guest.shadowPageTable ≠ 0 ∧
      poolUse sampleLayout s = 4 := by
  obtain ⟨s, hreach, htop, hnext, hroot, -⟩ := exists_lost_user
  refine ⟨s, hreach, hroot, ?_⟩
  have huse := pool_use_exact hreach
    (show Linked s.store.load64 s.store.freeListTop [] from htop)
  unfold pagesLeft at huse
  rw [hnext, List.length_nil] at huse
  simp only [MAX_ALLOCATEABLE_PAGES] at huse
  omega

/-- **Enough pages.**  As long as user mode has pages mapped in no more than 15354 regions of 2 MiB,
    no trap ends in a panic for want of a page. -/
theorem pool_suffices (h : Reachable L s) {mcause mtval : Word} {reads : MtimeReads}
    {stale : Nat → Nat} {e : Panic}
    (few : s.guest.shadowPageTable ≠ 0 →
      (mappedRegions s.store s.guest.shadowPageTable 21).ncard ≤ 15354)
    (panic : exception L stale reads (s.trapEntry mcause mtval) = .error e) :
    e ≠ .pageAlloc ∧ e ≠ .shadowTableAlloc := by
  have hinv := (h.inv.trapEntry mcause mtval).suspended reads
  have hleft : ¬ PoolBelow 5 (suspended L reads (s.trapEntry mcause mtval)).reported.store := by
    rintro ⟨free, hfree, hlt⟩
    change pagesLeft s.store free < 5 at hlt
    have hadd := h.wellUsed.pagesLeft_add hfree
    have hmachine := ncard_mappedRegions_le s.store (L.machineRoot 0)
    have hshadow := ncard_mappedRegions_le s.store s.guest.shadowPageTable
    unfold poolUse at hadd
    simp only [MAX_ALLOCATEABLE_PAGES] at hadd
    split at hadd
    · omega
    · rename_i hroot
      have hregions := few hroot
      omega
  unfold exception at panic
  rcases bind_eq_error.mp panic with hdispatch | ⟨s', -, hret⟩
  swap
  · cases hret
  have hdiagnosis := dispatch_diagnosis hinv (mpp_trapEntry s mcause mtval) hdispatch
  constructor
  · rintro rfl
    cases hdiagnosis with
    | pageAlloc cause pool => exact hleft (pool.mono (by decide))
  · rintro rfl
    cases hdiagnosis with
    | shadowTableAlloc cause paged pool => exact hleft pool

/-- The jump is reported for what it is. -/
theorem pool_suffices_lost_user :
    ∃ s, Reachable sampleLayout s ∧
      exception sampleLayout (fun _ => 0) (sampleReads 1000) (s.trapEntry 12 0) =
        .error .propagateFault ∧
      Panic.propagateFault ≠ .pageAlloc ∧ Panic.propagateFault ≠ .shadowTableAlloc := by
  obtain ⟨s, hreach, htop, hnext, hroot, hpanic⟩ := exists_lost_user
  have huse := hreach.wellUsed.pagesLeft_add
    (show Linked s.store.load64 s.store.freeListTop [] from htop)
  unfold pagesLeft poolUse at huse
  rw [hnext, if_neg hroot, List.length_nil] at huse
  simp only [MAX_ALLOCATEABLE_PAGES] at huse
  refine ⟨_, hreach.step (.run (fun _ => 0) 0x1000), hpanic, ?_⟩
  refine pool_suffices (hreach.step (.run (fun _ => 0) 0x1000)) (fun _ => ?_) hpanic
  show (mappedRegions s.store s.guest.shadowPageTable 21).ncard ≤ 15354
  omega

end RiscvHypervisor
