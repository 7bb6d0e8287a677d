import RiscvHypervisor.Proof.Ownership
import RiscvHypervisor.Proof.Walk

namespace RiscvHypervisor

open ByteMem RadixForest FreeChain Except

/-!
# Flushing the shadow table

`flush_shadow_pagetable` in terms of the tables that can be found by following pointers (`Table`):
of the shadow tree nothing is left but its empty root, and the free list has grown by what is gone.
Which pages these are is read off the invariant before and after: the pool is the free list and the
tables both times, and `clear_pagetable` takes no page from it (`clearPagetable_next`).
-/

variable {L : Layout} {root : Nat} {st st' : Store} {own own' : Owner Tree} {free free' : List Nat}

/-! ### The pool -/

theorem nextUnallocatedIdx_deallocatePage (p : Nat) (st : Store) :
    (deallocatePage p st).nextUnallocatedIdx = st.nextUnallocatedIdx := by
  unfold deallocatePage
  split
  · rfl
  · rfl

theorem printed_deallocatePage (p : Nat) (st : Store) :
    (deallocatePage p st).printed = st.printed := by
  unfold deallocatePage
  split
  · rfl
  · rfl

/-- A teardown takes no page from the pool and sends no message. -/
theorem clearPagetable_frame : ∀ (depth t : Nat) (st : Store),
    (clearPagetable depth t st).Post (fun _ => True) (fun st' =>
      st'.nextUnallocatedIdx = st.nextUnallocatedIdx ∧ st'.printed = st.printed) := by
  intro depth
  induction depth with
  | zero => exact fun _ _ => post_error.mpr trivial
  | succ depth ih =>
    intro t st
    rw [clearPagetable]
    split
    · exact post_ok.mpr ⟨rfl, rfl⟩
    generalize (512 : Nat) = n
    refine Post.foldlM_range (P := fun _ (st' : Store) =>
      st'.nextUnallocatedIdx = st.nextUnallocatedIdx ∧ st'.printed = st.printed) ⟨rfl, rfl⟩ n ?_
    intro i st₁ _ h₁
    unfold clearEntry
    dsimp only
    split
    · exact post_ok.mpr h₁
    split
    · exact post_ok.mpr h₁
    unfold deallocatePagepableWith
    split
    · exact post_ok.mpr h₁
    refine (ih _ _).bind ?_
    rintro st₂ ⟨hnext, hprinted⟩
    refine post_ok.mpr ⟨?_, ?_⟩
    · rw [nextUnallocatedIdx_deallocatePage, hnext]
      exact h₁.1
    · rw [printed_deallocatePage, hprinted]
      exact h₁.2

/-- Nor does a flush. -/
theorem printed_flushShadowPagetable {s t : State} (h : flushShadowPagetable s = .ok t) :
    t.store.printed = s.store.printed := by
  unfold flushShadowPagetable at h
  split at h
  · cases h
    rfl
  · obtain ⟨st', hclear, hret⟩ := bind_eq_ok.mp h
    cases hret
    exact ((clearPagetable_frame _ _ _).ok hclear).2

/-! ### What is left of the tree -/

/-- Below an empty shadow root there are no tables. -/
theorem VmInv.no_shadow_below (h : VmInv L root st own free ∅) (hroot : root ≠ 0)
    (hzero : ∀ i, i < 512 → st.entry root i = 0) :
    ∀ {t hh k}, own t = some ⟨.shadow, hh, k⟩ → hh = 2 := by
  have hown := h.shadow_of_ne_zero hroot
  -- none one level below the root, and so none two levels below
  have hno : ∀ t k, own t ≠ some ⟨.shadow, 1, k⟩ := by
    intro t k ht
    obtain ⟨p, hp, hchild⟩ := h.forest.parent ht (by decide) (by simp)
    have hk : k / 512 = 0 := by
      have hlt : k < 512 ^ 1 := h.forest.key_lt ht
      omega
    rw [ptFormat_width, hk] at hp
    rw [h.forest.inj hp hown, ptFormat_width, hzero _ (Nat.mod_lt _ (by decide))] at hchild
    cases hchild
  intro t hh k ht
  have hle : hh ≤ 2 := h.forest.height_le ht
  match hh, hle with
  | 0, _ =>
    obtain ⟨p, hp, -⟩ := h.forest.parent ht (by decide) (by simp)
    exact absurd hp (hno p _)
  | 1, _ => exact absurd ht (hno t k)
  | 2, _ => rfl

/-- Nor is anything mapped. -/
theorem VmInv.walk_empty (h : VmInv L root st own free ∅) (hroot : root ≠ 0)
    (hzero : ∀ i, i < 512 → st.entry root i = 0) (va : Nat) :
    Sv39.walk st.load64 va 2 root = none := by
  rw [Option.eq_none_iff_forall_ne_some]
  intro l hl
  obtain ⟨-, ⟨t, ht, -⟩, -⟩ := (walk_shadow h hroot va l).mp hl
  exact absurd (h.no_shadow_below hroot hzero ht) (by decide)

/-- **The free list after a flush.**  It has grown by the tables below the root. -/
theorem Trims.free_iff (h : VmInv L root st own free ∅) (hroot : root ≠ 0)
    (htrims : Trims L root .shadow 2 {root} ∅ st own st' own' free')
    (hnext : st'.nextUnallocatedIdx = st.nextUnallocatedIdx)
    (hzero : ∀ i, i < 512 → st'.entry root i = 0) (p : Nat) :
    p ∈ free' ↔ p ∈ free ∨ ∃ hh, hh < 2 ∧ Table L root st .shadow hh p := by
  have hinv' := htrims.inv
  -- a pool page that is no table afterwards is free afterwards
  have hfree : ∀ q, L.InPool st.nextUnallocatedIdx q → own' q = none → q ∈ free' := by
    rintro q ⟨i, hi, rfl⟩ hq
    rw [← hnext] at hi
    rcases hinv'.alloc.cover i hi with hf | hu
    · exact hf
    · exact absurd hq hu.1
  constructor
  · intro hp
    have hgone := hinv'.free_not_table hp
    obtain ⟨i, hi, rfl⟩ := hinv'.alloc.free_pool p hp
    rw [hnext] at hi
    rcases h.alloc.cover i hi with hf | ⟨hown, -⟩
    · exact Or.inl hf
    · obtain ⟨⟨x, hh, k⟩, hsl⟩ := Option.ne_none_iff_exists'.mp hown
      right
      -- what is kept is what is not below the shadow root
      by_cases hkeep : x ≠ .shadow ∨ 2 ≤ hh
      · rw [htrims.keep _ _ hsl hkeep] at hgone
        cases hgone
      · rw [not_or, not_not, Nat.not_le] at hkeep
        obtain ⟨rfl, hlt⟩ := hkeep
        exact ⟨hh, hlt, h.table _ rfl hsl⟩
  · rintro (hp | ⟨hh, hlt, ht⟩)
    · refine hfree p (h.alloc.free_pool p hp) ?_
      by_contra hown
      obtain ⟨sl, hsl⟩ := Option.ne_none_iff_exists'.mp hown
      have hbefore := htrims.sub p sl hsl
      rw [h.free_not_table hp] at hbefore
      cases hbefore
    · obtain ⟨k, hk⟩ := ht.exists_own h
      have hne : p ≠ L.machineRoot 0 := by
        rintro rfl
        rw [h.machine] at hk
        cases hk
      refine hfree p (h.alloc.used_pool p ⟨by simp [hk], hne⟩) ?_
      by_contra hown
      obtain ⟨sl, hsl⟩ := Option.ne_none_iff_exists'.mp hown
      have hbefore := htrims.sub p sl hsl
      rw [hk] at hbefore
      cases hbefore
      have htwo := hinv'.no_shadow_below hroot hzero hsl
      omega

/-! ### The flush -/

/-- What a flush of the shadow table at `root` makes of the store. -/
structure Flushed (L : Layout) (root : Nat) (st st' : Store) : Prop where
  /-- The root is empty. -/
  empty : ∀ i, i < 512 → st'.entry root i = 0
  /-- No address is translated. -/
  unmapped : ∀ va, Sv39.walk st'.load64 va 2 root = none
  /-- The free list, which had none of the shadow tables, has all of them but the root, each once,
      and nothing else is new. -/
  freeList : ∃ free free', Linked st.load64 st.freeListTop free ∧
    Linked st'.load64 st'.freeListTop free' ∧ free'.Nodup ∧
    (∀ h p, Table L root st .shadow h p → p ∉ free) ∧
    (∀ p, p ∈ free' ↔ p ∈ free ∨ ∃ h, h < 2 ∧ Table L root st .shadow h p) ∧ root ∉ free'
  /-- The root is a pool page that is handed out, and no page was handed out meanwhile. -/
  rootPage : L.InPool st'.nextUnallocatedIdx root
  next : st'.nextUnallocatedIdx = st.nextUnallocatedIdx
  /-- The machine table is as it was. -/
  machine : SameTree L root .machine st st'
  /-- So is the guest's memory. -/
  ram : SameGuestRam st st'

theorem VmInv.flushed (h : VmInv L root st own free ∅) (hroot : root ≠ 0) :
    ∃ st', clearPagetable teardownDepth root st = .ok st' ∧ Flushed L root st st' := by
  have hown := h.shadow_of_ne_zero hroot
  have hpost := clearPagetable_spec 2 teardownDepth (by decide) hown h
  cases hclear : clearPagetable teardownDepth root st with
  | error e => exact absurd (hpost.error hclear) id
  | ok st' =>
    obtain ⟨own', free', htrims, hzero⟩ := hpost.ok hclear
    have hinv' := htrims.inv
    have hnext := ((clearPagetable_frame teardownDepth root st).ok hclear).1
    have hown' := htrims.keep root _ hown (Or.inr (le_refl _))
    have hmain : root ≠ L.machineRoot 0 := by
      rintro rfl
      rw [h.machine] at hown
      cases hown
    refine ⟨st', rfl, hzero, hinv'.walk_empty hroot hzero, ?_, ?_, hnext, ?_, htrims.ram⟩
    · refine ⟨free, free', h.alloc.chain, hinv'.alloc.chain, hinv'.alloc.nodup, ?_,
        htrims.free_iff h hroot hnext hzero, ?_⟩
      · intro hh p ht hp
        obtain ⟨k, hk⟩ := ht.exists_own h
        rw [h.free_not_table hp] at hk
        cases hk
      · intro hp
        rw [hinv'.free_not_table hp] at hown'
        cases hown'
    · exact hinv'.alloc.used_pool root ⟨by simp [hown'], hmain⟩
    · refine SameTree.of_entries (fun hh t ht => ?_)
      obtain ⟨k, hk⟩ := ht.exists_own h
      refine htrims.entries t _ hk (Or.inl (by simp)) ?_
      rintro rfl
      rw [hown] at hk
      cases hk

/-- The fence that follows changes none of it. -/
theorem Flushed.fence (h : Flushed L root st st') : Flushed L root st st'.vmemFence :=
  ⟨h.empty, h.unmapped, h.freeList, h.rootPage, h.next,
    SameTree.of_entries (fun hh t ht => (h.machine hh t ht).2), h.ram⟩

variable {s : State}

/-- **Flush.**  In every reachable state with a shadow table, `flush_shadow_pagetable` returns and
    changes the store only: the shadow table is emptied down to its root, and the pages of the
    tables below are back on the free list. -/
theorem flush_shadow_complete (h : Reachable L s) (hroot : s.guest.shadowPageTable ≠ 0) :
    ∃ st', flushShadowPagetable s = .ok { s with store := st' } ∧
      Flushed L s.guest.shadowPageTable s.store st' := by
  obtain ⟨own, free, hvm⟩ := h.inv.core.mem.vm
  obtain ⟨st', hclear, hflushed⟩ := hvm.flushed hroot
  refine ⟨st'.vmemFence, ?_, hflushed.fence⟩
  unfold flushShadowPagetable
  rw [if_neg hroot, hclear]
  rfl

/-- A user program that has faulted on its first instruction has a table at each level. -/
theorem flush_shadow_complete_after_fault :
    ∃ s st', Reachable sampleLayout s ∧ s.store.nextUnallocatedIdx = 4 ∧
      flushShadowPagetable s = .ok { s with store := st' } ∧
      Flushed sampleLayout s.guest.shadowPageTable s.store st' := by
  obtain ⟨s, hreach, hused, hroot⟩ := exists_user_fault
  obtain ⟨st', hflush, hflushed⟩ := flush_shadow_complete hreach (by rw [hroot]; decide)
  exact ⟨s, st', hreach, hused, hflush, hflushed⟩

end RiscvHypervisor
