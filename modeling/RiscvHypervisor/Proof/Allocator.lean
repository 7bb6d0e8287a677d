import RiscvHypervisor.Lib.FreeChain
import RiscvHypervisor.Model.Vmem
import RiscvHypervisor.Proof.Entries
import Mathlib.Data.Set.Insert

namespace RiscvHypervisor

open ByteMem FreeChain

/-!
# The page allocator

`AllocInv L st free used` says what the allocator guarantees its clients: the free list runs
through `free`, the clients hold `used`, and the two together are exactly the pool pages handed
out at least once.  One lemma per operation: `allocatePage_spec`, `allocatePagepable_spec`,
`deallocatePage_spec`; and `AllocInv.frame` for the clients' own writes.
-/

variable {L : Layout}

/-! ### Where the pages are -/

/-- One of the first `n` pages of the pool. -/
def Layout.InPool (L : Layout) (n p : Nat) : Prop := ∃ i, i < n ∧ p = L.poolPage i

/-- A page of a smaller pool is a page of a larger one. -/
theorem Layout.InPool.mono {n n' p : Nat} (h : L.InPool n p) (hn : n ≤ n') : L.InPool n' p := by
  obtain ⟨i, hi, hp⟩ := h
  exact ⟨i, by omega, hp⟩

/-- A pool page is aligned and lies inside the hypervisor's image. -/
theorem Layout.InPool.bounds {n p : Nat} (h : L.InPool n p) (hn : n ≤ MAX_ALLOCATEABLE_PAGES) :
    p % 4096 = 0 ∧ RAM_START ≤ p ∧ p + 4096 ≤ GUEST_BASE := by
  obtain ⟨i, hi, rfl⟩ := h
  have hal := L.pool_aligned
  have hlo := L.pool_lower
  have hhi := L.pool_upper
  unfold Layout.poolPage
  simp only [MAX_ALLOCATEABLE_PAGES, PGSIZE, RAM_START, GUEST_BASE, GUEST_MEMORY_OFFSET] at *
  omega

/-- No page of the pool is null. -/
theorem Layout.InPool.ne_zero {n p : Nat} (h : L.InPool n p) (hn : n ≤ MAX_ALLOCATEABLE_PAGES) :
    p ≠ 0 := by
  have hb := (h.bounds hn).2.1
  simp only [RAM_START] at hb
  omega

/-- The pages of the pool are distinct. -/
theorem Layout.poolPage_inj {i j : Nat} (h : L.poolPage i = L.poolPage j) : i = j := by
  unfold Layout.poolPage at h
  simp only [PGSIZE] at h
  omega

/-- The machine root is aligned and lies inside the hypervisor's image. -/
theorem Layout.machineRoot_bounds (L : Layout) :
    L.machineRoot 0 % 4096 = 0 ∧ RAM_START ≤ L.machineRoot 0 ∧
      L.machineRoot 0 + 4096 ≤ GUEST_BASE := by
  have hal := L.roots_aligned
  have hlo := L.roots_lower
  have hhi := L.roots_upper
  unfold Layout.machineRoot
  simp only [MAX_GUESTS, PGSIZE, RAM_START, GUEST_BASE, GUEST_MEMORY_OFFSET, Int.toNat_zero] at *
  omega

/-- The machine root is not a pool page. -/
theorem Layout.machineRoot_not_inPool {n : Nat} (hn : n ≤ MAX_ALLOCATEABLE_PAGES) :
    ¬ L.InPool n (L.machineRoot 0) := by
  rintro ⟨i, hi, h⟩
  have hd := L.disjoint
  unfold Layout.machineRoot Layout.poolPage at h
  simp only [MAX_GUESTS, MAX_ALLOCATEABLE_PAGES, PGSIZE, Int.toNat_zero] at *
  omega

/-! ### Stores that differ in output and history -/

/-- The same memory and the same allocator: only what has been printed, and what is remembered of
    the memory, may differ. -/
structure SameMem (st st' : Store) : Prop where
  mem : st'.mem = st.mem
  freeListTop : st'.freeListTop = st.freeListTop
  nextUnallocatedIdx : st'.nextUnallocatedIdx = st.nextUnallocatedIdx
  freed : st'.freed = st.freed

namespace SameMem

variable {st st' st'' : Store}

theorem refl (st : Store) : SameMem st st := ⟨rfl, rfl, rfl, rfl⟩

theorem of_eq (h : st' = st) : SameMem st st' := h ▸ refl st

theorem trans (h : SameMem st st') (h' : SameMem st' st'') : SameMem st st'' :=
  ⟨h'.mem.trans h.mem, h'.freeListTop.trans h.freeListTop,
    h'.nextUnallocatedIdx.trans h.nextUnallocatedIdx, h'.freed.trans h.freed⟩

/-- Printing leaves the memory alone. -/
theorem print (slc : List (BitVec 8)) (st : Store) : SameMem st (printStringSlice slc st) :=
  ⟨rfl, rfl, rfl, rfl⟩

/-- And so does a fence. -/
theorem fence (st : Store) : SameMem st st.vmemFence := ⟨rfl, rfl, rfl, rfl⟩

/-- Doublewords are read as before, -/
theorem load64 (h : SameMem st st') : st'.load64 = st.load64 := by
  funext a
  unfold Store.load64
  rw [h.mem]

/-- and so are the entries of tables. -/
theorem entry (h : SameMem st st') : st'.entry = st.entry := by
  funext t i
  unfold Store.entry
  rw [h.load64]

end SameMem

/-! ### The invariant -/

/-- **The allocator's invariant**: `free` are the pages on the free list and `used` those held by
    clients. -/
structure AllocInv (L : Layout) (st : Store) (free : List Nat) (used : Set Nat) : Prop where
  chain : Linked st.load64 st.freeListTop free
  nodup : free.Nodup
  next_le : st.nextUnallocatedIdx ≤ MAX_ALLOCATEABLE_PAGES
  free_pool : ∀ p ∈ free, L.InPool st.nextUnallocatedIdx p
  used_pool : ∀ p ∈ used, L.InPool st.nextUnallocatedIdx p
  disjoint : ∀ p ∈ free, p ∉ used
  cover : ∀ i, i < st.nextUnallocatedIdx → L.poolPage i ∈ free ∨ L.poolPage i ∈ used

/-- How many pages can still be handed out. -/
def pagesLeft (st : Store) (free : List Nat) : Nat :=
  free.length + (MAX_ALLOCATEABLE_PAGES - st.nextUnallocatedIdx)

namespace AllocInv

variable {st st' : Store} {free : List Nat} {used : Set Nat}

/-- Clients may write whatever they like outside the free pages. -/
theorem frame (h : AllocInv L st free used) (htop : st'.freeListTop = st.freeListTop)
    (hnext : st'.nextUnallocatedIdx = st.nextUnallocatedIdx)
    (hmem : ∀ p ∈ free, ∀ x, p ≤ x → x < p + 4096 → st'.mem x = st.mem x) :
    AllocInv L st' free used where
  chain := by
    rw [htop]
    refine h.chain.congr (fun p hp => ?_)
    exact Store.load64_congr (fun x hlo hhi => hmem p hp x hlo (by omega))
  nodup := h.nodup
  next_le := hnext ▸ h.next_le
  free_pool := by rw [hnext]; exact h.free_pool
  used_pool := by rw [hnext]; exact h.used_pool
  disjoint := h.disjoint
  cover := by rw [hnext]; exact h.cover

/-- The allocator's invariant is about memory and the two cursors only. -/
theorem same (h : AllocInv L st free used) (hs : SameMem st st') : AllocInv L st' free used :=
  h.frame hs.freeListTop hs.nextUnallocatedIdx (fun _ _ _ _ _ => by rw [hs.mem])

end AllocInv

/-! ### The operations -/

variable {st : Store} {free : List Nat} {used : Set Nat}

/-- `allocate_page` fails only when the pool is exhausted; otherwise it hands out a page that no
    client holds. -/
theorem allocatePage_spec (h : AllocInv L st free used) :
    (allocatePage L st = (0, st) ∧ pagesLeft st free = 0) ∨
    ∃ p st' free', allocatePage L st = (p, st') ∧ p ≠ 0 ∧ p ∉ used ∧
      L.InPool st'.nextUnallocatedIdx p ∧ st'.mem = st.mem ∧ st'.freed = st.freed ∧
      pagesLeft st' free' + 1 = pagesLeft st free ∧ AllocInv L st' free' (insert p used) := by
  unfold allocatePage
  by_cases htop : st.freeListTop ≠ 0
  · rw [if_pos htop]
    obtain ⟨rest, hfree, hrest⟩ := h.chain.eq_cons htop
    right
    have hmem : st.freeListTop ∈ free := by simp [hfree]
    have hsub : ∀ p ∈ rest, p ∈ free := fun p hp => by simp [hfree, hp]
    have hnd := h.nodup
    rw [hfree, List.nodup_cons] at hnd
    -- a name for the next link keeps its eight byte reads out of what follows
    generalize st.load64 st.freeListTop = next at hrest ⊢
    have hleft : pagesLeft { st with freeListTop := next } rest + 1 = pagesLeft st free := by
      simp only [pagesLeft, hfree, List.length_cons]
      omega
    refine ⟨_, _, rest, rfl, htop, h.disjoint _ hmem, h.free_pool _ hmem, rfl, rfl, hleft, ?_⟩
    refine ⟨hrest, hnd.2, h.next_le, fun p hp => h.free_pool p (hsub p hp), ?_, ?_, ?_⟩
    · rintro p (rfl | hp)
      · exact h.free_pool _ hmem
      · exact h.used_pool p hp
    · rintro p hp (rfl | hu)
      · exact hnd.1 hp
      · exact h.disjoint p (hsub p hp) hu
    · intro i hi
      rcases h.cover i hi with hf | hu
      · rw [hfree, List.mem_cons] at hf
        rcases hf with heq | hr
        · exact Or.inr (Or.inl heq)
        · exact Or.inl hr
      · exact Or.inr (Or.inr hu)
  · rw [if_neg htop]
    rw [not_not] at htop
    have hnil : free = [] := by
      have hc := h.chain
      rw [htop] at hc
      exact hc.eq_nil
    by_cases hlt : st.nextUnallocatedIdx < MAX_ALLOCATEABLE_PAGES
    · rw [if_pos hlt]
      right
      have hin : L.InPool (st.nextUnallocatedIdx + 1) (L.poolPage st.nextUnallocatedIdx) :=
        ⟨_, Nat.lt_succ_self _, rfl⟩
      have hfresh : L.poolPage st.nextUnallocatedIdx ∉ used := by
        intro hu
        obtain ⟨i, hi, heq⟩ := h.used_pool _ hu
        have := Layout.poolPage_inj heq
        omega
      have hleft : pagesLeft { st with nextUnallocatedIdx := st.nextUnallocatedIdx + 1 } [] + 1 =
          pagesLeft st free := by
        simp only [pagesLeft, hnil, List.length_nil]
        omega
      refine ⟨_, _, [], rfl, hin.ne_zero hlt, hfresh, hin, rfl, rfl, hleft, ?_⟩
      refine ⟨?_, List.nodup_nil, hlt, by simp, ?_, by simp, ?_⟩
      · exact htop
      · rintro p (rfl | hp)
        · exact hin
        · exact (h.used_pool p hp).mono (Nat.le_succ _)
      · intro i hi
        right
        rcases Nat.lt_succ_iff_lt_or_eq.mp hi with hi | rfl
        · rcases h.cover i hi with hf | hu
          · rw [hnil] at hf
            cases hf
          · exact Or.inr hu
        · exact Or.inl rfl
    · rw [if_neg hlt]
      refine Or.inl ⟨rfl, ?_⟩
      simp only [pagesLeft, hnil, List.length_nil]
      omega

/-- `deallocate_page` puts a held page on the free list and writes only that page. -/
theorem deallocatePage_spec (h : AllocInv L st free used) {p : Nat} (hp : p ∈ used) :
    AllocInv L (deallocatePage p st) (p :: free) (used \ {p}) ∧
      (∀ x, x < p ∨ p + 4096 ≤ x → (deallocatePage p st).mem x = st.mem x) ∧
      (deallocatePage p st).nextUnallocatedIdx = st.nextUnallocatedIdx ∧
      (deallocatePage p st).freed =
        ⟨p, st.mem, st.freeListTop, st.nextUnallocatedIdx⟩ :: st.freed := by
  have hin := h.used_pool p hp
  have hne := hin.ne_zero h.next_le
  have hb := hin.bounds h.next_le
  unfold deallocatePage
  rw [if_neg hne]
  -- the old top is stored as a 64-bit word in the freed page: it has to fit to be read back
  have htop : st.freeListTop < 2 ^ 64 := by
    cases hf : free with
    | nil =>
      have hc := h.chain
      rw [hf] at hc
      rw [show st.freeListTop = 0 from hc]
      decide
    | cons q rest =>
      have hc := h.chain
      rw [hf] at hc
      obtain ⟨hq, -, -⟩ := hc
      have hqb := (h.free_pool q (by simp [hf])).bounds h.next_le
      rw [hq]
      simp only [GUEST_BASE, RAM_START, GUEST_MEMORY_OFFSET] at hqb
      omega
  refine ⟨⟨?_, ?_, h.next_le, ?_, ?_, ?_, ?_⟩, ?_, rfl, rfl⟩
  · -- the links of the other free pages are outside the page written
    refine h.chain.push hne (st.load64_store64_same htop) (fun q hq => ?_)
    have hqb := (h.free_pool q hq).bounds h.next_le
    have hqp : q ≠ p := by
      rintro rfl
      exact h.disjoint q hq hp
    exact st.load64_store64_disjoint (by omega)
  · rw [List.nodup_cons]
    exact ⟨fun hf => h.disjoint p hf hp, h.nodup⟩
  · intro q hq
    rcases List.mem_cons.mp hq with rfl | hq
    · exact hin
    · exact h.free_pool q hq
  · exact fun q hq => h.used_pool q hq.1
  · rintro q hq ⟨hu, hqp⟩
    rcases List.mem_cons.mp hq with rfl | hq
    · exact hqp rfl
    · exact h.disjoint q hq hu
  · intro i hi
    by_cases heq : L.poolPage i = p
    · exact Or.inl (by simp [heq])
    · rcases h.cover i hi with hf | hu
      · exact Or.inl (by simp [hf])
      · exact Or.inr ⟨hu, heq⟩
  · intro x hx
    exact st.mem_store64 (by omega)

/-! ### Zeroed pages -/

/-- The zeroing loop of `allocate_pagepable`, up to entry `n`. -/
theorem zeroEntries_spec {p : Nat} (hp : p % 4096 = 0) (st : Store) :
    ∀ n, n ≤ 512 →
      let st' := (List.range n).foldl (fun st i => st.setEntry p i 0) st
      (∀ i, i < n → st'.entry p i = 0) ∧ (∀ x, x < p ∨ p + 4096 ≤ x → st'.mem x = st.mem x) ∧
        st'.freeListTop = st.freeListTop ∧ st'.nextUnallocatedIdx = st.nextUnallocatedIdx ∧
        st'.freed = st.freed := by
  intro n
  induction n with
  | zero =>
    intro _
    exact ⟨fun i hi => absurd hi (Nat.not_lt_zero i), fun _ _ => rfl, rfl, rfl, rfl⟩
  | succ n ih =>
    intro hn
    obtain ⟨hzero, hmem, htop, hnext, hfreed⟩ := ih (by omega)
    simp only [List.range_succ, List.foldl_append, List.foldl_cons, List.foldl_nil]
    refine ⟨?_, ?_, htop, hnext, hfreed⟩
    · intro i hi
      by_cases hin : i = n
      · rw [hin]
        exact Store.entry_setEntry_same _ (by decide)
      · rw [Store.entry_setEntry_ne _ hp hp (by omega) (by omega) (by tauto)]
        exact hzero i (by omega)
    · intro x hx
      rw [Store.mem_setEntry _ (by omega) hx]
      exact hmem x hx

/-- `allocate_pagepable` hands out a page no client holds, with all entries zero, and writes
    nothing else; it fails only when the pool is exhausted. -/
theorem allocatePagepable_spec (h : AllocInv L st free used) :
    (allocatePagepable L st = (0, st) ∧ pagesLeft st free = 0) ∨
    ∃ p st' free', allocatePagepable L st = (p, st') ∧ p ≠ 0 ∧ p ∉ used ∧
      L.InPool st'.nextUnallocatedIdx p ∧ (∀ i, i < 512 → st'.entry p i = 0) ∧
      (∀ x, x < p ∨ p + 4096 ≤ x → st'.mem x = st.mem x) ∧ st'.freed = st.freed ∧
      pagesLeft st' free' + 1 = pagesLeft st free ∧ AllocInv L st' free' (insert p used) := by
  unfold allocatePagepable
  rcases allocatePage_spec h with ⟨heq, hex⟩ |
    ⟨p, st₁, free', heq, hp, hfresh, hin, hmem, hfreed, hleft, h'⟩
  · left
    rw [heq]
    exact ⟨by simp, hex⟩
  · right
    have hb := hin.bounds h'.next_le
    obtain ⟨hzero, hframe, htop, hnext, hfreed'⟩ := zeroEntries_spec hb.1 st₁ 512 (le_refl _)
    refine ⟨p, _, free', by rw [heq]; simp only [hp, if_false], hp, hfresh, ?_, hzero, ?_, ?_,
      ?_, ?_⟩
    · rw [hnext]
      exact hin
    · intro x hx
      rw [hframe x hx, hmem]
    · rw [hfreed', hfreed]
    · rw [← hleft, pagesLeft, hnext, pagesLeft]
    · -- zeroing writes the new page only, which is not on the free list any more
      refine h'.frame htop hnext (fun q hq x hlo hhi => hframe x ?_)
      have hqb := (h'.free_pool q hq).bounds h'.next_le
      have hqp : q ≠ p := by
        rintro rfl
        exact h'.disjoint q hq (Or.inl rfl)
      omega

end RiscvHypervisor
