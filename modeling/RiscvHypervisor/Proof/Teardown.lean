import RiscvHypervisor.Lib.Outcome
import RiscvHypervisor.Proof.Tables

namespace RiscvHypervisor

open ByteMem RadixForest FreeChain Except

/-!
# Tearing tables down

`clear_pagetable` on a table of either tree: every entry is zeroed and every table below goes back
to the allocator (`clearPagetable_spec`).  While a child is cleared it is *detached*: still
allocated, but no longer pointed to.  Each call of `deallocate_page` on the way is sound
(`FreeCall.Sound`): the page is allocated, and no table that is still allocated points to it.
-/

/-! ### Sound calls of the allocator -/

/-- The table an entry points to, as the code reads entries: a valid one without `R`, `W`
    and `X`. -/
def entryChild (e : Nat) : Option Nat :=
  if hasAny (unpackPtEntry e).permissions (permbit .v) &&
      !hasAny (unpackPtEntry e).permissions permRWX then some (unpackPtEntry e).address
  else none

theorem entryChild_eq (e : Nat) :
    entryChild e =
      if e.testBit 0 && !Sv39.isLeaf e then some (unpackPtEntry e).address else none := by
  unfold entryChild
  rw [hasAny_unpack, hasAny_unpack_permRWX]
  rfl

/-- The store a call of `deallocate_page` found. -/
def FreeCall.store (c : FreeCall) : Store :=
  ⟨c.mem, c.freeListTop, c.nextUnallocatedIdx, [], [], []⟩

/-- **No double free, no dangling pointer.**  The page given back was handed out and is not on the
    free list, and no page table among the machine root and the pages handed out points to it. -/
def FreeCall.Sound (L : Layout) (c : FreeCall) : Prop :=
  ∃ free, Linked c.store.load64 c.freeListTop free ∧ L.InPool c.nextUnallocatedIdx c.page ∧
    c.page ∉ free ∧
    ∀ t, (t = L.machineRoot 0 ∨ L.InPool c.nextUnallocatedIdx t ∧ t ∉ free) →
      ∀ i, i < 512 → entryChild (c.store.entry t i) ≠ some c.page

variable {L : Layout} {root : Nat} {st st' st'' : Store} {own own' own'' : Owner Tree}
  {free free' free'' : List Nat} {D : Set Nat} {x : Tree} {h k c : Nat}

/-- The entries of an inner table are empty or point to tables of the height below; those of a leaf
    table point nowhere. -/
theorem VmInv.entryChild_cases (hinv : VmInv L root st own free D) {t i : Nat} {x : Tree}
    {h k : Nat}
    (ht : own t = some ⟨x, h, k⟩) (hi : i < 512) {c : Nat}
    (hc : entryChild (st.entry t i) = some c) :
    ∃ h', h = h' + 1 ∧ own c = some ⟨x, h', k * 512 + i⟩ ∧ c ∉ D := by
  rw [entryChild_eq] at hc
  cases h with
  | zero =>
    rcases hinv.forest.leaf ht hi with hz | hleaf
    · rw [hz] at hc
      simp at hc
    · rw [(leafOk_isLeaf hleaf).2.1] at hc
      simp at hc
  | succ h =>
    rcases hinv.forest.inner ht hi with hz | ⟨c', hchild, hown, hD⟩
    · rw [hz] at hc
      simp at hc
    · obtain ⟨hv, hl, -, haddr⟩ := ptChild_eq_some hchild
      rw [hv, hl, haddr] at hc
      obtain rfl : c' = c := Option.some.inj hc
      exact ⟨h, rfl, hown, hD⟩

/-- Giving back a detached table is a sound call. -/
theorem VmInv.freeCall_sound (hinv : VmInv L root st own free D) {c : Nat} (hc : c ∈ D)
    (hown : own c ≠ none) (hroot : c ≠ L.machineRoot 0) :
    FreeCall.Sound L ⟨c, st.mem, st.freeListTop, st.nextUnallocatedIdx⟩ := by
  have hused : c ∈ tablePages L own := ⟨hown, hroot⟩
  refine ⟨free, hinv.alloc.chain, hinv.alloc.used_pool c hused,
    fun hf => hinv.alloc.disjoint c hf hused, ?_⟩
  rintro t ht i hi
  have htown : own t ≠ none := by
    rcases ht with rfl | ⟨⟨idx, hidx, rfl⟩, hfree⟩
    · rw [hinv.machine]
      simp
    · rcases hinv.alloc.cover idx hidx with hf | hu
      · exact absurd hf hfree
      · exact hu.1
  obtain ⟨⟨x, h, k⟩, hsl⟩ := Option.ne_none_iff_exists'.mp htown
  intro hchild
  obtain ⟨-, -, -, hD⟩ := hinv.entryChild_cases hsl hi hchild
  exact hD hc

/-! ### What clearing keeps -/

/-- Tables of tree `x` below height `h` may be gone, and those in `S` rewritten; everything else is
    as it was. -/
structure Trims (L : Layout) (root : Nat) (x : Tree) (h : Nat) (S D : Set Nat) (st : Store)
    (own : Owner Tree) (st' : Store) (own' : Owner Tree) (free' : List Nat) : Prop where
  inv : VmInv L root st' own' free' D
  sub : ∀ u sl, own' u = some sl → own u = some sl
  keep : ∀ u sl, own u = some sl → sl.tree ≠ x ∨ h ≤ sl.height → own' u = some sl
  entries : ∀ u sl, own u = some sl → sl.tree ≠ x ∨ h ≤ sl.height → u ∉ S →
    ∀ j, j < 512 → st'.entry u j = st.entry u j
  ram : SameGuestRam st st'
  freed : ∀ c ∈ st'.freed, c ∈ st.freed ∨ c.Sound L ∧ c.page ≠ root

variable {S D' : Set Nat}

theorem Trims.refl (hinv : VmInv L root st own free D) :
    Trims L root x h S D st own st own free where
  inv := hinv
  sub := fun _ _ hsl => hsl
  keep := fun _ _ hsl _ => hsl
  entries := fun _ _ _ _ _ _ _ => rfl
  ram := SameGuestRam.refl st
  freed := fun _ hc => Or.inl hc

theorem Trims.trans (h₁ : Trims L root x h S D' st own st' own' free')
    (h₂ : Trims L root x h S D st' own' st'' own'' free'') :
    Trims L root x h S D st own st'' own'' free'' where
  inv := h₂.inv
  sub := fun u sl hsl => h₁.sub u sl (h₂.sub u sl hsl)
  keep := fun u sl hsl hkeep => h₂.keep u sl (h₁.keep u sl hsl hkeep) hkeep
  entries := by
    intro u sl hsl hkeep hu j hj
    rw [h₂.entries u sl (h₁.keep u sl hsl hkeep) hkeep hu j hj, h₁.entries u sl hsl hkeep hu j hj]
  ram := h₁.ram.trans h₂.ram
  freed := by
    intro c hc
    rcases h₂.freed c hc with hc | hc
    · exact h₁.freed c hc
    · exact Or.inr hc

theorem Trims.mono {S' : Set Nat} (h₁ : Trims L root x h S D st own st' own' free') (hS : S ⊆ S') :
    Trims L root x h S' D st own st' own' free' :=
  { h₁ with entries := fun u sl hsl hkeep hu => h₁.entries u sl hsl hkeep (fun hm => hu (hS hm)) }

/-- Rewriting a table of height `h` does not touch the tables above. -/
theorem Trims.above (h₁ : Trims L root x h {c} D st own st' own' free')
    (hc : own c = some ⟨x, h, k⟩) : Trims L root x (h + 1) ∅ D st own st' own' free' where
  inv := h₁.inv
  sub := h₁.sub
  keep := fun u sl hsl hkeep => h₁.keep u sl hsl (hkeep.imp_right Nat.le_of_succ_le)
  entries := by
    intro u sl hsl hkeep _
    refine h₁.entries u sl hsl (hkeep.imp_right Nat.le_of_succ_le) ?_
    rintro rfl
    rw [hc] at hsl
    cases hsl
    rcases hkeep with hne | hlt
    · exact hne rfl
    · exact absurd hlt (Nat.not_succ_le_self _)
  ram := h₁.ram
  freed := h₁.freed

/-! ### The steps -/

/-- Zeroing an entry of a table, given that the tables are in order afterwards. -/
theorem VmInv.trims_zeroEntry (hinv : VmInv L root st own free D) {t i : Nat} (ht : own t ≠ none)
    (hi : i < 512) (hinv' : VmInv L root (st.setEntry t i 0) own free D') :
    Trims L root x h {t} D' st own (st.setEntry t i 0) own free where
  inv := hinv'
  sub := fun _ _ hsl => hsl
  keep := fun _ _ hsl _ => hsl
  entries := fun u sl hsl _ hu j hj =>
    hinv.agreeExcept_setEntry ht hi u (by simp [hsl]) j hj (fun hc => hu hc.1)
  ram := hinv.sameGuestRam_setEntry ht hi
  freed := fun _ hc => Or.inl hc

/-- Zeroing an entry that is zero already. -/
theorem VmInv.zeroEntry (hinv : VmInv L root st own free D) {t i : Nat} (ht : own t ≠ none)
    (hi : i < 512) (hz : st.entry t i = 0) : VmInv L root (st.setEntry t i 0) own free D := by
  refine ⟨hinv.forest.frame (fun t' ht' j hj => ?_), hinv.alloc_setEntry ht hi, hinv.machine,
    hinv.shadow⟩
  by_cases heq : t' = t ∧ j = i
  · obtain ⟨rfl, rfl⟩ := heq
    rw [st.entry_setEntry_same (by decide), hz]
  · exact hinv.agreeExcept_setEntry ht hi t' ht' j hj heq

/-- Zeroing a pointer detaches the table it pointed to. -/
theorem VmInv.detachEntry (hinv : VmInv L root st own free D) {t i : Nat}
    (ht : own t = some ⟨x, h + 1, k⟩) (hi : i < 512) (hchild : ptChild (st.entry t i) = some c) :
    own c = some ⟨x, h, k * 512 + i⟩ ∧ c ∉ D ∧
      VmInv L root (st.setEntry t i 0) own free (insert c D) := by
  have hne : own t ≠ none := by simp [ht]
  obtain ⟨hc, hforest⟩ := hinv.forest.detach ht hi hchild (hinv.agreeExcept_setEntry hne hi)
    (st.entry_setEntry_same (by decide))
  refine ⟨hc, ?_, hforest, hinv.alloc_setEntry hne hi, hinv.machine, hinv.shadow⟩
  rcases hinv.forest.inner ht hi with hz | ⟨c', hc', -, hD⟩
  · rw [hz, ptFormat_zero] at hchild
    cases hchild
  · rw [ptFormat_child, hchild] at hc'
    cases hc'
    exact hD

/-- A table below the root of its tree is neither of the two roots. -/
theorem VmInv.child_ne_roots (hinv : VmInv L root st own free D) {t c k i : Nat}
    (ht : own t = some ⟨x, h + 1, k⟩) (hc : own c = some ⟨x, h, i⟩) :
    c ≠ L.machineRoot 0 ∧ c ≠ root := by
  have hle : h + 1 ≤ ptFormat.rootHeight x := hinv.forest.height_le ht
  constructor
  · rintro rfl
    rw [hinv.machine] at hc
    cases hc
    exact absurd hle (by decide)
  · rintro rfl
    rcases hinv.shadow with hs | ⟨h0, -⟩
    · rw [hs] at hc
      cases hc
      exact absurd hle (by decide)
    · exact hinv.table_ne_zero (by simp [hc]) h0

/-- Giving back an empty detached table. -/
theorem VmInv.dropTable (hinv : VmInv L root st own free (insert c D)) (hcD : c ∉ D)
    (hc : own c = some ⟨x, h, k⟩) (hne : c ≠ L.machineRoot 0 ∧ c ≠ root)
    (hzero : ∀ j, j < 512 → st.entry c j = 0) :
    Trims L root x (h + 1) ∅ D st own (deallocatePage c st) (Function.update own c none)
      (c :: free) := by
  have hown : own c ≠ none := by simp [hc]
  have hpages : tablePages L (Function.update own c none) = tablePages L own \ {c} := by
    ext t
    by_cases htc : t = c
    · simp [tablePages, htc]
    · simp [tablePages, htc]
  obtain ⟨halloc, hmem, -, hfreed⟩ := deallocatePage_spec hinv.alloc (p := c) ⟨hown, hne.1⟩
  have hcb := hinv.table_bounds hown
  -- the link of the free list goes into the page itself
  have hagree : ∀ u, own u ≠ none → u ≠ c → ∀ j, j < 512 →
      (deallocatePage c st).entry u j = st.entry u j := by
    intro u hu huc j hj
    have hub := hinv.table_bounds hu
    exact Store.load64_congr (fun a _ _ => hmem a (by omega))
  have hkept : ∀ u sl, own u = some sl → sl.tree ≠ x ∨ h + 1 ≤ sl.height → u ≠ c := by
    rintro u sl hsl hkeep rfl
    rw [hc] at hsl
    cases hsl
    rcases hkeep with hx | hlt
    · exact hx rfl
    · exact absurd hlt (Nat.not_succ_le_self _)
  have hD : insert c D \ {c} = D := by
    ext u
    by_cases huc : u = c
    · simp [huc, hcD]
    · simp [huc]
  refine ⟨⟨?_, ?_, ?_, ?_⟩, ?_, ?_, ?_, ?_, ?_⟩
  · rw [← hD]
    refine (hinv.forest.drop (Set.mem_insert c D) hzero).frame (fun u hu j hj => ?_)
    have huc : u ≠ c := by
      rintro rfl
      simp at hu
    rw [Function.update_of_ne huc] at hu
    exact hagree u hu huc j hj
  · rw [hpages]
    exact halloc
  · rw [Function.update_of_ne hne.1.symm]
    exact hinv.machine
  · rcases hinv.shadow with hs | ⟨h0, hall⟩
    · left
      rw [Function.update_of_ne hne.2.symm]
      exact hs
    · right
      exact ⟨h0, fun u sl hsl => hall u sl (update_none_cases hsl).2⟩
  · intro u sl hsl
    exact (update_none_cases hsl).2
  · intro u sl hsl hkeep
    rw [Function.update_of_ne (hkept u sl hsl hkeep)]
    exact hsl
  · intro u sl hsl hkeep _ j hj
    exact hagree u (by simp [hsl]) (hkept u sl hsl hkeep) j hj
  · intro a ha
    exact hmem a (by omega)
  · intro call hcall
    rw [hfreed, List.mem_cons] at hcall
    rcases hcall with rfl | hcall
    · exact Or.inr ⟨hinv.freeCall_sound (Set.mem_insert c D) hown hne.1, hne.2⟩
    · exact Or.inl hcall

/-! ### The teardown -/

/-- One turn of the loop, on a table of height `h`, given what `deallocate` does to the tables one
    level below. -/
theorem clearEntry_spec {deallocate : Nat → Store → Except Panic Store}
    (hinv : VmInv L root st own free D) {t i : Nat} (ht : own t = some ⟨x, h, k⟩) (hi : i < 512)
    (hdealloc : ∀ h' c k' st, h = h' + 1 → own c = some ⟨x, h', k'⟩ → c ∉ D →
      c ≠ L.machineRoot 0 ∧ c ≠ root → VmInv L root st own free (insert c D) →
      (deallocate c st).Post (fun _ => False)
        (fun st' => ∃ own' free', Trims L root x h ∅ D st own st' own' free')) :
    (clearEntry deallocate t st i).Post (fun _ => False)
      (fun st' => ∃ own' free', Trims L root x h {t} D st own st' own' free' ∧ st'.entry t i = 0 ∧
        ∀ j, j < 512 → j ≠ i → st'.entry t j = st.entry t j) := by
  have hne : own t ≠ none := by simp [ht]
  have hzero : (st.setEntry t i 0).entry t i = 0 := st.entry_setEntry_same (by decide)
  have hothers : ∀ j, j < 512 → j ≠ i → (st.setEntry t i 0).entry t j = st.entry t j :=
    fun j hj hji => hinv.agreeExcept_setEntry hne hi t hne j hj (fun hc => hji hc.2)
  unfold clearEntry
  simp only [hasAny_unpack, hasAny_unpack_permRWX, MempermIndex.toNat]
  by_cases hv : (st.entry t i).testBit 0 = true
  swap
  · -- an empty entry
    have hz : st.entry t i = 0 := by
      cases h with
      | zero =>
        rcases hinv.forest.leaf ht hi with hz | hleaf
        · exact hz
        · exact absurd (leafOk_isLeaf hleaf).1 hv
      | succ h =>
        rcases hinv.forest.inner ht hi with hz | ⟨c, hchild, -⟩
        · exact hz
        · exact absurd (ptChild_eq_some hchild).1 hv
    simp only [hv, Bool.not_false, if_true]
    exact post_ok.mpr
      ⟨own, free, hinv.trims_zeroEntry hne hi (hinv.zeroEntry hne hi hz), hzero, hothers⟩
  cases h with
  | zero =>
    -- a leaf is cleared, and the page it maps is the guest's to keep
    have hl : Sv39.isLeaf (st.entry t i) = true := by
      rcases hinv.forest.leaf ht hi with hz | hleaf
      · exact absurd hz (ne_zero_of_testBit hv)
      · exact (leafOk_isLeaf hleaf).2.1
    have hinv' := hinv.setLeaf ht hi (v := 0) (by decide) (Or.inl rfl)
    simp only [hv, hl, Bool.not_true, Bool.false_eq_true, if_false, if_true]
    exact post_ok.mpr ⟨own, free, hinv.trims_zeroEntry hne hi hinv', hzero, hothers⟩
  | succ h =>
    -- the child is cut off before it is freed
    rcases hinv.forest.inner ht hi with hz | ⟨c, hchild, -⟩
    · exact absurd hz (ne_zero_of_testBit hv)
    obtain ⟨-, hl, -, haddr⟩ := ptChild_eq_some hchild
    obtain ⟨hc, hcD, hdetached⟩ := hinv.detachEntry ht hi hchild
    simp only [hv, hl, haddr, Bool.not_true, Bool.false_eq_true, if_false]
    refine (hdealloc h c _ _ rfl hc hcD (hinv.child_ne_roots ht hc) hdetached).mono
      (fun _ he => he) ?_
    rintro st' ⟨own', free', htrims⟩
    have hsame := htrims.entries t _ ht (Or.inr (le_refl _)) (by simp)
    refine ⟨own', free', (hinv.trims_zeroEntry hne hi hdetached).trans (htrims.mono (by simp)),
      ?_, ?_⟩
    · rw [hsame i hi, hzero]
    · intro j hj hji
      rw [hsame j hj, hothers j hj hji]

/-- The loop over the first `n` entries. -/
theorem clearLoop_spec {deallocate : Nat → Store → Except Panic Store}
    (hinv : VmInv L root st own free D) {t : Nat} (ht : own t = some ⟨x, h, k⟩)
    (hdealloc : ∀ h' c k' st own free, h = h' + 1 → own c = some ⟨x, h', k'⟩ → c ∉ D →
      c ≠ L.machineRoot 0 ∧ c ≠ root → VmInv L root st own free (insert c D) →
      (deallocate c st).Post (fun _ => False)
        (fun st' => ∃ own' free', Trims L root x h ∅ D st own st' own' free'))
    (n : Nat) (hn : n ≤ 512) :
    ((List.range n).foldlM (clearEntry deallocate t) st).Post (fun _ => False)
      (fun st' => ∃ own' free', Trims L root x h {t} D st own st' own' free' ∧
        ∀ j, j < n → st'.entry t j = 0) := by
  refine Post.foldlM_range (P := fun i st' => ∃ own' free',
    Trims L root x h {t} D st own st' own' free' ∧ ∀ j, j < i → st'.entry t j = 0)
    ⟨own, free, Trims.refl hinv, by simp⟩ n ?_
  rintro i st₁ hi ⟨own₁, free₁, htrims, hzero⟩
  have ht₁ := htrims.keep t _ ht (Or.inr (le_refl _))
  refine (clearEntry_spec htrims.inv ht₁ (by omega) (fun h' c k' st₂ =>
    hdealloc h' c k' st₂ own₁ free₁)).mono (fun _ he => he) ?_
  rintro st₂ ⟨own₂, free₂, htrims₂, hi₂, hothers⟩
  refine ⟨own₂, free₂, htrims.trans htrims₂, fun j hj => ?_⟩
  by_cases hji : j = i
  · rw [hji, hi₂]
  · rw [hothers j (by omega) hji, hzero j (by omega)]

/-- **Teardown.**  Clearing a table of height `h` never fails.  Afterwards all its entries are zero,
    and the tables below it are back in the pool. -/
theorem clearPagetable_spec :
    ∀ (h depth : Nat) {t k : Nat} {st : Store} {own : Owner Tree} {free : List Nat} {D : Set Nat},
      h < depth → own t = some ⟨x, h, k⟩ → VmInv L root st own free D →
      (clearPagetable depth t st).Post (fun _ => False)
        (fun st' => ∃ own' free', Trims L root x h {t} D st own st' own' free' ∧
          ∀ j, j < 512 → st'.entry t j = 0) := by
  intro h
  induction h with
  | zero =>
    intro depth t k st own free D hdepth ht hinv
    obtain ⟨depth, rfl⟩ : ∃ n, depth = n + 1 := ⟨depth - 1, by omega⟩
    rw [clearPagetable, if_neg (hinv.table_ne_zero (by simp [ht]))]
    -- the number of turns as a variable, or the loop is unrolled
    generalize h512 : (512 : Nat) = n
    refine clearLoop_spec hinv ht ?_ n h512.ge
    intro h' c k' st₁ own₁ free₁ heq
    exact absurd heq (Nat.succ_ne_zero h').symm
  | succ h ih =>
    intro depth t k st own free D hdepth ht hinv
    obtain ⟨depth, rfl⟩ : ∃ n, depth = n + 1 := ⟨depth - 1, by omega⟩
    rw [clearPagetable, if_neg (hinv.table_ne_zero (by simp [ht]))]
    generalize h512 : (512 : Nat) = n
    refine clearLoop_spec hinv ht ?_ n h512.ge
    intro h' c k' st₁ own₁ free₁ heq hc hcD hne hinv₁
    cases heq
    rw [deallocatePagepableWith, if_neg (hinv₁.table_ne_zero (by simp [hc]))]
    refine (ih depth (by omega) hc hinv₁).bind ?_
    rintro st₂ ⟨own₂, free₂, htrims, hzero⟩
    have hc₂ := htrims.keep c _ hc (Or.inr (le_refl _))
    exact post_ok.mpr ⟨_, _, (htrims.above hc).trans (htrims.inv.dropTable hcD hc₂ hne hzero)⟩

end RiscvHypervisor
