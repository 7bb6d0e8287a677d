import RiscvHypervisor.Proof.Invariant

namespace RiscvHypervisor

open ByteMem RadixForest FreeChain

/-!
# Ownership of table pages

The owner map of the invariant is a ghost.  Here it is gone: `Table` collects the page tables by
following the pointers in memory from the two roots, `OwnedForest` says that these are separate
pages with one reference each and that together with the free list they make up the pool, and
`pages_owned` proves it of every reachable state.
-/

/-- The page tables of a guest with shadow root `root`, found by following pointers: table `c` of a
    tree, `h` levels above its leaf tables. -/
inductive Table (L : Layout) (root : Nat) (st : Store) : Tree → Nat → Nat → Prop where
  | machineRoot : Table L root st .machine 1 (L.machineRoot 0)
  | shadowRoot (present : root ≠ 0) : Table L root st .shadow 2 root
  | child {x : Tree} {h t i c : Nat} (parent : Table L root st x (h + 1) t) (bound : i < 512)
      (points : entryChild (st.entry t i) = some c) : Table L root st x h c

/-- **The owned forest.**  Table pages are neither shared nor leaked, and no leaf is taken for a
    table or the other way round. -/
structure OwnedForest (L : Layout) (root : Nat) (st : Store) : Prop where
  /-- Tables of different trees or levels are different pages. -/
  place : ∀ {x x' h h' c}, Table L root st x h c → Table L root st x' h' c → x = x' ∧ h = h'
  /-- At most one entry points to a table. -/
  parent : ∀ {x x' h h' t t' i i' c}, Table L root st x h t → i < 512 →
    entryChild (st.entry t i) = some c → Table L root st x' h' t' → i' < 512 →
    entryChild (st.entry t' i') = some c → t = t' ∧ i = i'
  /-- No entry points to a root: the shadow root has its field, the machine root its fixed place. -/
  roots : ∀ {x h t i}, Table L root st x h t → i < 512 →
    entryChild (st.entry t i) ≠ some root ∧ entryChild (st.entry t i) ≠ some (L.machineRoot 0)
  /-- Every table but the machine root is a pool page that was handed out. -/
  pool : ∀ {x h c}, Table L root st x h c → c ≠ L.machineRoot 0 → L.InPool st.nextUnallocatedIdx c
  /-- The pool pages handed out are the free list and the tables, without overlap. -/
  partition : ∃ free, Linked st.load64 st.freeListTop free ∧ free.Nodup ∧
    (∀ {x h c}, Table L root st x h c → c ∉ free) ∧
    ∀ i, i < st.nextUnallocatedIdx →
      L.poolPage i ∈ free ∨ ∃ x h, Table L root st x h (L.poolPage i)
  /-- The valid entries of a leaf table are leaves. -/
  leaf : ∀ {x c i}, Table L root st x 0 c → i < 512 → (st.entry c i).testBit 0 = true →
    Sv39.isLeaf (st.entry c i) = true
  /-- The valid entries of any other table are pointers. -/
  inner : ∀ {x h c i}, Table L root st x (h + 1) c → i < 512 → (st.entry c i).testBit 0 = true →
    Sv39.isLeaf (st.entry c i) = false

variable {L : Layout} {root : Nat} {st : Store} {own : Owner Tree} {free : List Nat}

/-! ### Tables and owners -/

/-- A table found by following pointers has a place. -/
theorem Table.exists_own (hvm : VmInv L root st own free ∅) {x : Tree} {h c : Nat}
    (ht : Table L root st x h c) : ∃ k, own c = some ⟨x, h, k⟩ := by
  induction ht with
  | machineRoot => exact ⟨0, hvm.machine⟩
  | shadowRoot present => exact ⟨0, hvm.shadow_of_ne_zero present⟩
  | child parent bound points ih =>
    obtain ⟨k, hk⟩ := ih
    obtain ⟨h', heq, hc, -⟩ := hvm.entryChild_cases hk bound points
    cases heq
    exact ⟨_, hc⟩

/-- A page with a place is found by following pointers. -/
theorem VmInv.table (hvm : VmInv L root st own free ∅) :
    ∀ (d : Nat) {x : Tree} {h k c : Nat}, d = ptFormat.rootHeight x - h →
      own c = some ⟨x, h, k⟩ → Table L root st x h c := by
  intro d
  induction d with
  | zero =>
    intro x h k c hd hc
    have hle := hvm.forest.height_le hc
    obtain rfl : h = ptFormat.rootHeight x := by omega
    have hlt := hvm.forest.key_lt hc
    rw [Nat.sub_self, pow_zero] at hlt
    obtain rfl : k = 0 := by omega
    cases x with
    | machine =>
      rw [hvm.forest.inj hc hvm.machine]
      exact .machineRoot
    | shadow =>
      rcases hvm.shadow with hs | ⟨-, hall⟩
      · rw [hvm.forest.inj hc hs]
        exact .shadowRoot (hvm.table_ne_zero (by simp [hs]))
      · exact absurd (hall _ _ hc) (by simp)
  | succ d ih =>
    intro x h k c hd hc
    obtain ⟨t, ht, hchild⟩ := hvm.forest.parent hc (by omega) (by simp)
    have hparent : Table L root st x (h + 1) t := ih (by omega) ht
    obtain ⟨hv, hl, -, haddr⟩ := ptChild_eq_some hchild
    refine .child hparent (i := k % 512) (Nat.mod_lt _ (by decide)) ?_
    rw [entryChild_eq]
    change (st.entry t (k % 512)).testBit 0 = true at hv
    change Sv39.isLeaf (st.entry t (k % 512)) = false at hl
    rw [hv, hl, ← haddr]
    rfl

/-! ### Trees that stay -/

/-- The tables of tree `x` are there as before, with the same entries. -/
def SameTree (L : Layout) (root : Nat) (x : Tree) (st st' : Store) : Prop :=
  ∀ h t, Table L root st x h t →
    Table L root st' x h t ∧ ∀ i, i < 512 → st'.entry t i = st.entry t i

/-- It is enough that the entries are the same: they lead to the same tables. -/
theorem SameTree.of_entries {st' : Store} {x : Tree}
    (hentries : ∀ h t, Table L root st x h t → ∀ i, i < 512 → st'.entry t i = st.entry t i) :
    SameTree L root x st st' := by
  intro h t ht
  refine ⟨?_, hentries h t ht⟩
  induction ht with
  | machineRoot => exact .machineRoot
  | shadowRoot present => exact .shadowRoot present
  | child parent bound points ih =>
    refine .child (ih hentries) bound ?_
    rw [hentries _ _ parent _ bound]
    exact points

theorem SameMem.sameTree {st' : Store} {x : Tree} (h : SameMem st st') :
    SameTree L root x st st' :=
  SameTree.of_entries (fun _ _ _ _ _ => by rw [h.entry])

/-! ### The forest -/

theorem VmInv.ownedForest (hvm : VmInv L root st own free ∅) : OwnedForest L root st where
  place := by
    intro x x' h h' c ht ht'
    obtain ⟨k, hk⟩ := ht.exists_own hvm
    obtain ⟨k', hk'⟩ := ht'.exists_own hvm
    rw [hk, Option.some.injEq, Slot.mk.injEq] at hk'
    exact ⟨hk'.1, hk'.2.1⟩
  parent := by
    intro x x' h h' t t' i i' c ht hi hc ht' hi' hc'
    obtain ⟨k, hk⟩ := ht.exists_own hvm
    obtain ⟨k', hk'⟩ := ht'.exists_own hvm
    obtain ⟨hh, rfl, hown, -⟩ := hvm.entryChild_cases hk hi hc
    obtain ⟨hh', rfl, hown', -⟩ := hvm.entryChild_cases hk' hi' hc'
    -- the place of the child determines its parent and the entry there
    rw [hown, Option.some.injEq, Slot.mk.injEq] at hown'
    obtain ⟨rfl, rfl, hkey⟩ := hown'
    obtain ⟨rfl, rfl⟩ := ptFormat.key_inj hi hi' hkey
    exact ⟨hvm.forest.inj hk hk', rfl⟩
  roots := by
    intro x h t i ht hi
    obtain ⟨k, hk⟩ := ht.exists_own hvm
    constructor
    · intro hc
      obtain ⟨h', rfl, hown, -⟩ := hvm.entryChild_cases hk hi hc
      exact (hvm.child_ne_roots hk hown).2 rfl
    · intro hc
      obtain ⟨h', rfl, hown, -⟩ := hvm.entryChild_cases hk hi hc
      exact (hvm.child_ne_roots hk hown).1 rfl
  pool := by
    intro x h c ht hne
    obtain ⟨k, hk⟩ := ht.exists_own hvm
    exact hvm.alloc.used_pool c ⟨by simp [hk], hne⟩
  partition := by
    refine ⟨free, hvm.alloc.chain, hvm.alloc.nodup, ?_, ?_⟩
    · intro x h c ht hc
      obtain ⟨k, hk⟩ := ht.exists_own hvm
      rw [hvm.free_not_table hc] at hk
      cases hk
    · intro i hi
      rcases hvm.alloc.cover i hi with hf | ⟨hown, -⟩
      · exact Or.inl hf
      · obtain ⟨⟨x, h, k⟩, hsl⟩ := Option.ne_none_iff_exists'.mp hown
        exact Or.inr ⟨x, h, hvm.table _ rfl hsl⟩
  leaf := by
    intro x c i ht hi hv
    obtain ⟨k, hk⟩ := ht.exists_own hvm
    rcases hvm.forest.leaf hk hi with hz | hleaf
    · exact absurd hz (ne_zero_of_testBit hv)
    · exact (leafOk_isLeaf hleaf).2.1
  inner := by
    intro x h c i ht hi hv
    obtain ⟨k, hk⟩ := ht.exists_own hvm
    rcases hvm.forest.inner hk hi with hz | ⟨c', hchild, -⟩
    · exact absurd hz (ne_zero_of_testBit hv)
    · exact (ptChild_eq_some hchild).2.1

variable {s : State}

/-- **Ownership.**  In every reachable state the table pages form an owned forest, and every page
    given back so far was allocated and no longer referenced when it was. -/
theorem pages_owned (h : Reachable L s) :
    OwnedForest L s.guest.shadowPageTable s.store ∧
      ∀ c ∈ s.store.freed, c.Sound L ∧ c.page ≠ s.guest.shadowPageTable := by
  obtain ⟨own, free, hvm⟩ := h.inv.core.mem.vm
  exact ⟨hvm.ownedForest, h.inv.core.mem.freed⟩

/-- A user program that has faulted on its first instruction: four pages are in use, the shadow root
    among them. -/
theorem exists_user_fault :
    ∃ s, Reachable sampleLayout s ∧ s.store.nextUnallocatedIdx = 4 ∧
      s.guest.shadowPageTable = sampleLayout.poolPage 1 := by
  obtain ⟨s, hreach, hs⟩ := exists_reachable
    (sampleKernel (store (fun _ => 0) 0x85010010 8 0x2000001F))
    (sampleEnterUser (8 <<< 60 + 0x80010) ++ [⟨fun _ => 0, 0x80000008, 12⟩])
    (fun s => (s.store.nextUnallocatedIdx, s.guest.shadowPageTable))
    (4, sampleLayout.poolPage 1) (by decide) (by decide +kernel)
  exact ⟨s, hreach, Prod.mk.inj hs⟩

/-- Its pages are in order. -/
theorem pages_owned_after_fault :
    ∃ s, Reachable sampleLayout s ∧ s.store.nextUnallocatedIdx = 4 ∧
      s.guest.shadowPageTable = sampleLayout.poolPage 1 ∧
      OwnedForest sampleLayout s.guest.shadowPageTable s.store := by
  obtain ⟨s, hreach, hused, hroot⟩ := exists_user_fault
  exact ⟨s, hreach, hused, hroot, (pages_owned hreach).1⟩

end RiscvHypervisor
