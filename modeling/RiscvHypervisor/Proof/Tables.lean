import RiscvHypervisor.Lib.RadixForest
import RiscvHypervisor.Proof.Allocator
import Mathlib.Data.Fintype.Card

namespace RiscvHypervisor

open ByteMem RadixForest

/-!
# The table invariant

The machine table and the shadow table are two radix trees in one store (`ptFormat`): the machine
root has leaves of 2 MiB one level below it, the shadow root leaves of 4 KiB two levels below.
`VmInv` ties the three parts together: the ownership discipline of the tables, the allocator,
and the two roots.  A page of the pool is in use exactly if it is a table.

* `MachineLeaf`, `ShadowLeaf` — what an entry of a leaf table may hold;
* `Maps` — the content of a tree as a map from page numbers to entries;
* `VmInv.link_spec`, `VmInv.newRoot_spec`, `VmInv.setLeaf` — the writes the table builders make.
-/

/-! ### The two trees -/

/-- The two page tables of a guest. -/
inductive Tree where
  | machine
  | shadow
deriving DecidableEq, Repr

/-- The child table an entry points to. -/
def ptChild (e : Nat) : Option Nat :=
  if e.testBit 0 && !Sv39.isLeaf e && decide (e < 2 ^ 54) then some (unpackPtEntry e).address
  else none

/-- A leaf of the machine table: the 2 MiB region `key` of guest RAM, moved by
    `GUEST_MEMORY_OFFSET`, with all permissions. -/
structure MachineLeaf (key e : Nat) : Prop where
  ram : RAM_START ≤ key * 2 ^ 21
  page : e / 1024 = (key * 2 ^ 21 + GUEST_MEMORY_OFFSET) / 4096
  v : e.testBit 0 = true
  r : e.testBit 1 = true
  w : e.testBit 2 = true
  x : e.testBit 3 = true
  u : e.testBit 4 = true

/-- A leaf of the shadow table: a host page of the guest's, readable by user mode. -/
structure ShadowLeaf (e : Nat) : Prop where
  guest : GUEST_BASE ≤ e / 1024 * 4096
  fits : e < 2 ^ 54
  v : e.testBit 0 = true
  r : e.testBit 1 = true
  u : e.testBit 4 = true

/-- The format of both trees. -/
def ptFormat : Format Tree Nat where
  width := 512
  zero := 0
  child := ptChild
  leafOk x key e := match x with
    | .machine => MachineLeaf key e
    | .shadow  => ShadowLeaf e
  rootHeight x := match x with
    | .machine => 1
    | .shadow  => 2
  width_pos := by decide
  child_zero := by decide

@[simp] theorem ptFormat_width : ptFormat.width = 512 := rfl
@[simp] theorem ptFormat_zero : ptFormat.zero = 0 := rfl
@[simp] theorem ptFormat_child (e : Nat) : ptFormat.child e = ptChild e := rfl

/-- A pointer is a valid entry without `R`, `W` and `X`. -/
theorem ptChild_eq_some {e c : Nat} (h : ptChild e = some c) :
    e.testBit 0 = true ∧ Sv39.isLeaf e = false ∧ e < 2 ^ 54 ∧ (unpackPtEntry e).address = c := by
  unfold ptChild at h
  split at h
  · rename_i hc
    simp only [Bool.and_eq_true, Bool.not_eq_true', decide_eq_true_eq] at hc
    obtain ⟨⟨hv, hl⟩, hlt⟩ := hc
    exact ⟨hv, hl, hlt, Option.some.inj h⟩
  · cases h

/-- The pointer the table builders write. -/
theorem ptChild_pack {p : Nat} (hp : p < 2 ^ 56) (hal : p % 4096 = 0) :
    ptChild (packPtEntry ⟨p, permbit .v⟩) = some p := by
  have hlt : packPtEntry ⟨p, permbit .v⟩ < 2 ^ 54 := packPtEntry_lt hp (by decide)
  have hv : (packPtEntry ⟨p, permbit .v⟩).testBit 0 = true := by
    rw [testBit_packPtEntry (by decide) (by decide)]
    decide
  have hl : Sv39.isLeaf (packPtEntry ⟨p, permbit .v⟩) = false := by
    unfold Sv39.isLeaf
    rw [testBit_packPtEntry (by decide) (by decide), testBit_packPtEntry (by decide) (by decide),
      testBit_packPtEntry (by decide) (by decide)]
    decide
  unfold ptChild
  rw [hv, hl, unpack_pack (by omega) hal (by decide), decide_eq_true hlt]
  rfl

/-- Every leaf of either tree is valid and is a leaf to the MMU. -/
theorem leafOk_isLeaf {x : Tree} {key e : Nat} (h : ptFormat.leafOk x key e) :
    e.testBit Sv39.bitV = true ∧ Sv39.isLeaf e = true ∧ e.testBit Sv39.bitU = true := by
  cases x with
  | machine =>
    have hl : MachineLeaf key e := h
    exact ⟨hl.v, by simp [Sv39.isLeaf, Sv39.bitR, hl.r], hl.u⟩
  | shadow =>
    have hl : ShadowLeaf e := h
    exact ⟨hl.v, by simp [Sv39.isLeaf, Sv39.bitR, hl.r], hl.u⟩

/-! ### The invariant -/

/-- The pool pages that are tables. -/
def tablePages (L : Layout) (own : Owner Tree) : Set Nat :=
  {t | own t ≠ none ∧ t ≠ L.machineRoot 0}

/-- A pool page no client holds has no place in a tree. -/
theorem own_eq_none_of_not_mem {L : Layout} {own : Owner Tree} {n p : Nat}
    (hp : p ∉ tablePages L own) (hin : L.InPool n p) (hn : n ≤ MAX_ALLOCATEABLE_PAGES) :
    own p = none := by
  by_contra hne
  refine hp ⟨hne, ?_⟩
  rintro rfl
  exact Layout.machineRoot_not_inPool hn hin

/-- **The table invariant** of the store `st` with shadow root `root` (`0` if there is none). -/
structure VmInv (L : Layout) (root : Nat) (st : Store) (own : Owner Tree) (free : List Nat)
    (D : Set Nat) : Prop where
  forest : Forest ptFormat st.entry own D
  alloc : AllocInv L st free (tablePages L own)
  machine : own (L.machineRoot 0) = some ⟨.machine, 1, 0⟩
  shadow : own root = some ⟨.shadow, 2, 0⟩ ∨
    root = 0 ∧ ∀ t sl, own t = some sl → sl.tree = .machine

/-- Entry `e`, not zero, is what tree `x` holds at page number `key`. -/
def Maps (st : Store) (own : Owner Tree) (x : Tree) (key e : Nat) : Prop :=
  ∃ t, own t = some ⟨x, 0, key / 512⟩ ∧ st.entry t (key % 512) = e ∧ e ≠ 0

/-- The guest's part of memory is the same. -/
def SameGuestRam (st st' : Store) : Prop := ∀ a, GUEST_BASE ≤ a → st'.mem a = st.mem a

theorem SameGuestRam.refl (st : Store) : SameGuestRam st st := fun _ _ => rfl

theorem SameGuestRam.trans {st st' st'' : Store} (h : SameGuestRam st st')
    (h' : SameGuestRam st' st'') : SameGuestRam st st'' := by
  intro a ha
  rw [h' a ha, h a ha]

theorem SameMem.sameGuestRam {st st' : Store} (h : SameMem st st') : SameGuestRam st st' := by
  intro a _
  rw [h.mem]

theorem SameMem.maps {st st' : Store} (h : SameMem st st') {own : Owner Tree} {x : Tree}
    {key e : Nat} : Maps st' own x key e ↔ Maps st own x key e := by
  unfold Maps
  rw [h.entry]

namespace VmInv

variable {L : Layout} {root : Nat} {st st' : Store} {own : Owner Tree} {free : List Nat}
  {D : Set Nat}

theorem same (h : VmInv L root st own free D) (hs : SameMem st st') :
    VmInv L root st' own free D where
  forest := by
    rw [hs.entry]
    exact h.forest
  alloc := h.alloc.same hs
  machine := h.machine
  shadow := h.shadow

/-- Every table is page-aligned and inside the hypervisor's image. -/
theorem table_bounds (h : VmInv L root st own free D) {t : Nat} (ht : own t ≠ none) :
    t % 4096 = 0 ∧ RAM_START ≤ t ∧ t + 4096 ≤ GUEST_BASE := by
  by_cases heq : t = L.machineRoot 0
  · rw [heq]
    exact L.machineRoot_bounds
  · exact (h.alloc.used_pool t ⟨ht, heq⟩).bounds h.alloc.next_le

theorem table_ne_zero (h : VmInv L root st own free D) {t : Nat} (ht : own t ≠ none) : t ≠ 0 := by
  have hb := (h.table_bounds ht).2.1
  simp only [RAM_START] at hb
  omega

/-- A free page is not a table. -/
theorem free_not_table (h : VmInv L root st own free D) {p : Nat} (hp : p ∈ free) :
    own p = none := by
  by_contra hne
  refine h.alloc.disjoint p hp ⟨hne, ?_⟩
  rintro rfl
  exact Layout.machineRoot_not_inPool h.alloc.next_le (h.alloc.free_pool _ hp)

/-- A page nobody uses as a table is not the machine root. -/
theorem ne_machineRoot (h : VmInv L root st own free D) {p : Nat} (hp : own p = none) :
    p ≠ L.machineRoot 0 := by
  rintro rfl
  rw [h.machine] at hp
  cases hp

theorem shadow_of_ne_zero (h : VmInv L root st own free D) (hroot : root ≠ 0) :
    own root = some ⟨.shadow, 2, 0⟩ := by
  rcases h.shadow with hs | ⟨h0, -⟩
  · exact hs
  · exact absurd h0 hroot

/-- Memory outside the image does not matter. -/
theorem frame (h : VmInv L root st own free D) (htop : st'.freeListTop = st.freeListTop)
    (hnext : st'.nextUnallocatedIdx = st.nextUnallocatedIdx)
    (hmem : ∀ x, x < GUEST_BASE → st'.mem x = st.mem x) : VmInv L root st' own free D where
  forest := by
    refine h.forest.frame (fun t ht i hi => ?_)
    have hb := h.table_bounds ht
    rw [ptFormat_width] at hi
    exact Store.load64_congr (fun x _ hx => hmem x (by omega))
  alloc := by
    refine h.alloc.frame htop hnext (fun p hp x _ hx => hmem x ?_)
    have hb := (h.alloc.free_pool p hp).bounds h.alloc.next_le
    omega
  machine := h.machine
  shadow := h.shadow

/-! ### Rewriting one entry -/

/-- Rewriting an entry of a table leaves the free pages alone. -/
theorem alloc_setEntry (h : VmInv L root st own free D) {t i v : Nat} (ht : own t ≠ none)
    (hi : i < 512) : AllocInv L (st.setEntry t i v) free (tablePages L own) := by
  refine h.alloc.frame rfl rfl (fun p hp x hlo hhi => ?_)
  have hb := h.table_bounds ht
  have hpb := (h.alloc.free_pool p hp).bounds h.alloc.next_le
  have hne : p ≠ t := by
    rintro rfl
    exact ht (h.free_not_table hp)
  exact st.mem_setEntry hi (by omega)

/-- Rewriting an entry of a table leaves the entries of all other tables alone. -/
theorem agreeExcept_setEntry (h : VmInv L root st own free D) {t i v : Nat} (ht : own t ≠ none)
    (hi : i < 512) : AgreeExcept ptFormat own t i st.entry (st.setEntry t i v).entry := by
  intro t' ht' j hj hne
  exact st.entry_setEntry_ne (h.table_bounds ht).1 (h.table_bounds ht').1 hi hj hne

/-- A table entry is not guest memory. -/
theorem sameGuestRam_setEntry (h : VmInv L root st own free D) {t i v : Nat} (ht : own t ≠ none)
    (hi : i < 512) : SameGuestRam st (st.setEntry t i v) := by
  intro a ha
  have hb := h.table_bounds ht
  exact st.mem_setEntry hi (by omega)

/-- Writing zero or a good leaf into a leaf table. -/
theorem setLeaf (h : VmInv L root st own free D) {t k i v : Nat}
    {x : Tree} (ht : own t = some ⟨x, 0, k⟩) (hi : i < 512) (hv : v < 2 ^ 64)
    (hleaf : v = 0 ∨ ptFormat.leafOk x (k * 512 + i) v) :
    VmInv L root (st.setEntry t i v) own free D where
  forest := by
    have hne : own t ≠ none := by simp [ht]
    refine h.forest.setLeaf ht (h.agreeExcept_setEntry hne hi) ?_
    rw [st.entry_setEntry_same hv]
    exact hleaf
  alloc := h.alloc_setEntry (by simp [ht]) hi
  machine := h.machine
  shadow := h.shadow

/-! ### New tables -/

/-- Making the fresh page `p` a table adds exactly `p` to the pages in use. -/
theorem tablePages_update (h : VmInv L root st own free D) {p : Nat} (hp : own p = none)
    (sl : Slot Tree) : tablePages L (Function.update own p (some sl)) =
      insert p (tablePages L own) := by
  ext t
  by_cases htp : t = p
  · subst htp
    simp [tablePages, h.ne_machineRoot hp]
  · simp [tablePages, htp]

/-- Zeroing a fresh page leaves the tables alone. -/
theorem agree_of_fresh (h : VmInv L root st own free D) {p : Nat} (hp : own p = none)
    (hpal : p % 4096 = 0) (hmem : ∀ x, x < p ∨ p + 4096 ≤ x → st'.mem x = st.mem x) :
    Agree ptFormat own st.entry st'.entry := by
  intro t ht i hi
  have hb := h.table_bounds ht
  have hne : t ≠ p := by
    rintro rfl
    exact ht hp
  rw [ptFormat_width] at hi
  exact Store.load64_congr (fun x _ _ => hmem x (by omega))

/-- Without a shadow root all tables are the machine tree's. -/
theorem tree_eq_machine (h : VmInv L 0 st own free D) (t : Nat) (sl : Slot Tree)
    (hsl : own t = some sl) : sl.tree = .machine := by
  rcases h.shadow with hs | ⟨-, hall⟩
  · exact absurd rfl (h.table_ne_zero (t := 0) (by simp [hs]))
  · exact hall t sl hsl

/-- Hanging an empty table into an inner one changes no mapping: the new leaf entries are zero,
    and the entry rewritten in an old table is not a leaf entry. -/
theorem maps_link {t k i hh p : Nat} {x : Tree} (ht : own t = some ⟨x, hh + 1, k⟩)
    (hp : own p = none) (hexcept : AgreeExcept ptFormat own t i st.entry st'.entry)
    (hnew : ∀ j < 512, st'.entry p j = 0) (sl : Slot Tree) (y : Tree) (key e : Nat) :
    Maps st' (Function.update own p (some sl)) y key e ↔ Maps st own y key e := by
  have hkept : ∀ t', own t' = some ⟨y, 0, key / 512⟩ →
      st'.entry t' (key % 512) = st.entry t' (key % 512) := by
    intro t' ht'
    refine hexcept t' (by simp [ht']) _ (Nat.mod_lt _ (by decide)) ?_
    rintro ⟨rfl, -⟩
    rw [ht] at ht'
    cases ht'
  constructor
  · rintro ⟨t', ht', he, hne⟩
    by_cases htp : t' = p
    · rw [htp, hnew _ (Nat.mod_lt _ (by decide))] at he
      exact absurd he.symm hne
    · rw [Function.update_of_ne htp] at ht'
      exact ⟨t', ht', (hkept t' ht').symm.trans he, hne⟩
  · rintro ⟨t', ht', he, hne⟩
    exact ⟨t', update_of_owned hp ht' _, (hkept t' ht').trans he, hne⟩

/-- **Link.**  The table builders' allocation step: below an empty entry of an inner table, either
    the pool is exhausted, or a fresh empty table is hung there and nothing else changes. -/
theorem link_spec (h : VmInv L root st own free ∅) {t k i hh : Nat} {x : Tree}
    (ht : own t = some ⟨x, hh + 1, k⟩) (hi : i < 512) (hz : st.entry t i = 0) :
    (allocatePagepable L st = (0, st) ∧ pagesLeft st free = 0) ∨
    ∃ p st' free', allocatePagepable L st = (p, st') ∧ p ≠ 0 ∧ own p = none ∧
      VmInv L root (st'.setEntry t i (packPtEntry ⟨p, permbit .v⟩))
        (Function.update own p (some ⟨x, hh, k * 512 + i⟩)) free' ∅ ∧
      (∀ y key e, Maps (st'.setEntry t i (packPtEntry ⟨p, permbit .v⟩))
        (Function.update own p (some ⟨x, hh, k * 512 + i⟩)) y key e ↔ Maps st own y key e) ∧
      SameGuestRam st (st'.setEntry t i (packPtEntry ⟨p, permbit .v⟩)) ∧
      st'.freed = st.freed ∧ pagesLeft st' free' + 1 = pagesLeft st free := by
  have htne : own t ≠ none := by simp [ht]
  have htb := h.table_bounds htne
  rcases allocatePagepable_spec h.alloc with hex |
    ⟨p, st₁, free', heq, hp, hfresh, hin, hzero, hmem, hfreed, hleft, halloc⟩
  · exact Or.inl hex
  right
  have hpb := hin.bounds halloc.next_le
  have hown : own p = none := own_eq_none_of_not_mem hfresh hin halloc.next_le
  have hagree := h.agree_of_fresh hown hpb.1 hmem
  have htp : t ≠ p := by
    rintro rfl
    exact htne hown
  have hp56 : p < 2 ^ 56 := by
    simp only [GUEST_BASE, RAM_START, GUEST_MEMORY_OFFSET] at hpb
    omega
  have hv : packPtEntry ⟨p, permbit .v⟩ < 2 ^ 64 :=
    lt_trans (packPtEntry_lt hp56 (by decide)) (by decide)
  -- the entries of the old tables, the rewritten one excepted, and the entries of the new one
  have hexcept : AgreeExcept ptFormat own t i st.entry
      (st₁.setEntry t i (packPtEntry ⟨p, permbit .v⟩)).entry := by
    intro t' ht' j hj hne
    rw [st₁.entry_setEntry_ne htb.1 (h.table_bounds ht').1 hi hj hne]
    exact hagree t' ht' j hj
  have hnew : ∀ j, j < 512 → (st₁.setEntry t i (packPtEntry ⟨p, permbit .v⟩)).entry p j = 0 := by
    intro j hj
    rw [st₁.entry_setEntry_ne htb.1 hpb.1 hi hj (fun hc => htp hc.1.symm)]
    exact hzero j hj
  have hframe : ∀ x, x < RAM_START ∨ GUEST_BASE ≤ x →
      (st₁.setEntry t i (packPtEntry ⟨p, permbit .v⟩)).mem x = st.mem x := by
    intro x hx
    rw [st₁.mem_setEntry hi (by omega), hmem x (by omega)]
  refine ⟨p, st₁, free', heq, hp, hown, ⟨?_, ?_, ?_, ?_⟩, maps_link ht hown hexcept hnew _,
    fun a ha => hframe a (Or.inr ha), hfreed, hleft⟩
  · refine h.forest.link ht hi hz hown hexcept ?_ hnew
    rw [st₁.entry_setEntry_same hv]
    exact ptChild_pack hp56 hpb.1
  · -- the write to the parent hits none of the free pages
    rw [h.tablePages_update hown]
    refine halloc.frame rfl rfl (fun q hq x hlo hhi => ?_)
    have hqb := (halloc.free_pool q hq).bounds halloc.next_le
    have hqt : q ≠ t := by
      rintro rfl
      refine halloc.disjoint q hq (Or.inr ⟨htne, ?_⟩)
      rintro rfl
      exact Layout.machineRoot_not_inPool halloc.next_le (halloc.free_pool _ hq)
    exact st₁.mem_setEntry hi (by omega)
  · exact update_of_owned hown h.machine _
  · rcases h.shadow with hs | ⟨h0, hall⟩
    · exact Or.inl (update_of_owned hown hs _)
    · -- without a shadow table, the new table hangs in the machine tree as its parent does
      right
      refine ⟨h0, fun t' sl hsl => ?_⟩
      rcases update_some_cases hsl with ⟨-, rfl⟩ | hold
      · exact hall t ⟨x, hh + 1, k⟩ ht
      · exact hall t' sl hold

/-- **New shadow root.**  The allocation in `guest_mret`, when there is no shadow table yet. -/
theorem newRoot_spec (h : VmInv L 0 st own free ∅) :
    (allocatePagepable L st = (0, st) ∧ pagesLeft st free = 0) ∨
    ∃ p st' free', allocatePagepable L st = (p, st') ∧ p ≠ 0 ∧ own p = none ∧
      VmInv L p st' (Function.update own p (some ⟨.shadow, 2, 0⟩)) free' ∅ ∧
      SameGuestRam st st' ∧ st'.freed = st.freed := by
  have hall := h.tree_eq_machine
  rcases allocatePagepable_spec h.alloc with hex |
    ⟨p, st₁, free', heq, hp, hfresh, hin, hzero, hmem, hfreed, hleft, halloc⟩
  · exact Or.inl hex
  right
  have hpb := hin.bounds halloc.next_le
  have hown : own p = none := own_eq_none_of_not_mem hfresh hin halloc.next_le
  refine ⟨p, st₁, free', heq, hp, hown, ⟨?_, ?_, ?_, ?_⟩, ?_, hfreed⟩
  · refine h.forest.newRoot hown (fun c hc => ?_) (h.agree_of_fresh hown hpb.1 hmem) hzero
    -- all tables so far are the machine tree's
    have := hall c _ hc
    cases this
  · rw [h.tablePages_update hown]
    exact halloc
  · exact update_of_owned hown h.machine _
  · left
    rw [Function.update_self]
  · intro a ha
    exact hmem a (by omega)

/-- **A page for the shadow root.**  As long as there is no shadow table, at most 512 pages are in
    use, so that the allocation in `guest_mret` cannot fail. -/
theorem pagesLeft_pos (h : VmInv L 0 st own free D) : 0 < pagesLeft st free := by
  by_contra hleft
  have hfree : free = [] := by
    rw [← List.length_eq_zero_iff]
    unfold pagesLeft at hleft
    omega
  have hnext : MAX_ALLOCATEABLE_PAGES ≤ st.nextUnallocatedIdx := by
    unfold pagesLeft at hleft
    omega
  have hall := h.tree_eq_machine
  -- every page of the pool is a leaf table of the machine tree, and these are told apart by their
  -- keys
  have hkey : ∀ i : Fin MAX_ALLOCATEABLE_PAGES, ∃ k : Fin 512,
      own (L.poolPage i) = some ⟨.machine, 0, k⟩ := by
    intro i
    rcases h.alloc.cover i (lt_of_lt_of_le i.isLt hnext) with hf | ⟨hne, hroot⟩
    · rw [hfree] at hf
      cases hf
    obtain ⟨⟨x, hh, k⟩, hsl⟩ := Option.ne_none_iff_exists'.mp hne
    obtain rfl : x = .machine := hall _ _ hsl
    have hle : hh ≤ 1 := h.forest.height_le hsl
    have hlt : k < 512 ^ (1 - hh) := h.forest.key_lt hsl
    rcases Nat.le_one_iff_eq_zero_or_eq_one.mp hle with rfl | rfl
    · exact ⟨⟨k, by omega⟩, hsl⟩
    · obtain rfl : k = 0 := by omega
      exact absurd (h.forest.inj hsl h.machine) hroot
  choose f hf using hkey
  have hinj : Function.Injective f := by
    intro i j hij
    have hsame := hf j
    rw [← hij] at hsame
    exact Fin.ext (Layout.poolPage_inj (h.forest.inj (hf i) hsame))
  have hcard := Fintype.card_le_of_injective f hinj
  rw [Fintype.card_fin, Fintype.card_fin] at hcard
  exact absurd hcard (by decide)

end VmInv

/-! ### The content of a tree -/

namespace Maps

variable {L : Layout} {root : Nat} {st st' : Store} {own : Owner Tree} {free : List Nat}
  {D : Set Nat} {x : Tree} {key e : Nat}

/-- A tree holds at most one entry at a page number. -/
theorem unique (h : VmInv L root st own free D) {e' : Nat} (hm : Maps st own x key e)
    (hm' : Maps st own x key e') : e = e' := by
  obtain ⟨t, ht, he, -⟩ := hm
  obtain ⟨t', ht', he', -⟩ := hm'
  rw [← he, ← he', h.forest.inj ht ht']

/-- What a tree holds is a good leaf. -/
theorem leafOk (h : VmInv L root st own free D) (hm : Maps st own x key e) :
    ptFormat.leafOk x key e := by
  obtain ⟨t, ht, he, hne⟩ := hm
  rcases h.forest.leaf ht (i := key % 512) (Nat.mod_lt _ (by decide)) with hz | hl
  · rw [← he] at hne
    exact absurd hz hne
  · rw [he, ptFormat_width, Nat.div_add_mod' key 512] at hl
    exact hl

/-- Rewriting one entry of a leaf table changes what the tree holds at that page number only. -/
theorem setLeaf_iff (h : VmInv L root st own free D) {t k i v key' e' : Nat} {y : Tree}
    (ht : own t = some ⟨x, 0, k⟩) (hi : i < 512) (hv : v < 2 ^ 64) :
    Maps (st.setEntry t i v) own y key' e' ↔
      if y = x ∧ key' = k * 512 + i then e' = v ∧ v ≠ 0 else Maps st own y key' e' := by
  have htne : own t ≠ none := by simp [ht]
  split
  · rename_i heq
    obtain ⟨rfl, rfl⟩ := heq
    have hdiv : (k * 512 + i) / 512 = k := by omega
    have hmod : (k * 512 + i) % 512 = i := by omega
    constructor
    · rintro ⟨t', ht', he, hne⟩
      rw [hdiv] at ht'
      rw [h.forest.inj ht' ht, hmod, st.entry_setEntry_same hv] at he
      subst he
      exact ⟨rfl, hne⟩
    · rintro ⟨rfl, hne⟩
      refine ⟨t, by rw [hdiv]; exact ht, ?_, hne⟩
      rw [hmod, st.entry_setEntry_same hv]
  · rename_i hneq
    -- another page number is another entry: of this table, or of one that was not written
    have hsame : ∀ t', own t' = some ⟨y, 0, key' / 512⟩ →
        (st.setEntry t i v).entry t' (key' % 512) = st.entry t' (key' % 512) := by
      intro t' ht'
      refine h.agreeExcept_setEntry htne hi t' (by simp [ht']) _ (Nat.mod_lt _ (by decide)) ?_
      rintro ⟨rfl, hidx⟩
      rw [ht, Option.some.injEq, Slot.mk.injEq] at ht'
      obtain ⟨rfl, -, hk⟩ := ht'
      exact hneq ⟨rfl, by omega⟩
    constructor
    · rintro ⟨t', ht', he, hne⟩
      exact ⟨t', ht', by rw [← hsame t' ht']; exact he, hne⟩
    · rintro ⟨t', ht', he, hne⟩
      exact ⟨t', ht', by rw [hsame t' ht']; exact he, hne⟩

end Maps

end RiscvHypervisor
