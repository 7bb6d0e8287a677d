import RiscvHypervisor.Model.System
import RiscvHypervisor.Proof.Allocator

namespace RiscvHypervisor

open ByteMem FreeChain

/-!
# Histories of the page allocator

`AllocRun` is any sequence of calls of `allocate_page` and `deallocate_page` by clients that give
back only what they hold, with anything written to the pages they hold in between.  The invariant of
the allocator survives each step (`AllocRun.inv`), and `allocator_history` is what it says to a
client who knows nothing of the free list.
-/

/-- Every page of the pool. -/
def Layout.pool (L : Layout) : Set Nat := {p | L.InPool MAX_ALLOCATEABLE_PAGES p}

/-- A history of calls, with the store it has led to and the pages currently allocated. -/
inductive AllocRun (L : Layout) : Store → Set Nat → Prop where
  | start {st : Store} (top : st.freeListTop = 0) (next : st.nextUnallocatedIdx = 0) :
      AllocRun L st ∅
  | allocate {st st' : Store} {used : Set Nat} {p : Nat} (before : AllocRun L st used)
      (call : allocatePage L st = (p, st')) : AllocRun L st' (if p = 0 then used else insert p used)
  | deallocate {st : Store} {used : Set Nat} {p : Nat} (before : AllocRun L st used)
      (held : p ∈ used) : AllocRun L (deallocatePage p st) (used \ {p})
  /-- A client writes a byte, which is not in a page of the pool that is not allocated. -/
  | write {st : Store} {used : Set Nat} {a : Nat} (before : AllocRun L st used) (value : BitVec 8)
      (held : ∀ p ∈ L.pool, p ≤ a → a < p + 4096 → p ∈ used) :
      AllocRun L { st with mem := Function.update st.mem a value } used

variable {L : Layout} {st st' : Store} {used : Set Nat}

/-- A write that a client may make does not reach the free list. -/
theorem AllocInv.write {free : List Nat} (h : AllocInv L st free used) {a : Nat} (value : BitVec 8)
    (held : ∀ p ∈ L.pool, p ≤ a → a < p + 4096 → p ∈ used) :
    AllocInv L { st with mem := Function.update st.mem a value } free used := by
  refine h.frame rfl rfl ?_
  intro p hp x hlo hhi
  have hxa : x ≠ a := by
    rintro rfl
    exact h.disjoint p hp (held p ((h.free_pool p hp).mono h.next_le) hlo hhi)
  exact Function.update_of_ne hxa _ _

/-- **The invariant of a history.** -/
theorem AllocRun.inv (h : AllocRun L st used) : ∃ free, AllocInv L st free used := by
  induction h with
  | @start st top next =>
    refine ⟨[], top, List.nodup_nil, ?_, by simp, by simp, by simp, ?_⟩
    · rw [next]
      exact Nat.zero_le _
    · intro i hi
      rw [next] at hi
      exact absurd hi (Nat.not_lt_zero i)
  | @allocate st st' used p before call ih =>
    obtain ⟨free, hinv⟩ := ih
    rcases allocatePage_spec hinv with ⟨heq, -⟩ | ⟨q, st₁, free', heq, hq, -, -, -, -, -, hinv'⟩
    · rw [heq] at call
      cases call
      rw [if_pos rfl]
      exact ⟨free, hinv⟩
    · rw [heq] at call
      cases call
      rw [if_neg hq]
      exact ⟨free', hinv'⟩
  | @deallocate st used p before held ih =>
    obtain ⟨free, hinv⟩ := ih
    exact ⟨p :: free, (deallocatePage_spec hinv held).1⟩
  | @write st used a before value held ih =>
    obtain ⟨free, hinv⟩ := ih
    exact ⟨free, hinv.write value held⟩

/-- The pool is exhausted exactly when all of it is held. -/
theorem AllocInv.pagesLeft_eq_zero_iff {free : List Nat} (h : AllocInv L st free used) :
    pagesLeft st free = 0 ↔ used = L.pool := by
  constructor
  · intro hleft
    unfold pagesLeft at hleft
    have hfree : free = [] := List.length_eq_zero_iff.mp (by omega)
    have hnext : MAX_ALLOCATEABLE_PAGES ≤ st.nextUnallocatedIdx := by omega
    ext p
    constructor
    · intro hp
      exact (h.used_pool p hp).mono h.next_le
    · rintro ⟨i, hi, rfl⟩
      rcases h.cover i (lt_of_lt_of_le hi hnext) with hf | hu
      · rw [hfree] at hf
        cases hf
      · exact hu
  · intro hall
    have hfree : free = [] := by
      apply List.eq_nil_iff_forall_not_mem.mpr
      intro p hp
      apply h.disjoint p hp
      rw [hall]
      exact (h.free_pool p hp).mono h.next_le
    -- the last page of the pool is held, so that it was handed out
    have hlast : L.poolPage (MAX_ALLOCATEABLE_PAGES - 1) ∈ used := by
      rw [hall]
      exact ⟨_, by decide, rfl⟩
    obtain ⟨i, hi, heq⟩ := h.used_pool _ hlast
    have hidx := Layout.poolPage_inj heq
    unfold pagesLeft
    rw [hfree, List.length_nil]
    omega

/-- **The allocator over whole histories.**  The free list is a finite chain without duplicates,
    apart from the allocated pages, and covers with them exactly the pages of the pool below
    `next_unallocated_idx`; a page that is handed out is a page of the pool that is not allocated;
    and `NULL` is returned if and only if all pages of the pool are allocated. -/
theorem allocator_history (h : AllocRun L st used) :
    (∃ free, Linked st.load64 st.freeListTop free ∧ free.Nodup ∧ (∀ p ∈ free, p ∉ used) ∧
      st.nextUnallocatedIdx ≤ MAX_ALLOCATEABLE_PAGES ∧
      ∀ p, p ∈ free ∨ p ∈ used ↔ L.InPool st.nextUnallocatedIdx p) ∧
    (∀ p st', allocatePage L st = (p, st') → p ≠ 0 → p ∈ L.pool ∧ p ∉ used) ∧
    (∀ p st', allocatePage L st = (p, st') → (p = 0 ↔ used = L.pool)) := by
  obtain ⟨free, hinv⟩ := h.inv
  refine ⟨⟨free, hinv.chain, hinv.nodup, hinv.disjoint, hinv.next_le, ?_⟩, ?_, ?_⟩
  · intro p
    constructor
    · rintro (hf | hu)
      · exact hinv.free_pool p hf
      · exact hinv.used_pool p hu
    · rintro ⟨i, hi, rfl⟩
      exact hinv.cover i hi
  · intro p st' call hp
    rcases allocatePage_spec hinv with ⟨heq, -⟩ |
      ⟨q, st₁, free', heq, -, hfresh, hin, -, -, -, hinv'⟩
    · rw [heq] at call
      cases call
      exact absurd rfl hp
    · rw [heq] at call
      cases call
      exact ⟨hin.mono hinv'.next_le, hfresh⟩
  · intro p st' call
    rw [← hinv.pagesLeft_eq_zero_iff]
    rcases allocatePage_spec hinv with ⟨heq, hleft⟩ | ⟨q, st₁, free', heq, hq, -, -, -, -, hleft, -⟩
    · rw [heq] at call
      cases call
      exact ⟨fun _ => hleft, fun _ => rfl⟩
    · rw [heq] at call
      cases call
      constructor
      · intro h0
        exact absurd h0 hq
      · intro h0
        omega

/-- A page that is given back is handed out again, the pool being untouched. -/
theorem allocator_history_reuse :
    ∃ st used p st', AllocRun sampleLayout st used ∧
      allocatePage sampleLayout st = (p, st') ∧ p = sampleLayout.poolPage 0 ∧
      p ∈ sampleLayout.pool ∧ p ∉ used := by
  have hstart : AllocRun sampleLayout ⟨fun _ => 0, 0, 0, [], [], []⟩ ∅ := .start rfl rfl
  have hheld := hstart.allocate (p := sampleLayout.poolPage 0) rfl
  rw [if_neg (by decide)] at hheld
  have hback := hheld.deallocate (Set.mem_insert _ _)
  obtain ⟨hin, hfresh⟩ := (allocator_history hback).2.1 _ _ rfl (by decide)
  exact ⟨_, _, _, _, hback, rfl, rfl, hin, hfresh⟩

end RiscvHypervisor
