import RiscvHypervisor.Model.LockedAlloc
import RiscvHypervisor.Proof.AllocHistory

namespace RiscvHypervisor

open Transition

/-!
# The page allocator when every call is one step

The invariant of `atomicAllocator`: every page that was handed out is on the free list or owned by
exactly one hart, which holds it or is in a call about it.

* `inCall`, `owned` — whose a page is;
* `AtomicInv` — the invariant;
* `AtomicInv.allocate`, `AtomicInv.deallocate`, `AtomicInv.give` — the steps that move a page;
* `AtomicInv.step` — every step keeps it.
-/

variable {L : Layout} {Hart : Type}

/-! ### Ownership -/

/-- The page that the call a hart is in is about to give it, or to take. -/
def inCall (pc : Option AtomicPc) : Set Nat :=
  {p | p ≠ 0 ∧ (pc = some (.allocated p) ∨ pc = some (.deallocating p))}

@[simp] theorem inCall_none : inCall none = ∅ := by simp [inCall]
@[simp] theorem inCall_allocating : inCall (some .allocating) = ∅ := by simp [inCall]
@[simp] theorem inCall_deallocated : inCall (some .deallocated) = ∅ := by simp [inCall]

@[simp] theorem mem_inCall_allocated {p q : Nat} :
    q ∈ inCall (some (.allocated p)) ↔ q ≠ 0 ∧ q = p := by
  simp [inCall, eq_comm]

@[simp] theorem mem_inCall_deallocating {p q : Nat} :
    q ∈ inCall (some (.deallocating p)) ↔ q ≠ 0 ∧ q = p := by
  simp [inCall, eq_comm]

/-- The pages held by hart `i`, and by the call it is in. -/
def owned (c : Smp AtomicPc Hart) (i : Hart) : Set Nat := c.held i ∪ inCall (c.pc i)

@[simp] theorem owned_setShared (c : Smp AtomicPc Hart) (sh : Shared) (i : Hart) :
    owned (c.setShared sh) i = owned c i := rfl

/-- **The invariant**: the free list and the owned pages are the pages handed out so far, and
    a page has one owner. -/
structure AtomicInv (L : Layout) (c : Smp AtomicPc Hart) : Prop where
  alloc : ∃ free, AllocInv L c.shared.store free {p | ∃ i, p ∈ owned c i}
  unique : ∀ i j p, p ∈ owned c i → p ∈ owned c j → i = j
  apart : ∀ i p, p ∈ c.held i → p ∉ inCall (c.pc i)

variable {c c' : Smp AtomicPc Hart}

/-- A page owned by somebody is a page of the pool. -/
theorem AtomicInv.owned_ne_zero (h : AtomicInv L c) {i : Hart} {p : Nat} (hp : p ∈ owned c i) :
    p ≠ 0 := by
  obtain ⟨free, hinv⟩ := h.alloc
  exact (hinv.used_pool p ⟨i, hp⟩).ne_zero hinv.next_le

/-- One hart moves, and owns nothing afterwards that another hart owns. -/
theorem AtomicInv.at_hart (h : AtomicInv L c) {i : Hart} (hpc : ∀ j, j ≠ i → c'.pc j = c.pc j)
    (hheld : ∀ j, j ≠ i → c'.held j = c.held j)
    (halloc : ∃ free, AllocInv L c'.shared.store free {p | ∃ j, p ∈ owned c' j})
    (hnew : ∀ p ∈ owned c' i, ∀ j, j ≠ i → p ∉ owned c j)
    (hapart : ∀ p, p ∈ c'.held i → p ∉ inCall (c'.pc i)) : AtomicInv L c' := by
  have hothers : ∀ j, j ≠ i → owned c' j = owned c j := by
    intro j hj
    unfold owned
    rw [hpc j hj, hheld j hj]
  refine ⟨halloc, ?_, ?_⟩
  · intro j k p hj hk
    by_cases hji : j = i
    · by_cases hki : k = i
      · rw [hji, hki]
      · rw [hji] at hj
        rw [hothers k hki] at hk
        exact absurd hk (hnew p hj k hki)
    · rw [hothers j hji] at hj
      by_cases hki : k = i
      · rw [hki] at hk
        exact absurd hj (hnew p hk j hji)
      · rw [hothers k hki] at hk
        exact h.unique j k p hj hk
  · intro j p hp
    by_cases hji : j = i
    · subst hji
      exact hapart p hp
    · rw [hpc j hji]
      rw [hheld j hji] at hp
      exact h.apart j p hp

/-- A call begins or returns: the hart owns what it owned. -/
theorem AtomicInv.same_owned (h : AtomicInv L c) {i : Hart} (hpc : ∀ j, j ≠ i → c'.pc j = c.pc j)
    (hheld : ∀ j, j ≠ i → c'.held j = c.held j) (hstore : c'.shared.store = c.shared.store)
    (howned : owned c' i = owned c i) (hapart : ∀ p, p ∈ c'.held i → p ∉ inCall (c'.pc i)) :
    AtomicInv L c' := by
  have hall : ∀ j, owned c' j = owned c j := by
    intro j
    by_cases hj : j = i
    · rw [hj, howned]
    · unfold owned
      rw [hpc j hj, hheld j hj]
  apply h.at_hart hpc hheld ?_ ?_ hapart
  · rw [hstore]
    simp only [hall]
    exact h.alloc
  · intro p hp j hj hpj
    rw [howned] at hp
    exact hj (h.unique j i p hpj hp)

/-- The pages a hart holds after a call has returned. -/
theorem mem_receive {pages : Set Nat} {result p : Nat} :
    p ∈ receive pages result ↔ p ∈ pages ∨ p ≠ 0 ∧ p = result := by
  unfold receive
  by_cases h : result = 0
  · rw [if_pos h]
    constructor
    · exact Or.inl
    · rintro (hp | ⟨hne, rfl⟩)
      · exact hp
      · exact absurd h hne
  · rw [if_neg h, Set.mem_insert_iff]
    constructor
    · rintro (rfl | hp)
      · exact Or.inr ⟨h, rfl⟩
      · exact Or.inl hp
    · rintro (hp | ⟨-, rfl⟩)
      · exact Or.inr hp
      · exact Or.inl rfl

variable [DecidableEq Hart]

/-- `allocate_page` is carried out. -/
theorem AtomicInv.allocate (h : AtomicInv L c) {i : Hart} (hpc : c.pc i = some .allocating)
    {p : Nat} {st : Store} (hcall : allocatePage L c.shared.store = (p, st)) :
    AtomicInv L ((c.setPc i (some (.allocated p))).setShared { c.shared with store := st }) := by
  obtain ⟨free, hinv⟩ := h.alloc
  have hothers : ∀ j, j ≠ i → (c.setPc i (some (.allocated p))).pc j = c.pc j := by
    intro j hj
    rw [Smp.pc_setPc, if_neg hj]
  -- the hart owns the new page beside what it owned
  have howned : ∀ j q, q ∈ owned (c.setPc i (some (.allocated p))) j ↔
      q ∈ owned c j ∨ (j = i ∧ q ≠ 0 ∧ q = p) := by
    intro j q
    simp only [owned, Set.mem_union, Smp.held_setPc, Smp.pc_setPc]
    by_cases hj : j = i
    · rw [if_pos hj, mem_inCall_allocated, hj, hpc, inCall_allocating]
      simp
    · rw [if_neg hj]
      simp [hj]
  have hcalled : ∀ q, q ∈ inCall ((c.setPc i (some (.allocated p))).pc i) ↔ q ≠ 0 ∧ q = p := by
    intro q
    rw [Smp.pc_setPc, if_pos rfl, mem_inCall_allocated]
  rcases allocatePage_spec hinv with ⟨heq, -⟩ | ⟨q, st', free', heq, hq, hfresh, -, -, -, -, hinv'⟩
  · -- `NULL` is nobody's page
    rw [heq] at hcall
    cases hcall
    apply h.same_owned hothers (fun _ _ => rfl) rfl
    · ext q
      rw [howned]
      simp
    · intro q _ hcall
      obtain ⟨hq0, hq⟩ := (hcalled q).mp hcall
      exact hq0 hq
  · rw [heq] at hcall
    cases hcall
    refine h.at_hart (i := i) hothers ?_ ?_ ?_ ?_
    · intro j _
      rfl
    · refine ⟨free', ?_⟩
      have hused : {r | ∃ j, r ∈ owned (c.setPc i (some (.allocated p))) j} =
          insert p {r | ∃ j, r ∈ owned c j} := by
        ext r
        simp only [howned, Set.mem_insert_iff, Set.mem_ofPred_eq]
        constructor
        · rintro ⟨j, hr | ⟨-, -, hr⟩⟩
          · exact Or.inr ⟨j, hr⟩
          · exact Or.inl hr
        · rintro (rfl | ⟨j, hr⟩)
          · exact ⟨i, Or.inr ⟨rfl, hq, rfl⟩⟩
          · exact ⟨j, Or.inl hr⟩
      simp only [owned_setShared, hused]
      exact hinv'
    · intro r hr j hj hrj
      rcases (howned i r).mp hr with hri | ⟨-, -, rfl⟩
      · exact hj (h.unique j i r hrj hri)
      · exact hfresh ⟨j, hrj⟩
    · intro r hr hcall
      obtain ⟨-, rfl⟩ := (hcalled r).mp hcall
      exact hfresh ⟨i, Or.inl hr⟩

/-- `deallocate_page` is carried out. -/
theorem AtomicInv.deallocate (h : AtomicInv L c) {i : Hart} {page : Nat}
    (hpc : c.pc i = some (.deallocating page)) :
    AtomicInv L ((c.setPc i (some .deallocated)).setShared
      { c.shared with store := deallocatePage page c.shared.store }) := by
  have hothers : ∀ j, j ≠ i → (c.setPc i (some .deallocated)).pc j = c.pc j := by
    intro j hj
    rw [Smp.pc_setPc, if_neg hj]
  have hcalled : inCall ((c.setPc i (some .deallocated)).pc i) = ∅ := by
    rw [Smp.pc_setPc, if_pos rfl, inCall_deallocated]
  by_cases hpage : page = 0
  · -- `deallocate_page(NULL)` does nothing
    subst hpage
    apply h.same_owned hothers (fun _ _ => rfl) rfl
    · ext q
      simp [owned, Smp.pc_setPc, hpc]
    · intro q _
      rw [hcalled]
      exact Set.notMem_empty q
  · -- the page is in this call and nowhere else, so taking it out of `owned` frees just that one
    obtain ⟨free, hinv⟩ := h.alloc
    have hmine : page ∈ owned c i := Or.inr (by rw [hpc]; simp [hpage])
    have hnot : page ∉ c.held i := by
      intro hheld
      apply h.apart i page hheld
      rw [hpc]
      simp [hpage]
    have howned : ∀ j q, q ∈ owned (c.setPc i (some .deallocated)) j ↔
        q ∈ owned c j ∧ q ≠ page := by
      intro j q
      simp only [owned, Set.mem_union, Smp.held_setPc, Smp.pc_setPc]
      by_cases hj : j = i
      · rw [if_pos hj, inCall_deallocated, hj, hpc, mem_inCall_deallocating]
        constructor
        · rintro (hq | hq)
          · refine ⟨Or.inl hq, ?_⟩
            rintro rfl
            exact hnot hq
          · exact absurd hq (Set.notMem_empty q)
        · rintro ⟨hq | ⟨-, hq⟩, hne⟩
          · exact Or.inl hq
          · exact absurd hq hne
      · rw [if_neg hj]
        constructor
        · intro hq
          refine ⟨hq, ?_⟩
          rintro rfl
          exact hj (h.unique j i q hq hmine)
        · exact And.left
    refine h.at_hart (i := i) hothers ?_ ?_ ?_ ?_
    · intro j _
      rfl
    · refine ⟨page :: free, ?_⟩
      have hused : {r | ∃ j, r ∈ owned (c.setPc i (some .deallocated)) j} =
          {r | ∃ j, r ∈ owned c j} \ {page} := by
        ext r
        simp only [howned, Set.mem_sdiff, Set.mem_ofPred_eq, Set.mem_singleton_iff,
          exists_and_right]
      simp only [owned_setShared, hused]
      exact (deallocatePage_spec hinv ⟨i, hmine⟩).1
    · intro r hr j hj hrj
      exact hj (h.unique j i r hrj ((howned i r).mp hr).1)
    · intro r _
      rw [Smp.pc_setShared, hcalled]
      exact Set.notMem_empty r

/-- A hart leaves a page to another one. -/
theorem AtomicInv.give (h : AtomicInv L c) {i j : Hart} {page : Nat} (holds : page ∈ c.held i)
    (other : i ≠ j) :
    AtomicInv L ((c.setHeld i (c.held i \ {page})).setHeld j (insert page (c.held j))) := by
  have hmine : page ∈ owned c i := Or.inl holds
  have hnot : page ∉ inCall (c.pc i) := h.apart i page holds
  -- `page` changes hands, every other page stays; together they are owned as before
  have hother : ∀ k q, q ≠ page →
      (q ∈ owned ((c.setHeld i (c.held i \ {page})).setHeld j (insert page (c.held j))) k ↔
        q ∈ owned c k) := by
    intro k q hq
    simp only [owned, Set.mem_union, Smp.held_setHeld, Smp.pc_setHeld]
    by_cases hkj : k = j
    · rw [if_pos hkj, Set.mem_insert_iff, hkj]
      simp [hq]
    · rw [if_neg hkj]
      by_cases hki : k = i
      · rw [if_pos hki, Set.mem_sdiff, Set.mem_singleton_iff, hki]
        simp [hq]
      · rw [if_neg hki]
  have hpage : ∀ k,
      page ∈ owned ((c.setHeld i (c.held i \ {page})).setHeld j (insert page (c.held j))) k ↔
        k = j := by
    intro k
    simp only [owned, Set.mem_union, Smp.held_setHeld, Smp.pc_setHeld]
    by_cases hkj : k = j
    · simp [hkj]
    · rw [if_neg hkj]
      refine iff_of_false ?_ hkj
      by_cases hki : k = i
      · rw [if_pos hki, hki]
        simp [hnot]
      · rw [if_neg hki]
        exact fun hk => hki (h.unique k i page hk hmine)
  obtain ⟨free, hinv⟩ := h.alloc
  refine ⟨⟨free, ?_⟩, ?_, ?_⟩
  · have hused : {q | ∃ k,
        q ∈ owned ((c.setHeld i (c.held i \ {page})).setHeld j (insert page (c.held j))) k} =
        {q | ∃ k, q ∈ owned c k} := by
      ext q
      by_cases hq : q = page
      · subst hq
        exact iff_of_true ⟨j, (hpage j).mpr rfl⟩ ⟨i, hmine⟩
      · exact exists_congr (fun k => hother k q hq)
    rw [hused]
    exact hinv
  · intro k l q hk hl
    by_cases hq : q = page
    · subst hq
      rw [(hpage k).mp hk, (hpage l).mp hl]
    · exact h.unique k l q ((hother k q hq).mp hk) ((hother l q hq).mp hl)
  · intro k q hk hcall
    rw [Smp.pc_setHeld, Smp.pc_setHeld] at hcall
    rw [Smp.held_setHeld, Smp.held_setHeld] at hk
    by_cases hkj : k = j
    · -- the receiver has no call in flight for a page that was the giver's
      rw [if_pos hkj, Set.mem_insert_iff] at hk
      rw [hkj] at hcall
      rcases hk with rfl | hk
      · exact other (h.unique i j q hmine (Or.inr hcall))
      · exact h.apart j q hk hcall
    · rw [if_neg hkj] at hk
      by_cases hki : k = i
      · rw [if_pos hki] at hk
        rw [hki] at hcall
        exact h.apart i q hk.1 hcall
      · rw [if_neg hki] at hk
        exact h.apart k q hk hcall

/-- **Every step keeps the invariant.** -/
theorem AtomicInv.step {l : Option (AllocEvent Hart)} (h : AtomicInv L c)
    (hstep : (atomicCode L).Step L c l c') : AtomicInv L c' := by
  cases hstep with
  | @turn i pc pc' sh busy access =>
    cases pc with
    | allocating =>
      cases access
      exact h.allocate busy rfl
    | allocated result => cases access
    | deallocating page =>
      cases access
      exact h.deallocate busy
    | deallocated => cases access
  | @callAllocate i idle =>
    apply h.same_owned (i := i)
    · intro j hj
      rw [Smp.pc_setPc, if_neg hj]
    · intro j hj
      rfl
    · rfl
    · simp [owned, Smp.pc_setPc, idle, atomicCode]
    · simp [Smp.pc_setPc, atomicCode]
  | @returnAllocate i result done =>
    apply h.same_owned (i := i)
    · intro j hj
      rw [Smp.pc_setHeld, Smp.pc_setPc, if_neg hj]
    · intro j hj
      rw [Smp.held_setHeld, if_neg hj, Smp.held_setPc]
    · rfl
    · -- the page moves from the call to the hart
      have hcall : c.pc i = some (.allocated result) := done
      ext p
      simp [owned, Smp.held_setHeld, Smp.pc_setPc, hcall, mem_receive]
    · simp [Smp.pc_setPc]
  | @callDeallocate i page idle holds =>
    have hheld : page ∈ c.held i → page ≠ 0 := fun hp => h.owned_ne_zero (Or.inl hp)
    apply h.same_owned (i := i)
    · intro j hj
      rw [Smp.pc_setHeld, Smp.pc_setPc, if_neg hj]
    · intro j hj
      rw [Smp.held_setHeld, if_neg hj, Smp.held_setPc]
    · rfl
    · -- the page moves from the hart to the call
      ext p
      simp only [owned, Smp.held_setHeld, Smp.pc_setHeld, Smp.pc_setPc, if_true, idle, inCall_none,
        atomicCode, Set.mem_union, Set.mem_sdiff, Set.mem_singleton_iff, mem_inCall_deallocating]
      constructor
      · rintro (⟨hp, -⟩ | ⟨hp, rfl⟩)
        · exact Or.inl hp
        · rcases holds with hzero | hheld
          · exact absurd hzero hp
          · exact Or.inl hheld
      · rintro (hp | hp)
        · by_cases hpage : p = page
          · subst hpage
            exact Or.inr ⟨hheld hp, rfl⟩
          · exact Or.inl ⟨hp, hpage⟩
        · exact absurd hp (Set.notMem_empty p)
    · intro p hp hcall
      rw [Smp.held_setHeld, if_pos rfl] at hp
      rw [Smp.pc_setHeld, Smp.pc_setPc, if_pos rfl] at hcall
      exact hp.2 (mem_inCall_deallocating.mp hcall).2
  | @returnDeallocate i done =>
    have hcall : c.pc i = some .deallocated := done
    apply h.same_owned (i := i)
    · intro j hj
      rw [Smp.pc_setPc, if_neg hj]
    · intro j hj
      rfl
    · rfl
    · simp [owned, Smp.pc_setPc, hcall]
    · simp [Smp.pc_setPc]
  | read may => exact h
  | @write i a value may =>
    obtain ⟨free, hinv⟩ := h.alloc
    refine ⟨⟨free, hinv.write value ?_⟩, h.unique, h.apart⟩
    -- a client writes only to pages it holds, never into the free list
    rintro p ⟨n, hn, rfl⟩ hlo hhi
    exact ⟨i, Or.inl (may n hn hlo hhi)⟩
  | give holds other => exact h.give holds other

end RiscvHypervisor
