import RiscvHypervisor.Proof.AtomicAlloc

namespace RiscvHypervisor

open Transition ByteMem

/-!
# The page allocator on any number of harts

The code of `pagealloc.c`, run by any number of harts in any interleaving, against the same calls
carried out at once.

* `Section`, `LockState` — what the hart that holds the lock has done so far;
* `LockRel` — the code against the specification;
* `LockRel.turn`, `LockRel.step` — the code takes a step, the specification takes at most one;
* `lockedAllocator_refines` — what the harts see of the code is what they see of the
  specification;
* `lockedAllocator_safe` — no page has two owners, and no page in use is on the free list.
-/

variable {L : Layout} {Hart : Type}

/-! ### The code against the specification -/

/-- How far the call has got in the specification. -/
def AllocPc.spec : AllocPc → AtomicPc
  | .allocateUnlock result => .allocated result
  | .allocateReturn result => .allocated result
  | .deallocateTest page => .deallocating page
  | .deallocateLock page => .deallocating page
  | .deallocateTop page => .deallocating page
  | .deallocateLink page _ => .deallocating page
  | .deallocateSetTop page => .deallocating page
  | .deallocateUnlock => .deallocated
  | .deallocateReturn => .deallocated
  | _ => .allocating

/-- The same memory and globals. -/
structure AllocAgree (st sp : Store) : Prop where
  mem : st.mem = sp.mem
  top : st.freeListTop = sp.freeListTop
  next : st.nextUnallocatedIdx = sp.nextUnallocatedIdx

/-- **What the holder of the lock has done so far**: `st` is the store, `sp` the store of the
    specification, and the local variables hold what was read. -/
inductive Section (L : Layout) : AllocPc → Store → Store → Prop where
  | allocateTop {st sp : Store} (agree : AllocAgree st sp) : Section L .allocateTop st sp
  | allocateNext {st sp : Store} {entry : Nat} (agree : AllocAgree st sp)
      (top : sp.freeListTop = entry) (some : entry ≠ 0) : Section L (.allocateNext entry) st sp
  | allocateSetTop {st sp : Store} {entry next : Nat} (agree : AllocAgree st sp)
      (top : sp.freeListTop = entry) (some : entry ≠ 0) (link : sp.load64 entry = next) :
      Section L (.allocateSetTop entry next) st sp
  | allocateIdx {st sp : Store} (agree : AllocAgree st sp) (none : sp.freeListTop = 0) :
      Section L .allocateIdx st sp
  | allocatePool {st sp : Store} (agree : AllocAgree st sp) (none : sp.freeListTop = 0)
      (room : sp.nextUnallocatedIdx < MAX_ALLOCATEABLE_PAGES) : Section L .allocatePool st sp
  | allocateIncr {st sp : Store} {result : Nat} (agree : AllocAgree st sp)
      (none : sp.freeListTop = 0) (room : sp.nextUnallocatedIdx < MAX_ALLOCATEABLE_PAGES)
      (page : L.poolPage sp.nextUnallocatedIdx = result) :
      Section L (.allocateIncr result) st sp
  | allocateSetIdx {st sp : Store} {result idx : Nat} (agree : AllocAgree st sp)
      (none : sp.freeListTop = 0) (room : sp.nextUnallocatedIdx < MAX_ALLOCATEABLE_PAGES)
      (page : L.poolPage sp.nextUnallocatedIdx = result) (read : sp.nextUnallocatedIdx = idx) :
      Section L (.allocateSetIdx result idx) st sp
  | allocateUnlock {st sp : Store} {result : Nat} (agree : AllocAgree st sp)
      (exhausted : result = 0 → sp.freeListTop = 0 ∧
        MAX_ALLOCATEABLE_PAGES ≤ sp.nextUnallocatedIdx) :
      Section L (.allocateUnlock result) st sp
  | deallocateTop {st sp : Store} {page : Nat} (agree : AllocAgree st sp) (ne : page ≠ 0) :
      Section L (.deallocateTop page) st sp
  | deallocateLink {st sp : Store} {page next : Nat} (agree : AllocAgree st sp) (ne : page ≠ 0)
      (top : sp.freeListTop = next) : Section L (.deallocateLink page next) st sp
  /-- The link is written, and the page is not on the list yet. -/
  | deallocateSetTop {st sp : Store} {page : Nat}
      (agree : AllocAgree st (sp.store64 page sp.freeListTop)) (ne : page ≠ 0) :
      Section L (.deallocateSetTop page) st sp
  | deallocateUnlock {st sp : Store} (agree : AllocAgree st sp) : Section L .deallocateUnlock st sp

/-- A hart that is in a call and does not hold the lock. -/
def AllocPc.Outside (pc : AllocPc) : Prop := pc.holdsLock = false ∧ pc ≠ .deallocateLock 0

/-- The lock is free and the stores agree, or one hart holds it. -/
inductive LockState (L : Layout) (lock : Bool) (st sp : Store) (pcs : Hart → Option AllocPc) :
    Prop where
  | free (unlocked : lock = false) (agree : AllocAgree st sp)
      (outside : ∀ j pc, pcs j = some pc → pc.Outside) : LockState L lock st sp pcs
  | taken {i : Hart} {pc : AllocPc} (locked : lock = true) (inside : pcs i = some pc)
      (done : Section L pc st sp)
      (outside : ∀ j pc', j ≠ i → pcs j = some pc' → pc'.Outside) : LockState L lock st sp pcs

/-- **The code against the specification.** -/
structure LockRel (L : Layout) (c : Smp AllocPc Hart) (a : Smp AtomicPc Hart) : Prop where
  held : a.held = c.held
  pc : ∀ i, a.pc i = (c.pc i).map AllocPc.spec
  inv : AtomicInv L a
  lock : LockState L c.shared.lock c.shared.store a.shared.store c.pc

theorem Section.holdsLock {pc : AllocPc} {st sp : Store} (h : Section L pc st sp) :
    pc.holdsLock = true := by
  cases h <;> rfl

namespace LockState

variable {lock : Bool} {st sp st' sp' : Store} {pcs : Hart → Option AllocPc} {i : Hart}
  {pc : AllocPc}

/-- A hart inside is the one that holds the lock. -/
theorem holder (h : LockState L lock st sp pcs) (hi : pcs i = some pc)
    (hpc : pc.holdsLock = true) :
    lock = true ∧ Section L pc st sp ∧ ∀ j pc', j ≠ i → pcs j = some pc' → pc'.Outside := by
  cases h with
  | free unlocked agree outside =>
    rw [(outside i pc hi).1] at hpc
    cases hpc
  | @taken k pck locked inside done outside =>
    by_cases hik : i = k
    · subst hik
      rw [inside] at hi
      cases hi
      exact ⟨locked, done, outside⟩
    · rw [(outside i pc hik hi).1] at hpc
      cases hpc

/-- A hart that does not hold the lock. -/
theorem not_holder (h : LockState L lock st sp pcs) (hi : pcs i = some pc)
    (hpc : pc.holdsLock = false) : pc.Outside := by
  cases h with
  | free unlocked agree outside => exact outside i pc hi
  | @taken k pck locked inside done outside =>
    apply outside i pc _ hi
    rintro rfl
    rw [inside] at hi
    cases hi
    rw [done.holdsLock] at hpc
    cases hpc

end LockState

/-! ### What the other harts touch -/

/-- The holder of the lock is not disturbed by a byte that others write. -/
theorem Section.poke {pc : AllocPc} {st sp : Store} (h : Section L pc st sp) {x : Nat}
    (value : BitVec 8)
    (hfree : sp.freeListTop ≠ 0 → x < sp.freeListTop ∨ sp.freeListTop + 4096 ≤ x)
    (hlink : ∀ page, pc = .deallocateSetTop page → x < page ∨ page + 4096 ≤ x) :
    Section L pc { st with mem := Function.update st.mem x value }
      { sp with mem := Function.update sp.mem x value } := by
  have hagree : AllocAgree st sp → AllocAgree { st with mem := Function.update st.mem x value }
      { sp with mem := Function.update sp.mem x value } := by
    intro agree
    exact ⟨by rw [agree.mem], agree.top, agree.next⟩
  cases h with
  | allocateTop agree => exact .allocateTop (hagree agree)
  | allocateNext agree top ne => exact .allocateNext (hagree agree) top ne
  | allocateSetTop agree top ne link =>
    refine .allocateSetTop (hagree agree) top ne ?_
    -- the link is in a free page, where nobody writes
    rw [← link]
    apply Store.load64_congr
    intro y hlo hhi
    subst top
    have hy : y ≠ x := by
      have := hfree ne
      omega
    exact Function.update_of_ne hy _ _
  | allocateIdx agree none => exact .allocateIdx (hagree agree) none
  | allocatePool agree none room => exact .allocatePool (hagree agree) none room
  | allocateIncr agree none room page => exact .allocateIncr (hagree agree) none room page
  | allocateSetIdx agree none room page read =>
    exact .allocateSetIdx (hagree agree) none room page read
  | allocateUnlock agree exhausted => exact .allocateUnlock (hagree agree) exhausted
  | deallocateTop agree ne => exact .deallocateTop (hagree agree) ne
  | deallocateLink agree ne top => exact .deallocateLink (hagree agree) ne top
  | @deallocateSetTop _ _ page agree ne =>
    refine .deallocateSetTop ⟨?_, agree.top, agree.next⟩ ne
    have hx := hlink page rfl
    -- the byte is not in the link, so the two writes can be exchanged
    simp only [agree.mem, Store.store64]
    exact (store_update_of_disjoint (by omega) value).symm
  | deallocateUnlock agree => exact .deallocateUnlock (hagree agree)

variable {c : Smp AllocPc Hart} {a : Smp AtomicPc Hart}

/-- A hart does not touch a page of the pool that it does not hold. -/
theorem LockRel.untouched (h : LockRel L c a) {k : Hart} {x p n : Nat} (may : c.MayTouch L k x)
    (hpool : L.InPool n p) (hn : n ≤ MAX_ALLOCATEABLE_PAGES) (hnot : p ∉ a.held k) :
    x < p ∨ p + 4096 ≤ x := by
  obtain ⟨m, hm, rfl⟩ := hpool
  by_contra hin
  apply hnot
  rw [h.held]
  apply may m (by omega) (by omega)
  simp only [PGSIZE]
  omega

/-- It does not touch the pages on the free list, -/
theorem LockRel.untouched_free (h : LockRel L c a) {k : Hart} {x : Nat} (may : c.MayTouch L k x)
    (htop : a.shared.store.freeListTop ≠ 0) :
    x < a.shared.store.freeListTop ∨ a.shared.store.freeListTop + 4096 ≤ x := by
  obtain ⟨free, hinv⟩ := h.inv.alloc
  obtain ⟨rest, hfree, -⟩ := hinv.chain.eq_cons htop
  have hmem : a.shared.store.freeListTop ∈ free := by
    rw [hfree]
    exact List.mem_cons_self
  apply h.untouched may (hinv.free_pool _ hmem) hinv.next_le
  intro hheld
  exact hinv.disjoint _ hmem ⟨k, Or.inl hheld⟩

/-- nor the page that is about to be put there. -/
theorem LockRel.untouched_link (h : LockRel L c a) {k i : Hart} {x page : Nat}
    (may : c.MayTouch L k x) (hi : c.pc i = some (.deallocateSetTop page)) (hpage : page ≠ 0) :
    x < page ∨ page + 4096 ≤ x := by
  obtain ⟨free, hinv⟩ := h.inv.alloc
  have hcall : page ∈ inCall (a.pc i) := by
    rw [h.pc i, hi, Option.map_some]
    exact mem_inCall_deallocating.mpr ⟨hpage, rfl⟩
  have howned : page ∈ owned a i := Or.inr hcall
  apply h.untouched may (hinv.used_pool page ⟨i, howned⟩) hinv.next_le
  intro hheld
  have hki := h.inv.unique k i page (Or.inl hheld) howned
  rw [hki] at hheld
  exact h.inv.apart i page hheld hcall

/-- What a hart may touch is the same in the specification. -/
theorem LockRel.mem_eq (h : LockRel L c a) {k : Hart} {x : Nat} (may : c.MayTouch L k x) :
    c.shared.store.mem x = a.shared.store.mem x := by
  cases h.lock with
  | free unlocked agree outside => rw [agree.mem]
  | @taken i pc locked inside done outside =>
    cases done with
    | @deallocateSetTop _ _ page agree ne =>
      rw [agree.mem]
      apply Store.mem_store64
      have := h.untouched_link may inside ne
      omega
    | allocateTop agree => rw [agree.mem]
    | allocateNext agree => rw [agree.mem]
    | allocateSetTop agree => rw [agree.mem]
    | allocateIdx agree => rw [agree.mem]
    | allocatePool agree => rw [agree.mem]
    | allocateIncr agree => rw [agree.mem]
    | allocateSetIdx agree => rw [agree.mem]
    | allocateUnlock agree => rw [agree.mem]
    | deallocateTop agree => rw [agree.mem]
    | deallocateLink agree => rw [agree.mem]
    | deallocateUnlock agree => rw [agree.mem]

/-! ### The harts move on -/

variable [DecidableEq Hart]

namespace LockState

variable {lock : Bool} {st sp st' sp' : Store} {pcs : Hart → Option AllocPc} {i : Hart}
  {pc : AllocPc}

/-- A hart moves outside. -/
theorem set_outside (h : LockState L lock st sp pcs) {new : Option AllocPc}
    (hold : ∀ pc, pcs i = some pc → pc.holdsLock = false)
    (hnew : ∀ pc, new = some pc → pc.Outside) :
    LockState L lock st sp (Function.update pcs i new) := by
  have hothers : ∀ j pc', (pcs j = some pc' → pc'.Outside) →
      Function.update pcs i new j = some pc' → pc'.Outside := by
    intro j pc' hj hpc'
    by_cases hji : j = i
    · rw [hji, Function.update_self] at hpc'
      exact hnew pc' hpc'
    · rw [Function.update_of_ne hji] at hpc'
      exact hj hpc'
  cases h with
  | free unlocked agree outside =>
    exact .free unlocked agree (fun j pc' => hothers j pc' (outside j pc'))
  | @taken k pck locked inside done outside =>
    have hki : k ≠ i := by
      rintro rfl
      have hlock := done.holdsLock
      rw [hold pck inside] at hlock
      cases hlock
    refine .taken locked ?_ done (fun j pc' hj => hothers j pc' (outside j pc' hj))
    rw [Function.update_of_ne hki]
    exact inside

/-- The holder goes on. -/
theorem set_inside {pc' : AllocPc} (done : Section L pc' st' sp')
    (outside : ∀ j pc', j ≠ i → pcs j = some pc' → pc'.Outside) :
    LockState L true st' sp' (Function.update pcs i (some pc')) := by
  apply LockState.taken rfl (Function.update_self i _ pcs) done
  intro j pc'' hj hpc
  rw [Function.update_of_ne hj] at hpc
  exact outside j pc'' hj hpc

/-- The holder releases the lock. -/
theorem release {pc' : AllocPc} (agree : AllocAgree st' sp') (hpc : pc'.Outside)
    (outside : ∀ j pc', j ≠ i → pcs j = some pc' → pc'.Outside) :
    LockState L false st' sp' (Function.update pcs i (some pc')) := by
  apply LockState.free rfl agree
  intro j pc'' hj
  by_cases hji : j = i
  · rw [hji, Function.update_self] at hj
    cases hj
    exact hpc
  · rw [Function.update_of_ne hji] at hj
    exact outside j pc'' hji hj

end LockState

/-! ### Internal steps -/

section internal

variable {c : Smp AllocPc Hart} {a : Smp AtomicPc Hart} {i : Hart} {pc pc' : AllocPc} {sh : Shared}

/-- The code moves on, the specification waits. -/
theorem LockRel.wait (h : LockRel L c a) (hi : c.pc i = some pc) (hspec : pc'.spec = pc.spec)
    (hlock : LockState L sh.lock sh.store a.shared.store (Function.update c.pc i (some pc'))) :
    LockRel L ((c.setPc i (some pc')).setShared sh) a := by
  refine ⟨h.held, ?_, h.inv, hlock⟩
  intro j
  rw [h.pc j, Smp.pc_setShared, Smp.pc_setPc]
  by_cases hj : j = i
  · rw [if_pos hj, hj, hi, Option.map_some, Option.map_some, hspec]
  · rw [if_neg hj]

/-- The specification carries out the call. -/
theorem LockRel.commit (h : LockRel L c a) (sh' : Shared)
    (hturn : pc.spec.turn L a.shared = some (pc'.spec, sh')) (hi : c.pc i = some pc)
    (hlock : LockState L sh.lock sh.store sh'.store (Function.update c.pc i (some pc'))) :
    ∃ a', (atomicAllocator L Hart).Run a [] a' ∧
      LockRel L ((c.setPc i (some pc')).setShared sh) a' := by
  have hbusy : a.pc i = some pc.spec := by
    rw [h.pc i, hi, Option.map_some]
  have hstep : (atomicCode L).Step L a none ((a.setPc i (some pc'.spec)).setShared sh') :=
    .turn hbusy hturn
  refine ⟨(a.setPc i (some pc'.spec)).setShared sh', System.Run.refl.internal hstep, ?_⟩
  refine ⟨h.held, ?_, h.inv.step hstep, hlock⟩
  intro j
  rw [Smp.pc_setShared, Smp.pc_setPc, Smp.pc_setShared, Smp.pc_setPc]
  by_cases hj : j = i
  · rw [if_pos hj, if_pos hj, Option.map_some]
  · rw [if_neg hj, if_neg hj, h.pc j]

/-- `spin_lock_acquire` ends its loop, or turns once more. -/
theorem LockState.acquire {lock : Bool} {st sp : Store} {pcs : Hart → Option AllocPc}
    {waiting entered : AllocPc} (h : LockState L lock st sp pcs) (hi : pcs i = some waiting)
    (hwaiting : waiting.Outside) (hentered : AllocAgree st sp → Section L entered st sp) :
    LockState L (spinLockAcquireTurn lock).2 st sp (Function.update pcs i
      (some (if (spinLockAcquireTurn lock).1 then entered else waiting))) := by
  cases h with
  | free unlocked agree outside =>
    rw [unlocked]
    exact .set_inside (hentered agree) (fun j pc' _ => outside j pc')
  | @taken k pck locked inside done outside =>
    rw [locked]
    apply LockState.set_outside (.taken rfl inside done outside)
    · intro pc hpc
      rw [hi] at hpc
      cases hpc
      exact hwaiting.1
    · intro pc hpc
      cases hpc
      exact hwaiting

theorem AllocAgree.load64 {st sp : Store} (h : AllocAgree st sp) (p : Nat) :
    st.load64 p = sp.load64 p := by
  unfold Store.load64
  rw [h.mem]

/-- An access inside the lock that the specification does not see. -/
theorem LockRel.inside (h : LockRel L c a) (hi : c.pc i = some pc) (hpc : pc.holdsLock = true)
    (hspec : pc'.spec = pc.spec) (hlock : sh.lock = c.shared.lock)
    (hdone : Section L pc c.shared.store a.shared.store →
      Section L pc' sh.store a.shared.store) :
    ∃ a', (atomicAllocator L Hart).Run a [] a' ∧
      LockRel L ((c.setPc i (some pc')).setShared sh) a' := by
  obtain ⟨locked, done, outside⟩ := h.lock.holder hi hpc
  refine ⟨a, .refl, h.wait hi hspec ?_⟩
  rw [hlock, locked]
  exact .set_inside (hdone done) outside

/-- An access inside the lock, which makes the store `st`, and at which the specification carries
    out the call, which makes its store `sp`. -/
theorem LockRel.commitInside (h : LockRel L c a) (hi : c.pc i = some pc)
    (hpc : pc.holdsLock = true) (st sp : Store)
    (hturn : pc.spec.turn L a.shared = some (pc'.spec, { a.shared with store := sp }))
    (hdone : Section L pc' st sp) :
    ∃ a', (atomicAllocator L Hart).Run a [] a' ∧
      LockRel L ((c.setPc i (some pc')).setShared { c.shared with store := st }) a' := by
  obtain ⟨locked, -, outside⟩ := h.lock.holder hi hpc
  refine h.commit { a.shared with store := sp } hturn hi ?_
  rw [locked]
  exact .set_inside hdone outside

/-- **The first commit point**: the page at the top of the free list is taken. -/
theorem LockRel.pop (h : LockRel L c a) {entry next : Nat}
    (hi : c.pc i = some (.allocateSetTop entry next)) :
    ∃ a', (atomicAllocator L Hart).Run a [] a' ∧
      LockRel L ((c.setPc i (some (.allocateUnlock entry))).setShared
        { c.shared with store := { c.shared.store with freeListTop := next } }) a' := by
  obtain ⟨-, done, -⟩ := h.lock.holder hi rfl
  cases done with
  | allocateSetTop agree top ne link =>
    -- the specification pops the same page and reads the same link
    have hcall : allocatePage L a.shared.store =
        (entry, { a.shared.store with freeListTop := next }) := by
      unfold allocatePage
      rw [top, if_pos ne, link]
    refine h.commitInside hi rfl _ { a.shared.store with freeListTop := next } ?_ ?_
    · simp only [AllocPc.spec, AtomicPc.turn, hcall]
    · exact .allocateUnlock ⟨agree.mem, rfl, agree.next⟩ (fun hzero => absurd hzero ne)

/-- **The second commit point**: a page never handed out is taken. -/
theorem LockRel.bump (h : LockRel L c a) {result idx : Nat}
    (hi : c.pc i = some (.allocateSetIdx result idx)) :
    ∃ a', (atomicAllocator L Hart).Run a [] a' ∧
      LockRel L ((c.setPc i (some (.allocateUnlock result))).setShared
        { c.shared with store := { c.shared.store with nextUnallocatedIdx := idx + 1 } }) a' := by
  obtain ⟨-, done, -⟩ := h.lock.holder hi rfl
  cases done with
  | allocateSetIdx agree none room page read =>
    have hcall : allocatePage L a.shared.store =
        (result, { a.shared.store with nextUnallocatedIdx := idx + 1 }) := by
      unfold allocatePage
      rw [if_neg (not_not.mpr none), if_pos room, page, read]
    have hne : result ≠ 0 := by
      rw [← page]
      exact Layout.InPool.ne_zero ⟨_, Nat.lt_succ_self _, rfl⟩ room
    refine h.commitInside hi rfl _ { a.shared.store with nextUnallocatedIdx := idx + 1 } ?_ ?_
    · simp only [AllocPc.spec, AtomicPc.turn, hcall]
    · exact .allocateUnlock ⟨agree.mem, agree.top, rfl⟩ (fun hzero => absurd hzero hne)

/-- **The third commit point**: the page given back becomes the top of the free list. -/
theorem LockRel.push (h : LockRel L c a) {page : Nat}
    (hi : c.pc i = some (.deallocateSetTop page)) :
    ∃ a', (atomicAllocator L Hart).Run a [] a' ∧
      LockRel L ((c.setPc i (some .deallocateUnlock)).setShared
        { c.shared with store := { c.shared.store with freeListTop := page } }) a' := by
  obtain ⟨-, done, -⟩ := h.lock.holder hi rfl
  cases done with
  | deallocateSetTop agree ne =>
    refine h.commitInside hi rfl _ (deallocatePage page a.shared.store) rfl (.deallocateUnlock ?_)
    unfold deallocatePage
    rw [if_neg ne]
    exact ⟨agree.mem, rfl, agree.next⟩

/-- The test for a page never handed out.  When the pool is exhausted the call returns `NULL`, and
    the specification's with it. -/
theorem LockRel.testIdx (h : LockRel L c a) (hi : c.pc i = some .allocateIdx) :
    ∃ a', (atomicAllocator L Hart).Run a [] a' ∧
      LockRel L ((c.setPc i (some (if c.shared.store.nextUnallocatedIdx < MAX_ALLOCATEABLE_PAGES
        then .allocatePool else .allocateUnlock 0))).setShared c.shared) a' := by
  obtain ⟨-, done, -⟩ := h.lock.holder hi rfl
  cases done with
  | allocateIdx agree none =>
    by_cases hroom : c.shared.store.nextUnallocatedIdx < MAX_ALLOCATEABLE_PAGES
    · rw [if_pos hroom]
      exact h.inside hi rfl rfl rfl (fun _ => .allocatePool agree none (agree.next ▸ hroom))
    · rw [if_neg hroom]
      have hcall : allocatePage L a.shared.store = (0, a.shared.store) := by
        unfold allocatePage
        rw [if_neg (not_not.mpr none), ← agree.next, if_neg hroom]
      refine h.commitInside hi rfl c.shared.store a.shared.store ?_ ?_
      · simp only [AllocPc.spec, AtomicPc.turn, hcall]
      · exact .allocateUnlock agree (fun _ => ⟨none, agree.next ▸ not_lt.mp hroom⟩)

/-- The test of the argument of `deallocate_page`: `NULL` is accepted, and ignored. -/
theorem LockRel.testPage (h : LockRel L c a) {page : Nat}
    (hi : c.pc i = some (.deallocateTest page)) :
    ∃ a', (atomicAllocator L Hart).Run a [] a' ∧
      LockRel L ((c.setPc i (some (if page = 0 then .deallocateReturn
        else .deallocateLock page))).setShared c.shared) a' := by
  have houtside : ∀ pc', c.pc i = some pc' → pc'.holdsLock = false := by
    intro pc' hpc'
    rw [hi] at hpc'
    cases hpc'
    rfl
  by_cases hpage : page = 0
  · rw [if_pos hpage]
    have hcall : deallocatePage page a.shared.store = a.shared.store := by
      unfold deallocatePage
      rw [if_pos hpage]
    refine h.commit a.shared ?_ hi ?_
    · simp only [AllocPc.spec, AtomicPc.turn, hcall]
    · apply h.lock.set_outside houtside
      intro pc hpc
      cases hpc
      exact ⟨rfl, by simp⟩
  · rw [if_neg hpage]
    refine ⟨a, .refl, h.wait hi rfl ?_⟩
    apply h.lock.set_outside houtside
    intro pc hpc
    cases hpc
    exact ⟨rfl, by simpa using hpage⟩

/-- The lock is released. -/
theorem LockRel.unlock (h : LockRel L c a) (hi : c.pc i = some pc) (hpc : pc.holdsLock = true)
    (hspec : pc'.spec = pc.spec) (houtside : pc'.Outside) (hstore : sh.store = c.shared.store)
    (hlock : sh.lock = false)
    (hagree : Section L pc c.shared.store a.shared.store →
      AllocAgree c.shared.store a.shared.store) :
    ∃ a', (atomicAllocator L Hart).Run a [] a' ∧
      LockRel L ((c.setPc i (some pc')).setShared sh) a' := by
  obtain ⟨-, done, outside⟩ := h.lock.holder hi hpc
  refine ⟨a, .refl, h.wait hi hspec ?_⟩
  rw [hlock, hstore]
  exact .release (hagree done) houtside outside

/-- **An access of the code**: the specification waits or carries out the call. -/
theorem LockRel.turn (h : LockRel L c a) (hi : c.pc i = some pc)
    (hturn : pc.turn L c.shared = some (pc', sh)) :
    ∃ a', (atomicAllocator L Hart).Run a [] a' ∧
      LockRel L ((c.setPc i (some pc')).setShared sh) a' := by
  -- three accesses commit the call: the last write of each branch; at the others the specification
  -- stays where it is, and the note of the lock holder is carried along
  cases pc with
  | allocateLock =>
    cases hturn
    refine ⟨a, .refl, h.wait hi ?_ (h.lock.acquire hi ⟨rfl, by simp⟩ .allocateTop)⟩
    split_ifs <;> rfl
  | allocateTop =>
    cases hturn
    refine h.inside hi rfl ?_ rfl ?_
    · split_ifs <;> rfl
    · intro done
      cases done with
      | allocateTop agree =>
        split_ifs with htop
        · exact .allocateNext agree agree.top.symm htop
        · exact .allocateIdx agree (agree.top ▸ not_not.mp htop)
  | allocateNext entry =>
    cases hturn
    refine h.inside hi rfl rfl rfl ?_
    intro done
    cases done with
    | allocateNext agree top ne =>
      exact .allocateSetTop agree top ne (agree.load64 entry).symm
  | allocateSetTop entry next =>
    cases hturn
    exact h.pop hi
  | allocateIdx =>
    cases hturn
    exact h.testIdx hi
  | allocatePool =>
    cases hturn
    refine h.inside hi rfl rfl rfl ?_
    intro done
    cases done with
    | allocatePool agree none room =>
      exact .allocateIncr agree none room (by rw [agree.next])
  | allocateIncr result =>
    cases hturn
    refine h.inside hi rfl rfl rfl ?_
    intro done
    cases done with
    | allocateIncr agree none room page =>
      exact .allocateSetIdx agree none room page agree.next.symm
  | allocateSetIdx result idx =>
    cases hturn
    exact h.bump hi
  | allocateUnlock result =>
    cases hturn
    refine h.unlock hi rfl rfl ⟨rfl, by simp⟩ rfl rfl ?_
    intro done
    cases done with
    | allocateUnlock agree =>
      exact agree
  | allocateReturn result => cases hturn
  | deallocateTest page =>
    cases hturn
    exact h.testPage hi
  | deallocateLock page =>
    cases hturn
    have hwaiting := h.lock.not_holder hi rfl
    have hpage : page ≠ 0 := by
      rintro rfl
      exact hwaiting.2 rfl
    refine ⟨a, .refl, h.wait hi ?_ (h.lock.acquire hi hwaiting ?_)⟩
    · split_ifs <;> rfl
    · exact fun agree => .deallocateTop agree hpage
  | deallocateTop page =>
    cases hturn
    refine h.inside hi rfl rfl rfl ?_
    intro done
    cases done with
    | deallocateTop agree ne =>
      exact .deallocateLink agree ne agree.top.symm
  | deallocateLink page next =>
    cases hturn
    refine h.inside hi rfl rfl rfl ?_
    intro done
    cases done with
    | deallocateLink agree ne top =>
      -- the link is written into the page before the page is on the list
      refine .deallocateSetTop ⟨?_, agree.top, agree.next⟩ ne
      rw [top]
      simp only [Store.store64, Store.setMem, agree.mem]
  | deallocateSetTop page =>
    cases hturn
    exact h.push hi
  | deallocateUnlock =>
    cases hturn
    refine h.unlock hi rfl rfl ⟨rfl, by simp⟩ rfl rfl ?_
    intro done
    cases done with
    | deallocateUnlock agree =>
      exact agree
  | deallocateReturn => cases hturn

end internal

/-! ### Visible steps -/

section visible

variable {c c' : Smp AllocPc Hart} {a a' : Smp AtomicPc Hart} {i : Hart}

/-- A call begins or returns. -/
theorem LockRel.call (h : LockRel L c a) (hinv : AtomicInv L a') {new : Option AllocPc}
    (hshared : c'.shared = c.shared) (hshared' : a'.shared = a.shared)
    (hpc : c'.pc = Function.update c.pc i new)
    (hpc' : a'.pc = Function.update a.pc i (new.map AllocPc.spec)) (hheld : a'.held = c'.held)
    (hold : ∀ pc, c.pc i = some pc → pc.holdsLock = false)
    (hnew : ∀ pc, new = some pc → pc.Outside) : LockRel L c' a' := by
  refine ⟨hheld, ?_, hinv, ?_⟩
  · intro j
    rw [hpc, hpc']
    by_cases hj : j = i
    · rw [hj, Function.update_self, Function.update_self]
    · rw [Function.update_of_ne hj, Function.update_of_ne hj, h.pc j]
  · rw [hshared, hshared', hpc]
    exact h.lock.set_outside hold hnew

/-- **A step of the code**: the specification waits, carries out a call, or makes the step the
    harts see. -/
theorem LockRel.step {l : Option (AllocEvent Hart)} (h : LockRel L c a)
    (hstep : (lockedAllocator L Hart).step c l c') :
    ∃ a', (atomicAllocator L Hart).Run a l.toList a' ∧ LockRel L c' a' := by
  -- a hart that is about to return, or not in a call, is so in the specification
  have hat : ∀ i pc, c.pc i = some pc → a.pc i = some pc.spec := by
    intro i pc hi
    rw [h.pc i, hi, Option.map_some]
  have hidle : ∀ i, c.pc i = none → a.pc i = none := by
    intro i hi
    rw [h.pc i, hi, Option.map_none]
  have hmay : ∀ i x, c.MayTouch L i x → a.MayTouch L i x := by
    intro i x may
    unfold Smp.MayTouch
    rw [h.held]
    exact may
  cases hstep with
  | turn busy access => exact h.turn busy access
  | @callAllocate i idle =>
    have hspec : (atomicCode L).Step L a (some (.callAllocate i)) _ := .callAllocate (hidle i idle)
    refine ⟨_, .single hspec, h.call (h.inv.step hspec) rfl rfl rfl rfl h.held ?_ ?_⟩
    · intro pc hpc
      rw [idle] at hpc
      cases hpc
    · intro pc hpc
      cases hpc
      exact ⟨rfl, by simp [lockedCode]⟩
  | @returnAllocate i result done =>
    have hspec : (atomicCode L).Step L a (some (.returnAllocate i result)) _ :=
      .returnAllocate (hat i _ done)
    refine ⟨_, .single hspec, h.call (h.inv.step hspec) rfl rfl rfl rfl ?_ ?_ ?_⟩
    · show Function.update a.held i (receive (a.held i) result) =
        Function.update c.held i (receive (c.held i) result)
      rw [h.held]
    · intro pc hpc
      rw [done] at hpc
      cases hpc
      rfl
    · intro pc hpc
      cases hpc
  | @callDeallocate i page idle holds =>
    have hspec : (atomicCode L).Step L a (some (.callDeallocate i page)) _ :=
      .callDeallocate (hidle i idle) (h.held ▸ holds)
    refine ⟨_, .single hspec, h.call (h.inv.step hspec) rfl rfl rfl rfl ?_ ?_ ?_⟩
    · show Function.update a.held i (a.held i \ {page}) =
        Function.update c.held i (c.held i \ {page})
      rw [h.held]
    · intro pc hpc
      rw [idle] at hpc
      cases hpc
    · intro pc hpc
      cases hpc
      exact ⟨rfl, by simp [lockedCode]⟩
  | @returnDeallocate i done =>
    have hspec : (atomicCode L).Step L a (some (.returnDeallocate i)) _ :=
      .returnDeallocate (hat i _ done)
    refine ⟨_, .single hspec, h.call (h.inv.step hspec) rfl rfl rfl rfl h.held ?_ ?_⟩
    · intro pc hpc
      rw [done] at hpc
      cases hpc
      rfl
    · intro pc hpc
      cases hpc
  | @read i x may =>
    refine ⟨a, ?_, h⟩
    rw [h.mem_eq may]
    exact .single (.read (hmay i x may))
  | @write i x value may =>
    have hspec : (atomicCode L).Step L a (some (.write i x value)) _ :=
      .write value (hmay i x may)
    refine ⟨_, .single hspec, h.held, h.pc, h.inv.step hspec, ?_⟩
    cases h.lock with
    | free unlocked agree outside =>
      refine .free unlocked ⟨?_, agree.top, agree.next⟩ outside
      show Function.update c.shared.store.mem x value = Function.update a.shared.store.mem x value
      rw [agree.mem]
    | @taken j pc locked inside done outside =>
      -- the client's page is neither free nor the one being linked in
      refine .taken locked inside (done.poke value (h.untouched_free may) ?_) outside
      rintro page rfl
      apply h.untouched_link may inside
      cases done with
      | deallocateSetTop agree ne => exact ne
  | @give i j page holds other =>
    have hspec : (atomicCode L).Step L a (some (.give i j page)) _ :=
      .give (h.held ▸ holds) other
    refine ⟨_, .single hspec, ?_, h.pc, h.inv.step hspec, h.lock⟩
    show Function.update (Function.update a.held i (a.held i \ {page})) j
        (insert page (a.held j)) =
      Function.update (Function.update c.held i (c.held i \ {page})) j (insert page (c.held j))
    rw [h.held]

end visible

/-! ### From boot -/

/-- The specification starts in the same state. -/
theorem LockRel.start (c : Smp AllocPc Hart) (h : (lockedAllocator L Hart).start c) :
    ∃ a, (atomicAllocator L Hart).start a ∧ LockRel L c a := by
  obtain ⟨hlock, htop, hnext, hpc, hheld⟩ := h
  refine ⟨⟨c.shared, fun _ => none, c.held⟩, ⟨hlock, htop, hnext, fun _ => rfl, hheld⟩, rfl, ?_, ?_,
    .free hlock ⟨rfl, rfl, rfl⟩ ?_⟩
  · intro i
    rw [hpc i, Option.map_none]
  · have hnone : ∀ i, owned (⟨c.shared, fun _ => none, c.held⟩ : Smp AtomicPc Hart) i = ∅ := by
      intro i
      simp [owned, hheld i]
    obtain ⟨free, hinv⟩ := (AllocRun.start (L := L) htop hnext).inv
    refine ⟨⟨free, ?_⟩, ?_, ?_⟩
    · simp only [hnone, Set.mem_empty_iff_false, exists_false]
      exact hinv
    · intro i j p hi
      rw [hnone i] at hi
      exact absurd hi (Set.notMem_empty p)
    · intro i p _
      rw [inCall_none]
      exact Set.notMem_empty p
  · intro i pc hi
    rw [hpc i] at hi
    cases hi

/-- **The lock works**: a forward simulation from the code to the specification. -/
theorem lockedAllocator_simulation (L : Layout) (Hart : Type) [DecidableEq Hart] :
    Simulation (lockedAllocator L Hart) (atomicAllocator L Hart) (LockRel L) where
  start := LockRel.start
  step _ _ _ _ h hstep := h.step hstep

variable {events : List (AllocEvent Hart)} {c : Smp AllocPc Hart}

/-- **The code refines the specification.**  What any number of harts see of `pagealloc.c`, in any
    interleaving of its accesses with theirs (calls, results, the pages they hold, and the bytes
    they read in them), they see when `allocate_page` and `deallocate_page` are carried out one
    after the other. -/
theorem lockedAllocator_refines (h : (lockedAllocator L Hart).Reaches events c) :
    ∃ a, (atomicAllocator L Hart).Reaches events a ∧ a.held = c.held ∧
      ∀ i x, c.MayTouch L i x → c.shared.store.mem x = a.shared.store.mem x := by
  obtain ⟨a, hreach, hrel⟩ := (lockedAllocator_simulation L Hart).traces h
  exact ⟨a, hreach, hrel.held, fun i x may => hrel.mem_eq may⟩

/-- **Safety of the lock.**  One hart at a time is between `spin_lock_acquire` and
    `spin_lock_release`; no page of the pool is held by two harts; `allocate_page` returns a page
    of the pool that nobody holds, and `NULL` only if every page is held or in a call. -/
theorem lockedAllocator_safe (h : (lockedAllocator L Hart).Reaches events c) :
    (∀ i j pc pc', c.pc i = some pc → c.pc j = some pc' → pc.holdsLock = true →
      pc'.holdsLock = true → i = j) ∧
    (∀ i p, p ∈ c.held i → p ∈ L.pool ∧ ∀ j, p ∈ c.held j → i = j) ∧
    (∀ i p, c.pc i = some (.allocateReturn p) → p ≠ 0 → p ∈ L.pool ∧ ∀ j, p ∉ c.held j) ∧
    (∀ i, c.pc i = some (.allocateUnlock 0) → ∀ p ∈ L.pool, ∃ j, p ∈ c.held j ∨
      ∃ pc, c.pc j = some pc ∧ (pc.spec = .allocated p ∨ pc.spec = .deallocating p)) := by
  -- all four are read off the atomic allocator, where they are its invariant
  obtain ⟨a, -, hrel⟩ := (lockedAllocator_simulation L Hart).traces h
  obtain ⟨free, hinv⟩ := hrel.inv.alloc
  have hpool : ∀ i p, p ∈ owned a i → p ∈ L.pool := fun i p hp =>
    (hinv.used_pool p ⟨i, hp⟩).mono hinv.next_le
  refine ⟨?_, ?_, ?_, ?_⟩
  · intro i j pc pc' hi hj hpc hpc'
    obtain ⟨-, -, outside⟩ := hrel.lock.holder hi hpc
    by_contra hij
    have hlock := (outside j pc' (Ne.symm hij) hj).1
    rw [hpc'] at hlock
    cases hlock
  · intro i p hp
    rw [← hrel.held] at hp
    refine ⟨hpool i p (Or.inl hp), ?_⟩
    intro j hj
    rw [← hrel.held] at hj
    exact hrel.inv.unique i j p (Or.inl hp) (Or.inl hj)
  · intro i p hi hne
    have hcall : p ∈ inCall (a.pc i) := by
      rw [hrel.pc i, hi, Option.map_some]
      exact mem_inCall_allocated.mpr ⟨hne, rfl⟩
    refine ⟨hpool i p (Or.inr hcall), ?_⟩
    intro j hj
    rw [← hrel.held] at hj
    have hij := hrel.inv.unique i j p (Or.inr hcall) (Or.inl hj)
    subst hij
    exact hrel.inv.apart i p hj hcall
  · -- `NULL`: the list is empty and the pool used up, so every page is with a hart or in a call
    intro i hi p hp
    obtain ⟨-, done, -⟩ := hrel.lock.holder hi rfl
    cases done with
    | allocateUnlock agree exhausted =>
      obtain ⟨htop, hnext⟩ := exhausted rfl
      have hleft : pagesLeft a.shared.store free = 0 := by
        have hchain := hinv.chain
        rw [htop] at hchain
        rw [pagesLeft, hchain.eq_nil, List.length_nil]
        omega
      have hall := hinv.pagesLeft_eq_zero_iff.mp hleft
      rw [← hall] at hp
      obtain ⟨j, hheld | ⟨-, hcall⟩⟩ := hp
      · rw [hrel.held] at hheld
        exact ⟨j, Or.inl hheld⟩
      · refine ⟨j, Or.inr ?_⟩
        rw [hrel.pc j, Option.map_eq_some_iff, Option.map_eq_some_iff] at hcall
        rcases hcall with ⟨pc, hpc, hspec⟩ | ⟨pc, hpc, hspec⟩
        · exact ⟨pc, hpc, Or.inl hspec⟩
        · exact ⟨pc, hpc, Or.inr hspec⟩

end RiscvHypervisor
