import RiscvHypervisor.Lib.Transition
import RiscvHypervisor.Model.PageAlloc
import Mathlib.Data.Set.Insert

namespace RiscvHypervisor

open Transition

/-!
# Model — the page allocator on any number of harts

`sync.h`, and `pagealloc.c` with its lock: `allocate_page` and `deallocate_page` as the sequence of
their accesses to what the harts share, in any interleaving.

* `spinLockTryAcquire`, `spinLockAcquireTurn`, `spinLockRelease` — the lock;
* `AllocPc.turn` — one access to the lock, to a global or to the link of a page;
* `AllocatorCode.system` — the harts, which call the allocator, use the pages they hold and hand
  them to each other; `lockedAllocator` runs the code, `atomicAllocator` carries out each call in
  one step, by `allocatePage` or `deallocatePage`.

The accesses are sequentially consistent: those to the flag are in C11, and the others are made
by the holder of the lock.
-/

/-! ### `sync.h` -/

/-- `atomic_flag_test_and_set`: what the flag was, and the flag afterwards. -/
def atomicFlagTestAndSet (_flag : Bool) : Bool × Bool := (_flag, true)

/-- `spin_lock_try_acquire`: whether the lock was free, and the lock afterwards. -/
def spinLockTryAcquire (lock : Bool) : Bool × Bool :=
  (!(atomicFlagTestAndSet lock).1, (atomicFlagTestAndSet lock).2)

/-- One turn of the loop of `spin_lock_acquire`: whether the loop ends, and the lock. -/
def spinLockAcquireTurn (lock : Bool) : Bool × Bool := spinLockTryAcquire lock

/-- `spin_lock_release`. -/
def spinLockRelease (_lock : Bool) : Bool := false

/-! ### `pagealloc.c`, access by access -/

/-- The next access of a hart that is in a call, with the local variables the rest needs. -/
inductive AllocPc where
  /-- `allocate_page`: `spin_lock_acquire`. -/
  | allocateLock
  /-- Read `free_list_top` and test it. -/
  | allocateTop
  /-- Read `entry->next`. -/
  | allocateNext (entry : Nat)
  /-- Write `free_list_top`. -/
  | allocateSetTop (entry next : Nat)
  /-- Read `next_unallocated_idx` and compare it. -/
  | allocateIdx
  /-- Read `next_unallocated_idx` for the address of the page. -/
  | allocatePool
  /-- Read `next_unallocated_idx` for the increment. -/
  | allocateIncr (result : Nat)
  /-- Write `next_unallocated_idx`. -/
  | allocateSetIdx (result idx : Nat)
  /-- `spin_lock_release`. -/
  | allocateUnlock (result : Nat)
  /-- `return result`. -/
  | allocateReturn (result : Nat)
  /-- `deallocate_page`: the test for `NULL`. -/
  | deallocateTest (page : Nat)
  /-- `spin_lock_acquire`. -/
  | deallocateLock (page : Nat)
  /-- Read `free_list_top`. -/
  | deallocateTop (page : Nat)
  /-- Write the link of the page. -/
  | deallocateLink (page next : Nat)
  /-- Write `free_list_top`. -/
  | deallocateSetTop (page : Nat)
  /-- `spin_lock_release`. -/
  | deallocateUnlock
  /-- The end of `deallocate_page`. -/
  | deallocateReturn
deriving DecidableEq, Repr

/-- What the harts share: the allocator's lock and host memory with the globals. -/
structure Shared where
  lock : Bool
  store : Store

/-- One access; `none` where the call is about to return. -/
def AllocPc.turn (L : Layout) (sh : Shared) : AllocPc → Option (AllocPc × Shared)
  | .allocateLock =>
    some (if (spinLockAcquireTurn sh.lock).1 then .allocateTop else .allocateLock,
      { sh with lock := (spinLockAcquireTurn sh.lock).2 })
  | .allocateTop =>
    some (if sh.store.freeListTop ≠ 0 then .allocateNext sh.store.freeListTop else .allocateIdx, sh)
  | .allocateNext entry => some (.allocateSetTop entry (sh.store.load64 entry), sh)
  | .allocateSetTop entry next =>
    some (.allocateUnlock entry, { sh with store := { sh.store with freeListTop := next } })
  | .allocateIdx =>
    some (if sh.store.nextUnallocatedIdx < MAX_ALLOCATEABLE_PAGES then .allocatePool
      else .allocateUnlock 0, sh)
  | .allocatePool => some (.allocateIncr (L.poolPage sh.store.nextUnallocatedIdx), sh)
  | .allocateIncr result => some (.allocateSetIdx result sh.store.nextUnallocatedIdx, sh)
  | .allocateSetIdx result idx =>
    some (.allocateUnlock result,
      { sh with store := { sh.store with nextUnallocatedIdx := idx + 1 } })
  | .allocateUnlock result =>
    some (.allocateReturn result, { sh with lock := spinLockRelease sh.lock })
  | .allocateReturn _ => none
  | .deallocateTest page =>
    some (if page = 0 then .deallocateReturn else .deallocateLock page, sh)
  | .deallocateLock page =>
    some (if (spinLockAcquireTurn sh.lock).1 then .deallocateTop page else .deallocateLock page,
      { sh with lock := (spinLockAcquireTurn sh.lock).2 })
  | .deallocateTop page => some (.deallocateLink page sh.store.freeListTop, sh)
  | .deallocateLink page next =>
    some (.deallocateSetTop page, { sh with store := sh.store.store64 page next })
  | .deallocateSetTop page =>
    some (.deallocateUnlock, { sh with store := { sh.store with freeListTop := page } })
  | .deallocateUnlock => some (.deallocateReturn, { sh with lock := spinLockRelease sh.lock })
  | .deallocateReturn => none

/-- Between `spin_lock_acquire` and `spin_lock_release`. -/
def AllocPc.holdsLock : AllocPc → Bool
  | .allocateLock => false
  | .allocateReturn _ => false
  | .deallocateTest _ => false
  | .deallocateLock _ => false
  | .deallocateReturn => false
  | _ => true

/-! ### The harts -/

/-- What the harts do that does not happen inside the allocator. -/
inductive AllocEvent (Hart : Type) where
  /-- A hart calls `allocate_page()`. -/
  | callAllocate (hart : Hart)
  /-- The call returns `result`. -/
  | returnAllocate (hart : Hart) (result : Nat)
  /-- A hart calls `deallocate_page(page)`. -/
  | callDeallocate (hart : Hart) (page : Nat)
  /-- The call returns. -/
  | returnDeallocate (hart : Hart)
  /-- A hart reads a byte. -/
  | read (hart : Hart) (address : Nat) (value : BitVec 8)
  /-- A hart writes a byte. -/
  | write (hart : Hart) (address : Nat) (value : BitVec 8)
  /-- A hart leaves a page to another one. -/
  | give (hart receiver : Hart) (page : Nat)

/-- How calls of the allocator are carried out: where they begin, where they are about to
    return, and the step between. -/
structure AllocatorCode (Pc : Type) where
  allocate : Pc
  deallocate (page : Nat) : Pc
  allocated (result : Nat) : Pc
  deallocated : Pc
  turn (sh : Shared) (pc : Pc) : Option (Pc × Shared)

/-- The harts: what they share, where each one is in the allocator, and the pages that calls have
    given it and it has not given away. -/
structure Smp (Pc Hart : Type) where
  shared : Shared
  pc : Hart → Option Pc
  held : Hart → Set Nat

namespace Smp

variable {Pc Hart : Type}

def setShared (c : Smp Pc Hart) (sh : Shared) : Smp Pc Hart := { c with shared := sh }

@[simp] theorem shared_setShared (c : Smp Pc Hart) (sh : Shared) :
    (c.setShared sh).shared = sh := rfl
@[simp] theorem pc_setShared (c : Smp Pc Hart) (sh : Shared) : (c.setShared sh).pc = c.pc := rfl
@[simp] theorem held_setShared (c : Smp Pc Hart) (sh : Shared) :
    (c.setShared sh).held = c.held := rfl

/-- A byte that a hart may read and write: it is in no page of the pool, or in one it holds. -/
def MayTouch (L : Layout) (c : Smp Pc Hart) (i : Hart) (a : Nat) : Prop :=
  ∀ n, n < MAX_ALLOCATEABLE_PAGES → L.poolPage n ≤ a → a < L.poolPage n + PGSIZE →
    L.poolPage n ∈ c.held i

/-- Write a byte. -/
def poke (c : Smp Pc Hart) (a : Nat) (value : BitVec 8) : Smp Pc Hart :=
  c.setShared { c.shared with
    store := { c.shared.store with mem := Function.update c.shared.store.mem a value } }

variable [DecidableEq Hart]

def setPc (c : Smp Pc Hart) (i : Hart) (pc : Option Pc) : Smp Pc Hart :=
  { c with pc := Function.update c.pc i pc }

def setHeld (c : Smp Pc Hart) (i : Hart) (pages : Set Nat) : Smp Pc Hart :=
  { c with held := Function.update c.held i pages }

variable (c : Smp Pc Hart) (i : Hart) (pc : Option Pc) (pages : Set Nat)

@[simp] theorem shared_setPc : (c.setPc i pc).shared = c.shared := rfl
@[simp] theorem held_setPc : (c.setPc i pc).held = c.held := rfl
@[simp] theorem shared_setHeld : (c.setHeld i pages).shared = c.shared := rfl
@[simp] theorem pc_setHeld : (c.setHeld i pages).pc = c.pc := rfl

theorem pc_setPc (j : Hart) : (c.setPc i pc).pc j = if j = i then pc else c.pc j :=
  Function.update_apply c.pc i pc j

theorem held_setHeld (j : Hart) :
    (c.setHeld i pages).held j = if j = i then pages else c.held j :=
  Function.update_apply c.held i pages j

end Smp

/-- The pages a hart holds after `allocate_page` has returned `result`. -/
def receive (pages : Set Nat) (result : Nat) : Set Nat :=
  if result = 0 then pages else insert result pages

section system

variable {Pc Hart : Type} [DecidableEq Hart]

/-- One step of one hart.  A hart is in one call at a time, gives back only pages it holds (or
    `NULL`), and touches no page of the pool it does not hold. -/
inductive AllocatorCode.Step (L : Layout) (code : AllocatorCode Pc) :
    Smp Pc Hart → Option (AllocEvent Hart) → Smp Pc Hart → Prop where
  | turn {c : Smp Pc Hart} {i : Hart} {pc pc' : Pc} {sh : Shared} (busy : c.pc i = some pc)
      (access : code.turn c.shared pc = some (pc', sh)) :
      code.Step L c none ((c.setPc i (some pc')).setShared sh)
  | callAllocate {c : Smp Pc Hart} {i : Hart} (idle : c.pc i = none) :
      code.Step L c (some (.callAllocate i)) (c.setPc i (some code.allocate))
  | returnAllocate {c : Smp Pc Hart} {i : Hart} {result : Nat}
      (done : c.pc i = some (code.allocated result)) :
      code.Step L c (some (.returnAllocate i result))
        ((c.setPc i none).setHeld i (receive (c.held i) result))
  | callDeallocate {c : Smp Pc Hart} {i : Hart} {page : Nat} (idle : c.pc i = none)
      (holds : page = 0 ∨ page ∈ c.held i) :
      code.Step L c (some (.callDeallocate i page))
        ((c.setPc i (some (code.deallocate page))).setHeld i (c.held i \ {page}))
  | returnDeallocate {c : Smp Pc Hart} {i : Hart} (done : c.pc i = some code.deallocated) :
      code.Step L c (some (.returnDeallocate i)) (c.setPc i none)
  | read {c : Smp Pc Hart} {i : Hart} {a : Nat} (may : c.MayTouch L i a) :
      code.Step L c (some (.read i a (c.shared.store.mem a))) c
  | write {c : Smp Pc Hart} {i : Hart} {a : Nat} (value : BitVec 8) (may : c.MayTouch L i a) :
      code.Step L c (some (.write i a value)) (c.poke a value)
  | give {c : Smp Pc Hart} {i j : Hart} {page : Nat} (holds : page ∈ c.held i) (other : i ≠ j) :
      code.Step L c (some (.give i j page))
        ((c.setHeld i (c.held i \ {page})).setHeld j (insert page (c.held j)))

/-- The harts from boot: the lock is free, no page has been handed out, and nobody is in the
    allocator. -/
def AllocatorCode.system (L : Layout) (code : AllocatorCode Pc) (Hart : Type) [DecidableEq Hart] :
    System (Smp Pc Hart) (AllocEvent Hart) where
  start c := c.shared.lock = false ∧ c.shared.store.freeListTop = 0 ∧
    c.shared.store.nextUnallocatedIdx = 0 ∧ (∀ i, c.pc i = none) ∧ ∀ i, c.held i = ∅
  step := code.Step L

end system

/-! ### The code and its specification -/

/-- `pagealloc.c`. -/
def lockedCode (L : Layout) : AllocatorCode AllocPc where
  allocate := .allocateLock
  deallocate page := .deallocateTest page
  allocated result := .allocateReturn result
  deallocated := .deallocateReturn
  turn sh pc := pc.turn L sh

/-- `lockedAllocator`: any number of harts that run `pagealloc.c`. -/
def lockedAllocator (L : Layout) (Hart : Type) [DecidableEq Hart] :
    System (Smp AllocPc Hart) (AllocEvent Hart) := (lockedCode L).system L Hart

/-- Hart `i` makes its next access, if it is in a call that is not about to return. -/
def Smp.turnOf {Hart : Type} [DecidableEq Hart] (L : Layout) (c : Smp AllocPc Hart) (i : Hart) :
    Smp AllocPc Hart :=
  ((c.pc i).bind (AllocPc.turn L c.shared)).elim c
    (fun r => (c.setPc i (some r.1)).setShared r.2)

/-- The harts make accesses in the given order. -/
def Smp.turns {Hart : Type} [DecidableEq Hart] (L : Layout) (c : Smp AllocPc Hart)
    (order : List Hart) : Smp AllocPc Hart := order.foldl (Smp.turnOf L) c

/-- A call that is carried out in one step: before it and after it. -/
inductive AtomicPc where
  | allocating
  | allocated (result : Nat)
  | deallocating (page : Nat)
  | deallocated
deriving DecidableEq, Repr

/-- The step: the function of the model for one hart. -/
def AtomicPc.turn (L : Layout) (sh : Shared) : AtomicPc → Option (AtomicPc × Shared)
  | .allocating =>
    some (.allocated (allocatePage L sh.store).1, { sh with store := (allocatePage L sh.store).2 })
  | .allocated _ => none
  | .deallocating page =>
    some (.deallocated, { sh with store := deallocatePage page sh.store })
  | .deallocated => none

/-- The specification: each call is one step. -/
def atomicCode (L : Layout) : AllocatorCode AtomicPc where
  allocate := .allocating
  deallocate page := .deallocating page
  allocated result := .allocated result
  deallocated := .deallocated
  turn sh pc := pc.turn L sh

/-- `atomicAllocator`: the harts when every call is carried out at once. -/
def atomicAllocator (L : Layout) (Hart : Type) [DecidableEq Hart] :
    System (Smp AtomicPc Hart) (AllocEvent Hart) := (atomicCode L).system L Hart

end RiscvHypervisor
