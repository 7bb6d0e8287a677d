import RiscvHypervisor.Proof.LockedAlloc

namespace RiscvHypervisor

open Transition

/-!
# Progress under the allocator's lock

Nobody can keep the lock for good: a hart that holds it releases it after at most six accesses of
its own, whatever the others do, and a hart that waits for it can then take it.

* `AllocPc.left` — how many accesses a call still makes, if it finds the lock free;
* `holder_turn` — an access under the lock is always possible and brings the release nearer;
* `lockedAllocator_progress` — every call can return, with at most thirteen accesses in which only
  its own hart and the holder of the lock take part.
-/

variable {L : Layout} {Hart : Type} [DecidableEq Hart]

/-- A bound on the accesses a call still makes, when it does not have to wait. -/
def AllocPc.left : AllocPc → Nat
  | .allocateReturn _ => 0
  | .deallocateReturn => 0
  | .allocateUnlock _ => 1
  | .deallocateUnlock => 1
  | .allocateSetTop _ _ => 2
  | .allocateSetIdx _ _ => 2
  | .deallocateSetTop _ => 2
  | .allocateNext _ => 3
  | .allocateIncr _ => 3
  | .deallocateLink _ _ => 3
  | .allocatePool => 4
  | .deallocateTop _ => 4
  | .allocateIdx => 5
  | .deallocateLock _ => 5
  | .allocateTop => 6
  | .deallocateTest _ => 6
  | .allocateLock => 7

/-- Turns of harts are internal steps. -/
theorem turnOf_run (c : Smp AllocPc Hart) (i : Hart) :
    (lockedAllocator L Hart).Run c [] (c.turnOf L i) := by
  unfold Smp.turnOf
  cases hi : c.pc i with
  | none => exact .refl
  | some pc =>
    cases hturn : pc.turn L c.shared with
    | none =>
      rw [Option.bind_some, hturn]
      exact .refl
    | some r =>
      obtain ⟨pc', sh⟩ := r
      rw [Option.bind_some, hturn]
      exact System.Run.refl.internal (AllocatorCode.Step.turn hi hturn)

/-- A sequence of turns is a run of the system that calls nothing and returns nothing. -/
theorem turns_run (c : Smp AllocPc Hart) (order : List Hart) :
    (lockedAllocator L Hart).Run c [] (c.turns L order) := by
  induction order generalizing c with
  | nil => exact .refl
  | cons i order ih => exact (turnOf_run c i).trans (ih (c.turnOf L i))

omit [DecidableEq Hart] in
/-- **An access under the lock** is possible, and is followed by fewer accesses until the lock is
    released. -/
theorem holder_turn {pc : AllocPc} (sh : Shared) (h : pc.holdsLock = true) :
    ∃ pc' sh', pc.turn L sh = some (pc', sh') ∧ pc'.left < pc.left ∧
      (pc'.holdsLock = true ∨ pc'.left = 0 ∧ sh'.lock = false) := by
  cases pc with
  | allocateLock => cases h
  | allocateTop =>
    by_cases htop : sh.store.freeListTop ≠ 0
    · exact ⟨_, _, rfl, by simp only [if_pos htop, AllocPc.left]; decide,
        Or.inl (by rw [if_pos htop]; rfl)⟩
    · exact ⟨_, _, rfl, by simp only [if_neg htop, AllocPc.left]; decide,
        Or.inl (by rw [if_neg htop]; rfl)⟩
  | allocateNext entry => exact ⟨_, _, rfl, Nat.lt_succ_self 2, Or.inl rfl⟩
  | allocateSetTop entry next => exact ⟨_, _, rfl, Nat.lt_succ_self 1, Or.inl rfl⟩
  | allocateIdx =>
    by_cases hroom : sh.store.nextUnallocatedIdx < MAX_ALLOCATEABLE_PAGES
    · exact ⟨_, _, rfl, by simp only [if_pos hroom, AllocPc.left]; decide,
        Or.inl (by rw [if_pos hroom]; rfl)⟩
    · exact ⟨_, _, rfl, by simp only [if_neg hroom, AllocPc.left]; decide,
        Or.inl (by rw [if_neg hroom]; rfl)⟩
  | allocatePool => exact ⟨_, _, rfl, Nat.lt_succ_self 3, Or.inl rfl⟩
  | allocateIncr result => exact ⟨_, _, rfl, Nat.lt_succ_self 2, Or.inl rfl⟩
  | allocateSetIdx result idx => exact ⟨_, _, rfl, Nat.lt_succ_self 1, Or.inl rfl⟩
  | allocateUnlock result => exact ⟨_, _, rfl, Nat.lt_succ_self 0, Or.inr ⟨rfl, rfl⟩⟩
  | allocateReturn result => cases h
  | deallocateTest page => cases h
  | deallocateLock page => cases h
  | deallocateTop page => exact ⟨_, _, rfl, Nat.lt_succ_self 3, Or.inl rfl⟩
  | deallocateLink page next => exact ⟨_, _, rfl, Nat.lt_succ_self 2, Or.inl rfl⟩
  | deallocateSetTop page => exact ⟨_, _, rfl, Nat.lt_succ_self 1, Or.inl rfl⟩
  | deallocateUnlock => exact ⟨_, _, rfl, Nat.lt_succ_self 0, Or.inr ⟨rfl, rfl⟩⟩
  | deallocateReturn => cases h

omit [DecidableEq Hart] in
/-- Whoever holds the lock has at most six accesses left. -/
theorem AllocPc.left_le_six {pc : AllocPc} (h : pc.holdsLock = true) : pc.left ≤ 6 := by
  cases pc with
  | allocateLock => cases h
  | _ => simp [AllocPc.left]

/-- A call that has no access left is about to return. -/
theorem AllocPc.returning {pc : AllocPc} (h : pc.left = 0) :
    (∃ result, pc = .allocateReturn result) ∨ pc = .deallocateReturn := by
  cases pc <;> first | exact Or.inl ⟨_, rfl⟩ | exact Or.inr rfl | cases h

/-! ### One hart's turns -/

variable {c : Smp AllocPc Hart} {i : Hart} {pc pc' : AllocPc}

/-- A turn that is possible is taken. -/
theorem turnOf_eq {sh : Shared} (hi : c.pc i = some pc)
    (hturn : pc.turn L c.shared = some (pc', sh)) :
    c.turnOf L i = (c.setPc i (some pc')).setShared sh := by
  unfold Smp.turnOf
  rw [hi, Option.bind_some, hturn, Option.elim_some]

/-- It moves nobody else, -/
theorem turnOf_others (c : Smp AllocPc Hart) {j : Hart} (hj : j ≠ i) :
    (c.turnOf L i).pc j = c.pc j := by
  unfold Smp.turnOf
  cases (c.pc i).bind (AllocPc.turn L c.shared) with
  | none => rfl
  | some r =>
    rw [Option.elim_some, Smp.pc_setShared, Smp.pc_setPc, if_neg hj]

/-- and neither does a sequence of other harts' turns. -/
theorem turns_others (order : List Hart) (c : Smp AllocPc Hart) {j : Hart} (hj : j ∉ order) :
    (c.turns L order).pc j = c.pc j := by
  induction order generalizing c with
  | nil => rfl
  | cons i order ih =>
    rw [List.mem_cons, not_or] at hj
    exact (ih (c.turnOf L i) hj.2).trans (turnOf_others c hj.1)

/-- **The holder releases the lock**, and is about to return. -/
theorem release_turns (hi : c.pc i = some pc) (hpc : pc.holdsLock = true) :
    ∃ n pc', n ≤ pc.left ∧ (c.turns L (List.replicate n i)).pc i = some pc' ∧ pc'.left = 0 ∧
      (c.turns L (List.replicate n i)).shared.lock = false := by
  induction hleft : pc.left using Nat.strong_induction_on generalizing c pc with
  | _ left ih =>
    obtain ⟨pc', sh, hturn, hless, hnext⟩ := holder_turn (L := L) c.shared hpc
    have heq := turnOf_eq hi hturn
    have hi' : (c.turnOf L i).pc i = some pc' := by
      rw [heq, Smp.pc_setShared, Smp.pc_setPc, if_pos rfl]
    rcases hnext with hpc' | ⟨hdone, hlock⟩
    · obtain ⟨n, pc'', hn, hi'', hdone, hlock⟩ := ih pc'.left (hleft ▸ hless) hi' hpc' rfl
      exact ⟨n + 1, pc'', by omega, hi'', hdone, hlock⟩
    · refine ⟨1, pc', by omega, hi', hdone, ?_⟩
      show (c.turnOf L i).shared.lock = false
      rw [heq]
      exact hlock

/-- A hart that gets the lock with its next access carries its call out. -/
theorem enter_turns {q : AllocPc} (hi : c.pc i = some pc)
    (hturn : ∃ sh, pc.turn L c.shared = some (q, sh)) (hq : q.holdsLock = true)
    (hleft : q.left < pc.left) :
    ∃ n pc', n ≤ pc.left ∧ (c.turns L (List.replicate n i)).pc i = some pc' ∧ pc'.left = 0 := by
  obtain ⟨sh, hturn⟩ := hturn
  have hi' : (c.turnOf L i).pc i = some q := by
    rw [turnOf_eq hi hturn, Smp.pc_setShared, Smp.pc_setPc, if_pos rfl]
  obtain ⟨n, pc', hn, hi'', hdone, -⟩ := release_turns (L := L) hi' hq
  exact ⟨n + 1, pc', by omega, hi'', hdone⟩

/-- A call that finds the lock free is carried out. -/
theorem finish_turns (hlock : c.shared.lock = false) (hi : c.pc i = some pc)
    (hpc : pc.holdsLock = false) :
    ∃ n pc', n ≤ pc.left ∧ (c.turns L (List.replicate n i)).pc i = some pc' ∧ pc'.left = 0 := by
  have hfree : (spinLockAcquireTurn c.shared.lock).1 = true := by
    rw [hlock]
    rfl
  cases pc with
  | allocateLock =>
    refine enter_turns (q := .allocateTop) hi ?_ rfl (Nat.lt_succ_self 6)
    rw [AllocPc.turn, if_pos hfree]
    exact ⟨_, rfl⟩
  | allocateReturn result => exact ⟨0, _, Nat.le_refl 0, hi, rfl⟩
  | deallocateTest page =>
    by_cases hpage : page = 0
    · refine ⟨1, .deallocateReturn, Nat.le_add_left 1 5, ?_, rfl⟩
      show (c.turnOf L i).pc i = _
      rw [turnOf_eq hi rfl, Smp.pc_setShared, Smp.pc_setPc, if_pos rfl, if_pos hpage]
    · -- the test for `NULL`, and then the lock
      have heq := turnOf_eq (L := L) hi rfl
      rw [if_neg hpage] at heq
      have hi' : (c.turnOf L i).pc i = some (.deallocateLock page) := by
        rw [heq, Smp.pc_setShared, Smp.pc_setPc, if_pos rfl]
      have hshared : (c.turnOf L i).shared = c.shared := by
        rw [heq, Smp.shared_setShared]
      have hturn : ∃ sh, AllocPc.turn L (c.turnOf L i).shared (.deallocateLock page) =
          some (.deallocateTop page, sh) := by
        rw [AllocPc.turn, hshared, if_pos hfree]
        exact ⟨_, rfl⟩
      obtain ⟨n, pc', hn, hi'', hdone⟩ := enter_turns hi' hturn rfl (Nat.lt_succ_self 4)
      exact ⟨n + 1, pc', Nat.succ_le_succ hn, hi'', hdone⟩
  | deallocateLock page =>
    refine enter_turns (q := .deallocateTop page) hi ?_ rfl (Nat.lt_succ_self 4)
    rw [AllocPc.turn, if_pos hfree]
    exact ⟨_, rfl⟩
  | deallocateReturn => exact ⟨0, _, Nat.le_refl 0, hi, rfl⟩
  | _ => cases hpc

omit [DecidableEq Hart] in
/-- No call has more than seven accesses left. -/
theorem AllocPc.left_le (pc : AllocPc) : pc.left ≤ 7 := by
  cases pc with
  | _ => simp [AllocPc.left]

/-- Turns one after the other. -/
theorem turns_append (c : Smp AllocPc Hart) (order order' : List Hart) :
    c.turns L (order ++ order') = (c.turns L order).turns L order' := by
  unfold Smp.turns
  rw [List.foldl_append]

/-- **Progress.**  Whatever the harts have done, a call can return: the hart that holds the lock
    finishes its call, and then the caller its own, in at most thirteen accesses. -/
theorem lockedAllocator_progress {events : List (AllocEvent Hart)}
    (h : (lockedAllocator L Hart).Reaches events c) (hi : c.pc i = some pc) :
    ∃ order : List Hart, order.length ≤ 13 ∧
      (∀ j ∈ order, j = i ∨ ∃ pc', c.pc j = some pc' ∧ pc'.holdsLock = true) ∧
      (lockedAllocator L Hart).Run c [] (c.turns L order) ∧
      ((∃ result, (c.turns L order).pc i = some (.allocateReturn result)) ∨
        (c.turns L order).pc i = some .deallocateReturn) := by
  have hreturn : ∀ order : List Hart, (∃ pc', (c.turns L order).pc i = some pc' ∧ pc'.left = 0) →
      (∃ result, (c.turns L order).pc i = some (.allocateReturn result)) ∨
        (c.turns L order).pc i = some .deallocateReturn := by
    rintro order ⟨pc', hpc', hdone⟩
    rcases AllocPc.returning hdone with ⟨result, rfl⟩ | rfl
    · exact Or.inl ⟨result, hpc'⟩
    · exact Or.inr hpc'
  obtain ⟨a, -, hrel⟩ := (lockedAllocator_simulation L Hart).traces h
  by_cases hpc : pc.holdsLock = true
  · obtain ⟨n, pc', hn, hpc', hdone, -⟩ := release_turns (L := L) hi hpc
    have hsix := AllocPc.left_le_six hpc
    refine ⟨List.replicate n i, by rw [List.length_replicate]; omega, ?_, turns_run c _,
      hreturn _ ⟨pc', hpc', hdone⟩⟩
    intro j hj
    exact Or.inl (List.eq_of_mem_replicate hj)
  · rw [Bool.not_eq_true] at hpc
    cases hrel.lock with
    | free unlocked agree outside =>
      obtain ⟨n, pc', hn, hpc', hdone⟩ := finish_turns (L := L) unlocked hi hpc
      have hseven := pc.left_le
      refine ⟨List.replicate n i, by rw [List.length_replicate]; omega, ?_, turns_run c _,
        hreturn _ ⟨pc', hpc', hdone⟩⟩
      intro j hj
      exact Or.inl (List.eq_of_mem_replicate hj)
    | @taken k pck locked inside done outside =>
      -- first the holder, then the caller
      have hki : i ≠ k := by
        rintro rfl
        rw [inside] at hi
        cases hi
        rw [done.holdsLock] at hpc
        cases hpc
      obtain ⟨m, pc₁, hm, -, -, hlock⟩ := release_turns (L := L) inside done.holdsLock
      have hi' : (c.turns L (List.replicate m k)).pc i = some pc := by
        rw [turns_others _ c (fun hmem => hki (List.eq_of_mem_replicate hmem)), hi]
      obtain ⟨n, pc₂, hn, hpc₂, hdone⟩ := finish_turns (L := L) hlock hi' hpc
      rw [← turns_append] at hpc₂
      have hsix := AllocPc.left_le_six done.holdsLock
      have hseven := pc.left_le
      refine ⟨List.replicate m k ++ List.replicate n i, ?_, ?_, turns_run c _,
        hreturn _ ⟨pc₂, hpc₂, hdone⟩⟩
      · rw [List.length_append, List.length_replicate, List.length_replicate]
        omega
      · intro j hj
        rcases List.mem_append.mp hj with hj | hj
        · rw [List.eq_of_mem_replicate hj]
          exact Or.inr ⟨pck, inside, done.holdsLock⟩
        · exact Or.inl (List.eq_of_mem_replicate hj)

/-! ### Two harts -/

/-- Two harts at boot. -/
def twoHarts : Smp AllocPc Bool :=
  ⟨⟨false, ⟨fun _ => 0, 0, 0, [], [], []⟩⟩, fun _ => none, fun _ => ∅⟩

/-- Both call `allocate_page()` and then make their accesses in the given order. -/
def twoCallers (order : List Bool) : Smp AllocPc Bool :=
  ((twoHarts.setPc false (some .allocateLock)).setPc true (some .allocateLock)).turns
    sampleLayout order

/-- Both callers can be inside at once, -/
theorem twoCallers_reaches (order : List Bool) :
    (lockedAllocator sampleLayout Bool).Reaches [.callAllocate false, .callAllocate true]
      (twoCallers order) := by
  have hstart : (lockedAllocator sampleLayout Bool).start twoHarts :=
    ⟨rfl, rfl, rfl, fun _ => rfl, fun _ => rfl⟩
  have hfirst : (lockedAllocator sampleLayout Bool).step twoHarts (some (.callAllocate false))
      (twoHarts.setPc false (some .allocateLock)) := AllocatorCode.Step.callAllocate rfl
  have hsecond : (lockedAllocator sampleLayout Bool).step
      (twoHarts.setPc false (some .allocateLock)) (some (.callAllocate true))
      ((twoHarts.setPc false (some .allocateLock)).setPc true (some .allocateLock)) :=
    AllocatorCode.Step.callAllocate rfl
  exact System.Reaches.run ⟨twoHarts, hstart, (System.Run.single hfirst).step hsecond⟩
    (turns_run _ order)

/-- The second caller waits while the first one holds the lock, and both get a page. -/
def twoReturning : Smp AllocPc Bool :=
  twoCallers [false, true, false, false, true, false, false, false, false,
    true, true, true, true, true, true, true]

/-- and both can return, with different pages. -/
theorem twoReturning_reaches : ∃ c : Smp AllocPc Bool,
    (lockedAllocator sampleLayout Bool).Reaches
      [.callAllocate false, .callAllocate true,
        .returnAllocate true (sampleLayout.poolPage 1),
        .returnAllocate false (sampleLayout.poolPage 0)] c := by
  have hreturn : ∀ (c : Smp AllocPc Bool) (i : Bool) (result : Nat),
      c.pc i = some (.allocateReturn result) →
      (lockedAllocator sampleLayout Bool).step c (some (.returnAllocate i result))
        ((c.setPc i none).setHeld i (receive (c.held i) result)) := by
    intro c i result hi
    exact AllocatorCode.Step.returnAllocate hi
  have hfirst := hreturn twoReturning true (sampleLayout.poolPage 1) rfl
  have hsecond := hreturn ((twoReturning.setPc true none).setHeld true
    (receive (twoReturning.held true) (sampleLayout.poolPage 1))) false (sampleLayout.poolPage 0)
    rfl
  exact ⟨_, (twoCallers_reaches _).run ((System.Run.single hfirst).step hsecond)⟩

/-- Two callers of the code get what two callers of the specification get. -/
theorem lockedAllocator_refines_two : ∃ c a,
    (lockedAllocator sampleLayout Bool).Reaches
      [.callAllocate false, .callAllocate true,
        .returnAllocate true (sampleLayout.poolPage 1),
        .returnAllocate false (sampleLayout.poolPage 0)] c ∧
    (atomicAllocator sampleLayout Bool).Reaches
      [.callAllocate false, .callAllocate true,
        .returnAllocate true (sampleLayout.poolPage 1),
        .returnAllocate false (sampleLayout.poolPage 0)] a ∧ a.held = c.held := by
  obtain ⟨c, hreach⟩ := twoReturning_reaches
  obtain ⟨a, hspec, hheld, -⟩ := lockedAllocator_refines hreach
  exact ⟨c, a, hreach, hspec, hheld⟩

/-- The page of the first caller is its own. -/
theorem lockedAllocator_safe_two :
    sampleLayout.poolPage 0 ∈ sampleLayout.pool ∧
      ∀ j, sampleLayout.poolPage 0 ∉ twoReturning.held j :=
  (lockedAllocator_safe (twoCallers_reaches _)).2.2.1 false _
    (show twoReturning.pc false = _ from rfl) (by decide)

/-- A hart that waits while another one holds the lock can still get its page. -/
theorem lockedAllocator_progress_waiting : ∃ order : List Bool, order.length ≤ 13 ∧
    ((∃ result, ((twoCallers [false, true]).turns sampleLayout order).pc true =
        some (.allocateReturn result)) ∨
      ((twoCallers [false, true]).turns sampleLayout order).pc true = some .deallocateReturn) := by
  obtain ⟨order, hlength, -, -, hreturn⟩ :=
    lockedAllocator_progress (i := true) (twoCallers_reaches [false, true]) rfl
  exact ⟨order, hlength, hreturn⟩

end RiscvHypervisor
