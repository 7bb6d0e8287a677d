import RiscvHypervisor.Model.Handlers
import RiscvHypervisor.Proof.Teardown

namespace RiscvHypervisor

open RadixForest Except

/-!
# The virtual privilege mode

The invariant that ties the guest's virtual mode to the host, in two independent parts:

* `MemInv` — the store with its tables, and the history of freed pages;
* `PrivInv` — the mode flags, the host's `satp`, the pending exception and the trace.

`Core` is both.  It holds throughout a handler; `Settled` says in addition that no deliverable
exception is pending, and holds whenever a handler returns.  One lemma for each function of
`guestprivilege.c` and for the timer interrupt.
-/

/-! ### The invariant -/

/-- The table a guest thread runs on. -/
def activeRoot (L : Layout) (g : GuestThreadContext) : Nat :=
  if g.shadowPtActive then g.shadowPageTable else L.machineRoot 0

/-- Number of timer traps the guest has seen. -/
def timerTraps (trace : List Observation) : Nat := trace.count (.guestTrap timerCause)

/-- Whether an observation is a store to `mtimecmp`. -/
def Observation.isStore : Observation → Bool
  | .guestTrap _     => false
  | .mtimecmpStore _ => true

/-- Number of stores the guest has made to its `mtimecmp`. -/
def mtimecmpStores (trace : List Observation) : Nat := trace.countP Observation.isStore

/-- The store, for a guest with shadow root `root`. -/
structure MemInv (L : Layout) (root : Nat) (st : Store) : Prop where
  vm : ∃ own free, VmInv L root st own free ∅
  freed : ∀ c ∈ st.freed, c.Sound L ∧ c.page ≠ root
  unfreed : root = 0 → st.freed = []

/-- The mode of a guest thread, with the host's `satp` and the trace. -/
structure PrivInv (L : Layout) (g : GuestThreadContext) (satp : Word) (trace : List Observation) :
    Prop where
  satp_eq : satp = makeSatp (activeRoot L g)
  active : g.shadowPtActive = true → g.userMode = true ∧ g.shadowPageTable ≠ 0
  mdt : g.userMode = false → g.csr.mstatusMdt = true
  cause : g.deferredException = true → g.deferredMcause = timerCause
  count : timerTraps trace + g.deferredException.toNat + g.timerScheduled.toNat ≤
    mtimecmpStores trace

/-- No deliverable exception is pending. -/
def Settled (g : GuestThreadContext) : Prop :=
  ¬ (g.deferredException = true ∧ g.csr.mstatusMie = true ∧ g.csr.mstatusMdt = false)

/-- What holds throughout a handler. -/
structure Core (L : Layout) (s : State) : Prop where
  current : s.host.currentGuest = ⟨0, 0⟩
  mem : MemInv L s.guest.shadowPageTable s.store
  priv : PrivInv L s.guest s.hart.satp s.trace

/-- Panics no run of the model ends in: the model's own bound, and two of the source. -/
def Panic.Excluded (e : Panic) : Prop :=
  e = .gmException ∨ e = .unmatchedLowerBits ∨ e = .recursionBound

variable {L : Layout} {s s' : State}

/-- What was printed, or is remembered of the memory, does not matter. -/
theorem MemInv.same {root : Nat} {st st' : Store} (h : MemInv L root st) (hs : SameMem st st') :
    MemInv L root st' where
  vm := by
    obtain ⟨own, free, hvm⟩ := h.vm
    exact ⟨own, free, hvm.same hs⟩
  freed := by
    rw [hs.freed]
    exact h.freed
  unfreed := by
    rw [hs.freed]
    exact h.unfreed

/-- `Core` depends on five parts of the state. -/
theorem Core.congr (h : Core L s) (hcur : s'.host.currentGuest = s.host.currentGuest)
    (hguest : s'.guest = s.guest) (hstore : SameMem s.store s'.store)
    (hsatp : s'.hart.satp = s.hart.satp) (htrace : s'.trace = s.trace) : Core L s' where
  current := by rw [hcur, h.current]
  mem := by
    rw [hguest]
    exact h.mem.same hstore
  priv := by rw [hguest, hsatp, htrace]; exact h.priv

/-- Printing keeps the invariant. -/
theorem Core.print (h : Core L s) (slc : List (BitVec 8)) : Core L (s.print slc) :=
  h.congr rfl rfl (SameMem.print slc s.store) rfl rfl

/-- The one guest thread there is. -/
theorem Core.guestThreads_zero (h : Core L s) : s.guestThreads 0 0 = s.guest := by
  unfold State.guest
  rw [h.current]

/-! ### Entering the guest's trap handler -/

/-- The context of a guest thread after a trap. -/
def GuestThreadContext.trap (g : GuestThreadContext) (mcause mepc mtval : Word) :
    GuestThreadContext :=
  { g with
    shadowPtActive := false
    userMode := false
    csr := { g.csr with mstatusMdt := true, mepc := mepc, mcause := mcause, mtval := mtval } }

/-- What `guest_exception` changes.  The guest goes on at `mtvec`, but for bit 0 of it. -/
structure Trapped (L : Layout) (mcause : Word) (s s' : State) : Prop where
  guest : s'.guest = s.guest.trap mcause s.hart.mepc s.hart.mtval
  mepc : s'.hart.mepc = legalMepc s.guest.csr.mtvec
  satp : s'.hart.satp =
    if s.guest.shadowPtActive then makeSatp (L.machineRoot s.host.currentGuest.machine)
    else s.hart.satp
  trace : s'.trace = .guestTrap mcause :: s.trace
  store : s'.store = if s.guest.shadowPtActive then s.store.vmemFence else s.store
  host : s'.host = s.host
  clint : s'.clint = s.clint
  interruptTarget : s'.interruptTarget = s.interruptTarget

theorem guestException_spec (mcause : Word) (hu : s.guest.userMode = true) :
    ∃ s', guestException L mcause s = .ok s' ∧ Trapped L mcause s s' := by
  unfold guestException
  rw [hu]
  by_cases ha : s.guest.shadowPtActive = true
  · simp only [Bool.not_true, Bool.false_eq_true, if_false, ha, if_true]
    refine ⟨_, rfl, ?_⟩
    constructor <;> simp [GuestThreadContext.trap, ha]
  · simp only [Bool.not_true, Bool.false_eq_true, if_false, ha]
    refine ⟨_, rfl, ?_⟩
    constructor <;> simp [GuestThreadContext.trap, ha]

/-- A trap leaves the memory alone. -/
theorem Trapped.sameMem {mcause : Word} (ht : Trapped L mcause s s') :
    SameMem s.store s'.store := by
  rw [ht.store]
  split
  · exact SameMem.fence s.store
  · exact SameMem.refl s.store

/-- Whether a trap counts as a timer trap. -/
theorem timerTraps_cons (mcause : Word) (trace : List Observation) :
    timerTraps (.guestTrap mcause :: trace) =
      timerTraps trace + if mcause = timerCause then 1 else 0 := by
  unfold timerTraps
  rw [List.count_cons]
  by_cases h : mcause = timerCause
  · simp [h]
  · simp [h]

theorem mtimecmpStores_cons_trap (mcause : Word) (trace : List Observation) :
    mtimecmpStores (.guestTrap mcause :: trace) = mtimecmpStores trace := by
  unfold mtimecmpStores
  rw [List.countP_cons_of_neg (by simp [Observation.isStore])]

/-- A trap keeps the invariant, if the count allows for it. -/
theorem Trapped.core {mcause : Word} (ht : Trapped L mcause s s') (h : Core L s)
    (hcount : timerTraps (.guestTrap mcause :: s.trace) + s.guest.deferredException.toNat +
      s.guest.timerScheduled.toNat ≤ mtimecmpStores s.trace) :
    Core L s' ∧ Settled s'.guest := by
  refine ⟨⟨?_, ?_, ?_⟩, ?_⟩
  · rw [ht.host, h.current]
  · rw [ht.guest]
    exact h.mem.same ht.sameMem
  · rw [ht.guest, ht.satp, ht.trace]
    refine ⟨?_, by simp [GuestThreadContext.trap], fun _ => rfl, h.priv.cause, ?_⟩
    · have hsatp := h.priv.satp_eq
      rw [h.current, hsatp]
      unfold activeRoot GuestThreadContext.trap
      split <;> rfl
    · rw [mtimecmpStores_cons_trap]
      exact hcount
  · rw [ht.guest]
    simp [Settled, GuestThreadContext.trap]

/-! ### Deferred exceptions -/

/-- **Delivery.**  `guest_check_deferred` never fails: it delivers only in user mode, and leaves
    nothing deliverable pending. -/
theorem guestCheckDeferred_spec (h : Core L s) :
    ∃ b s', guestCheckDeferred L s = .ok (b, s') ∧ Core L s' ∧ Settled s'.guest ∧
      (b = false ∧ s' = s ∨
        b = true ∧ s.guest.deferredException = true ∧ s.guest.userMode = true ∧
          Trapped L timerCause (s.setGuest { s.guest with deferredException := false }) s') := by
  unfold guestCheckDeferred
  by_cases hoff : (!s.guest.csr.mstatusMie || s.guest.csr.mstatusMdt) = true
  · rw [if_pos hoff]
    refine ⟨false, s, rfl, h, ?_, Or.inl ⟨rfl, rfl⟩⟩
    rintro ⟨-, hmie, hmdt⟩
    rw [hmie, hmdt] at hoff
    cases hoff
  · rw [if_neg hoff]
    by_cases hd : s.guest.deferredException = true
    · rw [if_pos hd]
      -- outside user mode the exception would be masked
      have hu : s.guest.userMode = true := by
        by_contra hu
        rw [h.priv.mdt (eq_false_of_ne_true hu)] at hoff
        simp at hoff
      obtain ⟨s', heq, ht⟩ := guestException_spec (L := L) (s := s.setGuest
        { s.guest with deferredException := false }) s.guest.deferredMcause (by simpa using hu)
      rw [h.priv.cause hd] at ht
      have hcount := h.priv.count
      have h₁ : Core L (s.setGuest { s.guest with deferredException := false }) := by
        refine ⟨h.current, ?_, ?_⟩
        · simpa using h.mem
        · rw [State.guest_setGuest]
          refine ⟨h.priv.satp_eq, h.priv.active, h.priv.mdt, by simp, ?_⟩
          simp only [State.trace_setGuest, Bool.toNat_false]
          omega
      obtain ⟨hcore, hset⟩ := ht.core h₁ (by
        simp only [State.trace_setGuest, State.guest_setGuest, timerTraps_cons, if_true,
          Bool.toNat_false]
        rw [hd, Bool.toNat_true] at hcount
        omega)
      refine ⟨true, s', ?_, hcore, hset, Or.inr ⟨rfl, hd, hu, ht⟩⟩
      simp only [State.guest_setGuest]
      rw [heq]
      rfl
    · rw [if_neg hd]
      exact ⟨false, s, rfl, h, fun hc => hd hc.1, Or.inl ⟨rfl, rfl⟩⟩

/-- The timer exception is delivered or stays pending, if the count allows for it. -/
theorem guestDeferException_spec (h : Core L s) (hset : Settled s.guest)
    (hcount : timerTraps s.trace + s.guest.deferredException.toNat +
      s.guest.timerScheduled.toNat + 1 ≤ mtimecmpStores s.trace) :
    ∃ s', guestDeferException L timerCause s = .ok s' ∧ Core L s' ∧ Settled s'.guest ∧
      (s'.guest.deferredException = true ∨ s'.trace = .guestTrap timerCause :: s.trace) := by
  unfold guestDeferException
  by_cases hd : s.guest.deferredException = true
  · rw [if_pos hd]
    exact ⟨s, rfl, h, hset, Or.inl hd⟩
  · rw [if_neg hd]
    -- raising the pending bit uses up the room that `hcount` leaves
    have h₁ : Core L (s.setGuest
        { s.guest with deferredException := true, deferredMcause := timerCause }) := by
      refine ⟨h.current, ?_, ?_⟩
      · simpa using h.mem
      · rw [State.guest_setGuest]
        refine ⟨h.priv.satp_eq, h.priv.active, h.priv.mdt, fun _ => rfl, ?_⟩
        simp only [State.trace_setGuest, Bool.toNat_true]
        rw [eq_false_of_ne_true hd, Bool.toNat_false] at hcount
        omega
    obtain ⟨b, s', heq, hcore, hset', hcase⟩ := guestCheckDeferred_spec h₁
    refine ⟨s', by simp only; rw [heq]; rfl, hcore, hset', ?_⟩
    rcases hcase with ⟨-, rfl⟩ | ⟨-, -, -, ht⟩
    · left
      rw [State.guest_setGuest]
    · right
      rw [ht.trace]
      rfl

/-! ### The timer interrupt -/

/-- What `interrupt_target` promises about the guest it names. -/
structure Target (s : State) : Prop where
  scheduled : 0 ≤ s.interruptTarget.machine →
    s.interruptTarget = ⟨0, 0⟩ ∧ s.guest.timerScheduled = true
  deadline : 0 ≤ s.interruptTarget.machine →
    s.clint.mtimecmp = s.guest.timerDeadline + s.guest.timerAdjustment

/-- **The timer interrupt** never fails; one meant for the guest is delivered or stays pending. -/
theorem timerOnInterrupt_spec (h : Core L s) (hset : Settled s.guest) (htgt : Target s) :
    ∃ s', timerOnInterrupt L s = .ok s' ∧ Core L s' ∧ Settled s'.guest ∧
      (0 ≤ s.interruptTarget.machine →
        s'.guest.deferredException = true ∨ s'.trace = .guestTrap timerCause :: s.trace) := by
  unfold timerOnInterrupt
  by_cases hneg : s.interruptTarget.machine < 0
  · rw [if_pos hneg]
    exact ⟨s, rfl, h, hset, fun hge => absurd hneg (Int.not_lt.mpr hge)⟩
  · obtain ⟨heq, hsch⟩ := htgt.scheduled (Int.not_lt.mp hneg)
    have hcur : ¬ (s.host.currentGuest.machine ≠ s.interruptTarget.machine ∨
        s.host.currentGuest.thread ≠ s.interruptTarget.thread) := by
      rw [heq, h.current]
      simp
    rw [if_neg hneg, if_neg hcur]
    -- clearing `timer_scheduled` makes the room for the pending bit
    have hcount := h.priv.count
    rw [hsch, Bool.toNat_true] at hcount
    have h₁ : Core L (s.setGuest { s.guest with timerScheduled := false }) := by
      refine ⟨h.current, ?_, ?_⟩
      · simpa using h.mem
      · rw [State.guest_setGuest]
        refine ⟨h.priv.satp_eq, h.priv.active, h.priv.mdt, h.priv.cause, ?_⟩
        simp only [State.trace_setGuest, Bool.toNat_false]
        omega
    obtain ⟨s', hok, hcore, hset', hcase⟩ := guestDeferException_spec h₁
      (by rw [State.guest_setGuest]; exact hset)
      (by simp only [State.guest_setGuest, State.trace_setGuest, Bool.toNat_false]; omega)
    exact ⟨s', hok, hcore, hset', fun _ => hcase⟩

end RiscvHypervisor
