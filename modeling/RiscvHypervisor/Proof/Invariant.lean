import RiscvHypervisor.Model.System
import RiscvHypervisor.Proof.PageFault

namespace RiscvHypervisor

open RadixForest Except ByteMem

/-!
# The invariant of the system

`Inv` is what holds whenever the guest runs.  It is kept by every step: the hypervisor's
(`exception_spec`), the MMU's, and the guest's own, whose stores cannot reach the image because of
the very invariant (`guestAccess_ge`).  Hence it holds in every reachable state
(`Reachable.inv`).
-/

variable {L : Layout} {s s' : State}

/-- **The invariant** of the states in which the guest runs. -/
structure Inv (L : Layout) (s : State) : Prop where
  core : Core L s
  settled : Settled s.guest
  target : Target s

/-! ### The dispatch on the cause -/

/-- Access faults keep the invariant, and none of them ends in an excluded panic. -/
theorem handleAccessFault_spec (h : Core L s) (hset : Settled s.guest) (stale : Nat → Nat)
    (acc : MempermIndex) :
    (handleAccessFault L stale acc s).Post (fun e => ¬ e.Excluded)
      (fun s' => Core L s' ∧ Settled s'.guest) := by
  unfold handleAccessFault
  refine (handlePageFault_spec h stale acc).bind ?_
  rintro ⟨res, va, s'⟩ ⟨-, gm, heff, -⟩
  cases res with
  | success => exact post_ok.mpr ⟨heff.core, heff.settled hset⟩
  | notChanged => simp [Panic.Excluded]
  | tooLow => simp [Panic.Excluded]
  | tooHigh => simp [Panic.Excluded]

/-- The only excluded panic a handler can end in is that of an `ecall` from machine mode. -/
def EcallPanic (mcause : Word) (e : Panic) : Prop := e.Excluded → mcause = 8 ∧ e = .gmException

/-- Exceptions keep it as well; the only panic the invariant leaves open is an ecall's. -/
theorem handleGuestException_spec (h : Core L s) (hset : Settled s.guest) (stale : Nat → Nat)
    (mcause : Word) :
    (handleGuestException L stale mcause s).Post (EcallPanic mcause)
      (fun s' => Core L s' ∧ Settled s'.guest) := by
  have hfault : ∀ {s : State} (acc : MempermIndex), Core L s → Settled s.guest →
      (handleAccessFault L stale acc s).Post (EcallPanic mcause)
        (fun s' => Core L s' ∧ Settled s'.guest) :=
    fun acc h hset => (handleAccessFault_spec h hset stale acc).mono
      (fun _ he hc => absurd hc he) (fun _ hs => hs)
  unfold handleGuestException
  split
  · exact (handleIllegalInstruction_spec h hset).mono (fun _ he hc => absurd hc he) (fun _ hs => hs)
  split
  · rename_i hecall
    subst hecall
    by_cases hu : s.guest.userMode = true
    · obtain ⟨s', heq, ht⟩ := guestException_spec (L := L) 8 hu
      rw [heq]
      refine post_ok.mpr (ht.core h ?_)
      rw [timerTraps_cons, if_neg (by decide)]
      exact h.priv.count
    · -- the `ecall` of machine mode: `guest_exception` panics
      unfold guestException
      rw [if_pos (by simpa using hu)]
      exact post_error.mpr (fun _ => ⟨rfl, rfl⟩)
  split
  · exact hfault _ h hset
  split
  · exact hfault _ (h.print _) hset
  split
  · exact hfault _ (h.print _) hset
  · exact post_error.mpr (fun hc => by simp [Panic.Excluded] at hc)

/-- Interrupts keep it and never panic. -/
theorem handleInterrupt_spec (h : Core L s) (hset : Settled s.guest) (htgt : Target s)
    (mcause : Word) :
    ∃ s', handleInterrupt L mcause s = .ok s' ∧ Core L s' ∧ Settled s'.guest := by
  unfold handleInterrupt
  split
  · obtain ⟨s', heq, hcore, hset', -⟩ := timerOnInterrupt_spec h hset htgt
    exact ⟨s', heq, hcore, hset'⟩
  · exact ⟨s, rfl, h, hset⟩

/-- So does the whole of `handle_trap` after the clock has been read. -/
theorem dispatch_spec (h : Core L s) (hset : Settled s.guest) (htgt : Target s)
    (stale : Nat → Nat) :
    (dispatch L stale s).Post (EcallPanic s.hart.mcause)
      (fun s' => Core L s' ∧ Settled s'.guest) := by
  unfold dispatch
  dsimp only
  split
  · obtain ⟨s', heq, hs'⟩ := handleInterrupt_spec h hset htgt s.hart.mcause
    rw [heq]
    exact post_ok.mpr hs'
  split
  · exact post_error.mpr (fun hc => by simp [Panic.Excluded] at hc)
  · exact handleGuestException_spec h hset stale _

/-! ### The timer around the dispatch -/

/-- With one guest of one virtual hart, the loops of `timer_reschedule` have one turn. -/
theorem timerReschedule_eq (s : State) :
    timerReschedule MAX_GUESTS MAX_VIRT_HARTS s =
      rescheduleThread (timerInterruptAt (s.clint.mtime + milliseconds 200)
        { s with interruptTarget := ⟨-1, -1⟩ }) 0 0 := rfl

/-- A turn changes nothing, or arms the comparator for a thread whose timer is scheduled. -/
theorem rescheduleThread_cases (s : State) (i j : Int) :
    rescheduleThread s i j = s ∨
    (s.guestThreads i j).timerScheduled = true ∧
      rescheduleThread s i j =
        { timerInterruptAt ((s.guestThreads i j).timerDeadline +
          (s.guestThreads i j).timerAdjustment) s
          with interruptTarget := ⟨i, j⟩ } := by
  unfold rescheduleThread timerInterruptSooner
  dsimp only
  split
  · rename_i hsch
    split
    · exact Or.inr ⟨hsch, rfl⟩
    · exact Or.inl rfl
  · exact Or.inl rfl

/-- **Reschedule.**  The new interrupt target has its timer armed, at its own deadline. -/
theorem timerReschedule_spec (h : Core L s) (hset : Settled s.guest) :
    Inv L (timerReschedule MAX_GUESTS MAX_VIRT_HARTS s) := by
  have hguest := h.guestThreads_zero
  rw [timerReschedule_eq]
  rcases rescheduleThread_cases (timerInterruptAt (s.clint.mtime + milliseconds 200)
    { s with interruptTarget := ⟨-1, -1⟩ }) 0 0 with heq | ⟨hsch, heq⟩
  · rw [heq]
    have hno : ¬ (0 : Int) ≤ -1 := by decide
    exact ⟨h.congr rfl rfl (SameMem.refl _) rfl rfl, hset,
      ⟨fun hc => absurd hc hno, fun hc => absurd hc hno⟩⟩
  · rw [heq]
    refine ⟨h.congr rfl rfl (SameMem.refl _) rfl rfl, hset, ⟨fun _ => ⟨rfl, ?_⟩, fun _ => ?_⟩⟩
    · show s.guest.timerScheduled = true
      rw [← hguest]
      exact hsch
    · show (s.guestThreads 0 0).timerDeadline + (s.guestThreads 0 0).timerAdjustment =
        s.guest.timerDeadline + s.guest.timerAdjustment
      rw [hguest]

/-- The fields of the virtual clock are not part of the invariant. -/
theorem Core.setClock (h : Core L s) (at' adj : Word) :
    Core L (s.setGuest { s.guest with timerSuspendedAt := at', timerAdjustment := adj }) := by
  refine ⟨h.current, ?_, ?_⟩
  · simpa using h.mem
  · rw [State.guest_setGuest]
    exact ⟨h.priv.satp_eq, h.priv.active, h.priv.mdt, h.priv.cause, h.priv.count⟩

/-- The state in which `exception` dispatches. -/
def suspended (L : Layout) (reads : MtimeReads) (s : State) : State :=
  (timerSuspendVirtual (State.setMtime
    { s with host := { s.host with exceptionHandlerStack := L.hypstackNested + 4096 } }
    reads.suspend)).setMtime reads.handle

/-- Suspending the timer writes one field of the guest's context, -/
theorem guest_suspended (reads : MtimeReads) (s : State) :
    (suspended L reads s).guest = { s.guest with timerSuspendedAt := reads.suspend } := by
  unfold suspended timerSuspendVirtual
  rw [State.guest_setMtime, State.guest_setGuest, State.guest_setMtime]
  rfl

/-- which the invariant does not look at. -/
theorem Inv.suspended (h : Inv L s) (reads : MtimeReads) : Inv L (suspended L reads s) := by
  refine ⟨?_, ?_, ?_⟩
  · exact (h.core.setClock reads.suspend s.guest.timerAdjustment).congr rfl
      (by rw [guest_suspended, State.guest_setGuest]) (SameMem.refl _) rfl rfl
  · rw [guest_suspended]
    exact h.settled
  · refine ⟨?_, ?_⟩
    · rw [guest_suspended]
      exact h.target.scheduled
    · rw [guest_suspended]
      exact h.target.deadline

/-- **Traps.**  `exception` keeps the invariant; the one excluded panic it can end in is that of an
    `ecall` from machine mode. -/
theorem exception_spec (h : Inv L s) (stale : Nat → Nat) (reads : MtimeReads) :
    (exception L stale reads s).Post (EcallPanic s.hart.mcause) (Inv L) := by
  have hs := h.suspended reads
  unfold exception
  refine (dispatch_spec hs.core hs.settled hs.target stale).bind ?_
  rintro s₁ ⟨hcore, hset⟩
  have hresume : Core L (timerResumeVirtual (s₁.setMtime reads.resume)) :=
    (hcore.setClock s₁.guest.timerSuspendedAt _).congr rfl (by
      unfold timerResumeVirtual
      rw [State.guest_setGuest, State.guest_setGuest]
      rfl) (SameMem.refl _) rfl rfl
  have hresched := timerReschedule_spec
    (s := (timerResumeVirtual (s₁.setMtime reads.resume)).setMtime
    reads.reschedule) (hresume.congr rfl rfl (SameMem.refl _) rfl rfl) (by
      show Settled (timerResumeVirtual (s₁.setMtime reads.resume)).guest
      unfold timerResumeVirtual
      rw [State.guest_setGuest]
      exact hset)
  exact post_ok.mpr ⟨hresched.core.congr rfl rfl (SameMem.refl _) rfl rfl, hresched.settled,
    ⟨hresched.target.scheduled, hresched.target.deadline⟩⟩

/-! ### The installed table -/

/-- The `satp` of a root: mode Sv39, and its page number. -/
theorem makeSatp_toNat {r : Nat} (hr : r < 2 ^ 56) : (makeSatp r).toNat = 2 ^ 63 + r / 4096 := by
  have hlt : r / 4096 < 2 ^ 63 := by omega
  unfold makeSatp
  rw [BitVec.toNat_or, BitVec.toNat_ushiftRight, BitVec.toNat_ofNat, Nat.mod_eq_of_lt (by omega),
    Nat.shiftRight_eq_div_pow]
  show 1 <<< 63 ||| r / 4096 = _
  rw [← Nat.shiftLeft_add_eq_or_of_lt hlt]
  rfl

/-- The fields of `satp` that the MMU looks at. -/
theorem makeSatp_fields {r : Nat} (hr : r < 2 ^ 56) (hal : r % 4096 = 0) :
    makeSatp r >>> 60 = 8 ∧ ((makeSatp r).extractLsb' 0 44).toNat * 4096 = r := by
  constructor
  · apply BitVec.eq_of_toNat_eq
    rw [BitVec.toNat_ushiftRight, makeSatp_toNat hr, Nat.shiftRight_eq_div_pow]
    show _ = 8
    omega
  · rw [BitVec.extractLsb'_toNat, makeSatp_toNat hr, Nat.shiftRight_zero]
    omega

/-- Both roots are tables. -/
theorem VmInv.activeRoot_own {own : Owner Tree} {free : List Nat} {D : Set Nat}
    (hvm : VmInv L s.guest.shadowPageTable s.store own free D) (h : Core L s) :
    own (activeRoot L s.guest) ≠ none := by
  unfold activeRoot
  split
  · rename_i hact
    rw [hvm.shadow_of_ne_zero (h.priv.active hact).2]
    simp
  · rw [hvm.machine]
    simp

/-- The table the guest runs on, as the invariant names it. -/
theorem Core.activePt_eq (h : Core L s) :
    activePt L s s.host.currentGuest = activeRoot L s.guest := by
  unfold activePt activeRoot
  rw [h.current, h.guestThreads_zero]

/-- A leaf of the MMU is a leaf of the table that belongs to the guest's mode. -/
theorem Core.mmuLeaf_walk (h : Core L s) {va : Word} {l : Sv39.Leaf} (hl : mmuLeaf s va = some l) :
    Sv39.walk s.store.load64 va.toNat 2 (activeRoot L s.guest) = some l := by
  obtain ⟨own, free, hvm⟩ := h.mem.vm
  have hb := hvm.table_bounds (hvm.activeRoot_own h)
  have hr : activeRoot L s.guest < 2 ^ 56 := by
    simp only [GUEST_BASE, RAM_START, GUEST_MEMORY_OFFSET] at hb
    omega
  unfold mmuLeaf at hl
  rw [h.priv.satp_eq, (makeSatp_fields hr hb.1).2] at hl
  split at hl
  · exact (Option.filter_eq_some_iff.mp hl).1
  · cases hl

/-- Mode Bare is never installed. -/
theorem Core.satp_mode (h : Core L s) : s.hart.satp >>> 60 = 8 := by
  obtain ⟨own, free, hvm⟩ := h.mem.vm
  have hb := hvm.table_bounds (hvm.activeRoot_own h)
  rw [h.priv.satp_eq]
  refine (makeSatp_fields ?_ hb.1).1
  simp only [GUEST_BASE, RAM_START, GUEST_MEMORY_OFFSET] at hb
  omega

/-! ### Leaves map guest memory -/

section

variable {root : Nat} {st : Store} {own : Owner Tree} {free : List Nat}

/-- A region of the machine table lies in the memory of the guest. -/
theorem machineBase_ge {key : Nat} (hram : RAM_START ≤ key * 2 ^ 21) :
    GUEST_BASE ≤ (key * 2 ^ 21 + GUEST_MEMORY_OFFSET) / 4096 * 4096 := by
  simp only [GUEST_BASE, RAM_START, GUEST_MEMORY_OFFSET] at hram ⊢
  omega

/-- **Leaves.**  What a tree holds maps memory of the guest. -/
theorem Maps.base_ge (hvm : VmInv L root st own free ∅) {x : Tree} {key e : Nat}
    (hkey : x = .machine → key < 2 ^ 18) (hm : Maps st own x key e) :
    GUEST_BASE ≤ Sv39.ppn e * 4096 := by
  have hleaf := Maps.leafOk hvm hm
  cases x with
  | machine =>
    obtain ⟨hram, hpage, -⟩ : MachineLeaf key e := hleaf
    have hlt : (key * 2 ^ 21 + GUEST_MEMORY_OFFSET) / 4096 < 2 ^ 44 := by
      have hlt := hkey rfl
      simp only [GUEST_MEMORY_OFFSET]
      omega
    show _ ≤ e / 1024 % 2 ^ 44 * 4096
    rw [hpage, Nat.mod_eq_of_lt hlt]
    exact machineBase_ge hram
  | shadow =>
    obtain ⟨hguest, hfits, -⟩ : ShadowLeaf e := hleaf
    have hlt : e / 1024 < 2 ^ 44 := by omega
    show _ ≤ e / 1024 % 2 ^ 44 * 4096
    rw [Nat.mod_eq_of_lt hlt]
    exact hguest

/-- There are `2 ^ 18` regions. -/
theorem regionOf_lt (va : Nat) : regionOf va < 2 ^ 18 := Nat.mod_lt _ (by decide)

/-- Every leaf the MMU can find from the machine root maps memory of the guest. -/
theorem walk_machine_base_ge (hvm : VmInv L root st own free ∅) {va : Nat} {l : Sv39.Leaf}
    (hl : Sv39.walk st.load64 va 2 (L.machineRoot 0) = some l) : GUEST_BASE ≤ l.base := by
  rw [walk_machine hvm] at hl
  exact Maps.base_ge hvm (fun _ => regionOf_lt va) hl.2.1

/-- Every leaf the MMU can find from the shadow root maps memory of the guest. -/
theorem walk_shadow_base_ge (hvm : VmInv L root st own free ∅) (hroot : root ≠ 0) {va : Nat}
    {l : Sv39.Leaf} (hl : Sv39.walk st.load64 va 2 root = some l) : GUEST_BASE ≤ l.base := by
  rw [walk_shadow hvm hroot] at hl
  exact Maps.base_ge hvm (fun hx => by cases hx) hl.2.1

end

/-- **The guest reaches its own memory only.** -/
theorem Core.guestAccess_ge (h : Core L s) {bit pa : Nat} {va : Word}
    (ha : guestAccess s bit va = some pa) : GUEST_BASE ≤ pa := by
  obtain ⟨own, free, hvm⟩ := h.mem.vm
  unfold guestAccess at ha
  rw [if_neg (by rw [h.satp_mode]; decide)] at ha
  cases hl : mmuLeaf s va with
  | none =>
    rw [hl] at ha
    cases ha
  | some l =>
    rw [hl] at ha
    dsimp only at ha
    split at ha
    · have hw := h.mmuLeaf_walk hl
      have hbase : GUEST_BASE ≤ l.base := by
        unfold activeRoot at hw
        split at hw
        · rename_i hact
          exact walk_shadow_base_ge hvm (h.priv.active hact).2 hw
        · exact walk_machine_base_ge hvm hw
      cases ha
      exact le_trans hbase (Nat.le_add_right _ _)
    · cases ha

/-! ### Boot -/

/-- The places at boot: the machine root is the only table. -/
def bootOwner (L : Layout) : Owner Tree :=
  fun t => if t = L.machineRoot 0 then some ⟨.machine, 1, 0⟩ else none

/-- After boot, the root of the machine table is the only table. -/
theorem bootOwner_eq_some {t : Nat} {sl : Slot Tree} (h : bootOwner L t = some sl) :
    t = L.machineRoot 0 ∧ sl = ⟨.machine, 1, 0⟩ := by
  unfold bootOwner at h
  split at h
  · rename_i ht
    cases h
    exact ⟨ht, rfl⟩
  · cases h

/-- Switched-on memory satisfies the invariant of the tables: no page is taken, no entry set. -/
theorem PowerOn.vmInv (on : PowerOn L s) : VmInv L 0 s.store (bootOwner L) [] ∅ := by
  have hroot : bootOwner L (L.machineRoot 0) = some ⟨.machine, 1, 0⟩ := if_pos rfl
  have hzero : ∀ i, i < 512 → s.store.entry (L.machineRoot 0) i = 0 := by
    intro i hi
    refine load_eq_zero (fun a hlo hhi => on.roots a ?_ ?_)
    · simp only [Layout.machineRoot, Int.toNat_zero, Nat.mul_zero, Nat.add_zero] at hlo
      omega
    · simp only [Layout.machineRoot, Int.toNat_zero, Nat.mul_zero, Nat.add_zero] at hhi
      simp only [MAX_GUESTS, PGSIZE]
      omega
  -- the one table is a root, has no entries and is not in the pool
  refine ⟨⟨?_, ?_, ?_, ?_, ?_, ?_⟩, ⟨?_, ?_, ?_, ?_, ?_, ?_, ?_⟩, hroot, Or.inr ⟨rfl, ?_⟩⟩
  · intro t x h k i ht hi
    obtain ⟨rfl, -⟩ := bootOwner_eq_some ht
    exact Or.inl (hzero i hi)
  · intro t x k i ht
    obtain ⟨-, hsl⟩ := bootOwner_eq_some ht
    cases hsl
  · intro c x h k hc hlt
    obtain ⟨-, hsl⟩ := bootOwner_eq_some hc
    cases hsl
    exact absurd hlt (by decide)
  · intro c c' sl hc hc'
    rw [(bootOwner_eq_some hc).1, (bootOwner_eq_some hc').1]
  · intro t x h k ht
    obtain ⟨-, hsl⟩ := bootOwner_eq_some ht
    cases hsl
    decide
  · intro t x h k ht
    obtain ⟨-, hsl⟩ := bootOwner_eq_some ht
    cases hsl
    decide
  · exact on.freeListTop
  · exact List.nodup_nil
  · rw [on.nextUnallocatedIdx]
    exact Nat.zero_le _
  · simp
  · rintro p ⟨hne, hp⟩
    exact absurd (if_neg hp) hne
  · simp
  · intro i hi
    rw [on.nextUnallocatedIdx] at hi
    exact absurd hi (Nat.not_lt_zero i)
  · intro t sl hsl
    rw [(bootOwner_eq_some hsl).2]

/-- Boot leaves the guest's context as the C initialiser has it. -/
theorem PowerOn.guest_bootMain (on : PowerOn L s) :
    (bootMain L s).guest = guestThreadContextInit := by
  show s.guestThreads s.host.currentGuest.machine s.host.currentGuest.thread = _
  rw [on.currentGuest]
  exact on.guestThreads

/-- The state in which the first guest instruction runs satisfies the invariant. -/
theorem bootMain_inv (on : PowerOn L s) : Inv L (bootMain L s) := by
  have hguest := on.guest_bootMain
  have hstore : (bootMain L s).store = s.store.vmemFence := rfl
  refine ⟨⟨on.currentGuest, ?_, ?_⟩, ?_, ?_⟩
  · rw [hguest, hstore]
    refine MemInv.same ⟨⟨_, _, on.vmInv⟩, ?_, fun _ => on.freed⟩ (SameMem.fence s.store)
    intro c hc
    rw [on.freed] at hc
    cases hc
  · rw [hguest, show (bootMain L s).trace = [] from on.trace]
    exact ⟨rfl, nofun, fun _ => rfl, nofun, Nat.zero_le _⟩
  · rw [hguest]
    exact fun hc => Bool.noConfusion hc.1
  · have hno : ¬ (0 : Int) ≤ (bootMain L s).interruptTarget.machine := by
      show ¬ 0 ≤ s.interruptTarget.machine
      rw [on.interruptTarget]
      decide
    exact ⟨fun hc => absurd hc hno, fun hc => absurd hc hno⟩

/-! ### The guest and the MMU -/

/-- What the guest does to its registers and its program counter is not in the invariant, -/
theorem Inv.guestRun (h : Inv L s) (regs : SavedRegisters) (pc : Word) :
    Inv L (s.guestRun regs pc) :=
  ⟨h.core.congr rfl rfl (SameMem.refl _) rfl rfl, h.settled,
    ⟨h.target.scheduled, h.target.deadline⟩⟩

/-- nor are the CSRs that the hardware sets on a trap, -/
theorem Inv.trapEntry (h : Inv L s) (mcause mtval : Word) : Inv L (s.trapEntry mcause mtval) :=
  ⟨h.core.congr rfl rfl (SameMem.refl _) rfl rfl, h.settled,
    ⟨h.target.scheduled, h.target.deadline⟩⟩

/-- nor is the receiver of the UART. -/
theorem Inv.receive (h : Inv L s) (byte : BitVec 8) : Inv L (s.receive byte) :=
  ⟨h.core.congr rfl rfl (SameMem.refl _) rfl rfl, h.settled,
    ⟨h.target.scheduled, h.target.deadline⟩⟩

/-- A change of the store that keeps the tables and the history. -/
theorem Inv.setStore (h : Inv L s) {st' : Store} {own' : Owner Tree} {free' : List Nat}
    (hvm : VmInv L s.guest.shadowPageTable st' own' free' ∅) (hfreed : st'.freed = s.store.freed) :
    Inv L { s with store := st' } := by
  refine ⟨⟨h.core.current, ⟨⟨own', free', hvm⟩, ?_, ?_⟩, h.core.priv⟩, h.settled,
    ⟨h.target.scheduled, h.target.deadline⟩⟩
  · intro c hc
    exact h.core.mem.freed c (hfreed ▸ hc)
  · intro h0
    exact hfreed.trans (h.core.mem.unfreed h0)

/-- A byte of the guest's memory is none of the tables' business. -/
theorem Inv.writeByte (h : Inv L s) {pa : Nat} (hpa : GUEST_BASE ≤ pa) (value : BitVec 8) :
    Inv L (s.writeByte pa value) := by
  obtain ⟨own, free, hvm⟩ := h.core.mem.vm
  have hmem : ∀ x, x < GUEST_BASE → Function.update s.store.mem pa value x = s.store.mem x := by
    intro x hx
    exact Function.update_of_ne (by omega) _ _
  have hvm' : VmInv L s.guest.shadowPageTable
      (s.store.setMem (Function.update s.store.mem pa value)) own free ∅ :=
    hvm.frame rfl rfl hmem
  exact h.setStore hvm' rfl

/-- Setting bits among the low ten other than the pointer keeps a good leaf good. -/
theorem leafOk_or {x : Tree} {key e m : Nat} (h : ptFormat.leafOk x key e) (hm : m < 1024) :
    ptFormat.leafOk x key (e ||| m) := by
  have hdiv : (e ||| m) / 1024 = e / 1024 := or_div_two_pow (n := 10) hm
  have hbit : ∀ {i}, e.testBit i = true → (e ||| m).testBit i = true := by
    intro i hi
    rw [Nat.testBit_or, hi, Bool.true_or]
  cases x with
  | machine =>
    have hl : MachineLeaf key e := h
    exact (⟨hl.ram, hdiv.trans hl.page, hbit hl.v, hbit hl.r, hbit hl.w, hbit hl.x, hbit hl.u⟩ :
      MachineLeaf key (e ||| m))
  | shadow =>
    have hl : ShadowLeaf e := h
    have hfits : e ||| m < 2 ^ 54 := Nat.or_lt_two_pow hl.fits (lt_trans hm (by decide))
    exact (⟨by rw [hdiv]; exact hl.guest, hfits, hbit hl.v, hbit hl.r, hbit hl.u⟩ :
      ShadowLeaf (e ||| m))

/-- The MMU marks a leaf where it found it. -/
theorem VmInv.mark {root : Nat} {st : Store} {own : Owner Tree} {free : List Nat}
    (hvm : VmInv L root st own free ∅) {x : Tree} {key m : Nat} {l : Sv39.Leaf}
    (hm : Maps st own x key l.pte)
    (hslot : ∃ t, own t = some ⟨x, 0, key / 512⟩ ∧ l.slot = t + 8 * (key % 512)) (hlt : m < 1024) :
    VmInv L root (st.store64 l.slot (l.pte ||| m)) own free ∅ := by
  obtain ⟨t, ht, hslot⟩ := hslot
  have hleaf := leafOk_or (Maps.leafOk hvm hm) hlt
  have hpte : l.pte < 2 ^ 64 := by
    obtain ⟨t', -, he, -⟩ := hm
    rw [← he]
    exact st.entry_lt _ _
  rw [hslot]
  refine hvm.setLeaf ht (Nat.mod_lt _ (by decide))
    (Nat.or_lt_two_pow hpte (lt_trans hlt (by decide)))
    (Or.inr ?_)
  rw [Nat.div_add_mod' key 512]
  exact hleaf

/-- The hardware sets A and D in a leaf, and no other bit. -/
theorem Inv.mmuMark (h : Inv L s) {va : Word} {l : Sv39.Leaf} (hl : mmuLeaf s va = some l)
    (dirty : Bool) : Inv L (s.mmuMark l dirty) := by
  obtain ⟨own, free, hvm⟩ := h.core.mem.vm
  have hw := h.core.mmuLeaf_walk hl
  have hmask : 1 <<< Sv39.bitA ||| (if dirty then 1 <<< Sv39.bitD else 0) < 1024 := by
    cases dirty <;> decide
  have hinv : VmInv L s.guest.shadowPageTable (s.store.store64 l.slot
      (l.pte ||| (1 <<< Sv39.bitA ||| (if dirty then 1 <<< Sv39.bitD else 0)))) own free ∅ := by
    unfold activeRoot at hw
    split at hw
    · rename_i hact
      rw [walk_shadow hvm (h.core.priv.active hact).2] at hw
      exact hvm.mark hw.2.1 hw.2.2 hmask
    · rw [walk_machine hvm] at hw
      exact hvm.mark hw.2.1 hw.2.2 hmask
  rw [← Nat.lor_assoc] at hinv
  exact h.setStore hinv rfl

/-! ### Every reachable state -/

/-- **Every step keeps the invariant.** -/
theorem Step.inv {ev : GuestEvent} (h : Inv L s) (hstep : Step L s ev s') : Inv L s' := by
  cases hstep with
  | run regs pc => exact h.guestRun regs pc
  | store value access guest => exact h.writeByte guest value
  | corrupt after access image =>
    -- the installed table does not let the guest write there
    exact absurd (h.core.guestAccess_ge access) (Nat.not_le.mpr image)
  | mmu dirty leaf => exact h.mmuMark leaf dirty
  | receive byte => exact h.receive byte
  | trap clock handled => exact (exception_spec (h.trapEntry _ _) _ _).ok handled

/-- **Every reachable state satisfies the invariant.** -/
theorem Reachable.inv (h : Reachable L s) : Inv L s := by
  induction h with
  | boot on => exact bootMain_inv on
  | step _ hstep ih => exact hstep.inv ih

/-- Arming the comparator does not touch the clock, -/
theorem timerInterruptAt_mtime (deadline : Word) (s : State) :
    (timerInterruptAt deadline s).clint.mtime = s.clint.mtime := rfl

/-- so rescheduling does not either. -/
theorem timerReschedule_mtime (s : State) :
    (timerReschedule MAX_GUESTS MAX_VIRT_HARTS s).clint.mtime = s.clint.mtime := by
  rw [timerReschedule_eq]
  rcases rescheduleThread_cases (timerInterruptAt (s.clint.mtime + milliseconds 200)
    { s with interruptTarget := ⟨-1, -1⟩ }) 0 0 with heq | ⟨-, heq⟩
  · rw [heq, timerInterruptAt_mtime]
  · rw [heq]
    dsimp only
    rw [timerInterruptAt_mtime, timerInterruptAt_mtime]

/-- The clock after a trap. -/
theorem exception_mtime {stale : Nat → Nat} {reads : MtimeReads}
    (h : exception L stale reads s = .ok s') : s'.clint.mtime = reads.reschedule := by
  unfold exception at h
  obtain ⟨s₁, -, h⟩ := bind_eq_ok.mp h
  cases h
  exact timerReschedule_mtime _

/-- The clock of a sample run does not run backwards. -/
theorem monotone_sampleReads {now : Word} {t : Nat} (hnow : now.toNat ≤ t) (ht : t < 2 ^ 63) :
    (sampleReads t).Monotone now := by
  have hle : ∀ m n, m ≤ n → n < 2 ^ 64 → BitVec.ofNat 64 m ≤ BitVec.ofNat 64 n := by
    intro m n hmn hn
    rw [BitVec.le_def, BitVec.toNat_ofNat, BitVec.toNat_ofNat, Nat.mod_eq_of_lt hn,
      Nat.mod_eq_of_lt (lt_of_le_of_lt hmn hn)]
    exact hmn
  refine ⟨?_, hle _ _ (by omega) (by omega), hle _ _ (by omega) (by omega),
    hle _ _ (by omega) (by omega)⟩
  show now ≤ BitVec.ofNat 64 t
  rw [BitVec.le_def, BitVec.toNat_ofNat, Nat.mod_eq_of_lt (by omega)]
  exact hnow

/-- The end of a sample run is reachable. -/
theorem Reachable.sampleRun {traps : List SampleTrap} {t : Nat} (h : Reachable sampleLayout s)
    (hnow : s.clint.mtime.toNat ≤ t) (hlen : t + 100 * traps.length < 2 ^ 63)
    (hrun : sampleRun t traps s = .ok s') : Reachable sampleLayout s' := by
  induction traps generalizing s t with
  | nil =>
    cases hrun
    exact h
  | cons trap rest ih =>
    obtain ⟨s₁, hs₁, hrest⟩ := bind_eq_ok.mp hrun
    simp only [List.length_cons] at hlen
    have hclock : (sampleReads t).Monotone (s.guestRun trap.regs trap.pc).clint.mtime :=
      monotone_sampleReads hnow (by omega)
    refine ih ((h.step (.run trap.regs trap.pc)).step (.trap hclock hs₁)) ?_ (by omega) hrest
    rw [exception_mtime hs₁]
    show (BitVec.ofNat 64 (t + 3)).toNat ≤ t + 100
    rw [BitVec.toNat_ofNat, Nat.mod_eq_of_lt (by omega)]
    omega

/-- A sample run from boot that shows `x` under `f` ends in a reachable state that does. -/
theorem exists_reachable {α : Type} (ram : Mem) (traps : List SampleTrap) (f : State → α) (x : α)
    (hlen : traps.length < 2 ^ 32)
    (hrun : (sampleRun 0 traps (bootMain sampleLayout (sampleMachine ram))).toOption.map f =
      some x) :
    ∃ s, Reachable sampleLayout s ∧ f s = x := by
  obtain ⟨s, hs, hfx⟩ := map_toOption_eq_some.mp hrun
  have hnow : (bootMain sampleLayout (sampleMachine ram)).clint.mtime.toNat ≤ 0 := Nat.le_refl 0
  exact ⟨s, (Reachable.boot (powerOn_sampleMachine ram)).sampleRun hnow (by omega) hs, hfx⟩

end RiscvHypervisor
