import RiscvHypervisor.Proof.Invariant

namespace RiscvHypervisor

open ByteMem Except

/-!
# Interrupts and the virtual timer

What the invariant says about the delivery of exceptions over whole runs: a deferred exception is
delivered in user mode only, a timer interrupt is delivered at most once for each store to
`mtimecmp` and never gets stuck, and it comes too early exactly when the deadline wraps around on
its way to host time.
-/

variable {L : Layout} {s : State}

/-! ### Delivery -/

/-- **Delivery.**  In every reachable state machine mode has `mstatus.MDT` set, and the only trap
    that ends in the panic "GM exception" is an `ecall`, whose handler calls `guest_exception`
    itself: a deferred exception is delivered in user mode only. -/
theorem deferred_delivered_in_user_mode (h : Reachable L s) :
    (s.guest.userMode = false → s.guest.csr.mstatusMdt = true) ∧
    ∀ mcause mtval reads stale,
      exception L stale reads (s.trapEntry mcause mtval) = .error .gmException → mcause = 8 := by
  refine ⟨h.inv.core.priv.mdt, ?_⟩
  intro mcause mtval reads stale hpanic
  have hspec := exception_spec (h.inv.trapEntry mcause mtval) stale reads
  exact (hspec.error hpanic (Or.inl rfl)).1

/-- A kernel of three instructions: `sd x5, 0(x6)`, `csrw mstatus, x7` and `mret`. -/
def sampleTimerKernel : Mem :=
  store (store (store (fun _ => 0) 0x85000000 4 0x00533023) 0x85000004 4 0x30039073)
    0x85000008 4 0x30200073

/-- Its registers: a deadline, the address of `mtimecmp`, and a value for `mstatus`. -/
def sampleTimerRegs (deadline mstatus : Word) : SavedRegisters :=
  Function.update (Function.update (Function.update (fun _ => 0) 4 deadline) 5 0x02004000) 6 mstatus

/-- Until its second deadline is set: the timer has expired once and the tick is pending, since
    `mstatus.MDT` is set from the start. -/
def sampleRearm : List SampleTrap :=
  [⟨sampleTimerRegs 20 0, 0x80000000, 12⟩, ⟨sampleTimerRegs 20 0, 0x80000000, 15⟩,
    ⟨sampleTimerRegs 20 0, 0x80000004, timerCause⟩, ⟨sampleTimerRegs 1000000 0, 0x80000000, 15⟩]

/-- The return of that kernel to user mode. -/
def sampleReturn (s : State) : Except Panic State :=
  exception sampleLayout (fun _ => 0) (sampleReads 500)
    ((s.guestRun (sampleTimerRegs 0 8) 0x80000008).trapEntry 2 0)

/-- A tick that is pending in machine mode is delivered by the return to user mode. -/
theorem deferred_delivered_on_mret :
    ∃ s s', Reachable sampleLayout s ∧ s.guest.userMode = false ∧
      s.guest.deferredException = true ∧ s.guest.csr.mstatusMdt = true ∧
      (∀ mtval reads stale,
        exception sampleLayout stale reads (s.trapEntry 2 mtval) ≠ .error .gmException) ∧
      exception sampleLayout (fun _ => 0) (sampleReads 500) (s.trapEntry 2 0) = .ok s' ∧
      s'.guest.deferredException = false ∧ s'.trace.head? = some (.guestTrap timerCause) := by
  obtain ⟨s, hreach, hs⟩ := exists_reachable sampleTimerKernel
    (sampleRearm ++ [⟨sampleTimerRegs 0 8, 0x80000004, 2⟩])
    (fun s => (s.guest.userMode, s.guest.deferredException, (sampleReturn s).toOption.map
      (fun s' => (s'.guest.deferredException, s'.trace.head?))))
    (false, true, some (false, some (.guestTrap timerCause))) (by decide) (by decide +kernel)
  simp only [Prod.mk.injEq] at hs
  obtain ⟨hmachine, hpending, hrun⟩ := hs
  obtain ⟨s', hs', hview⟩ := map_toOption_eq_some.mp hrun
  obtain ⟨hdelivered, htrace⟩ := Prod.mk.inj hview
  have hreach₁ := hreach.step (.run (sampleTimerRegs 0 8) 0x80000008)
  obtain ⟨hmdt, hpanic⟩ := deferred_delivered_in_user_mode hreach₁
  refine ⟨_, s', hreach₁, hmachine, hpending, hmdt hmachine, ?_, hs', hdelivered, htrace⟩
  intro mtval reads stale hgm
  exact absurd (hpanic 2 mtval reads stale hgm) (by decide)

/-! ### Timer interrupts -/

/-- A timer interrupt goes to `timer_on_interrupt`, in the state `suspended`. -/
theorem dispatch_timer (stale : Nat → Nat) (reads : MtimeReads) (mtval : Word) (s : State) :
    dispatch L stale (suspended L reads (s.trapEntry timerCause mtval)) =
      timerOnInterrupt L (suspended L reads (s.trapEntry timerCause mtval)) := by
  have hcause : (suspended L reads (s.trapEntry timerCause mtval)).hart.mcause = timerCause := rfl
  unfold dispatch handleInterrupt
  rw [hcause, if_pos (by decide), if_pos (by decide)]

/-- **No duplicates, none stuck.**  In every reachable state
    (a) the timer traps seen by the guest, with the pending exception and the armed timer, are at
    most the stores to `mtimecmp`;
    (b) a timer interrupt meant for the guest finds its timer armed, and the trap is delivered or
    pending afterwards;
    (c) no exception is pending that could be delivered. -/
theorem timer_interrupts_exact (h : Reachable L s) :
    timerTraps s.trace + s.guest.deferredException.toNat + s.guest.timerScheduled.toNat ≤
      mtimecmpStores s.trace ∧
    (∀ mtval reads stale, 0 ≤ s.interruptTarget.machine →
      let s₁ := suspended L reads (s.trapEntry timerCause mtval)
      s₁.guest.timerScheduled = true ∧
        ∃ s₂, dispatch L stale s₁ = .ok s₂ ∧
          (s₂.guest.deferredException = true ∨ s₂.trace = .guestTrap timerCause :: s₁.trace)) ∧
    ¬ (s.guest.deferredException = true ∧ s.guest.csr.mstatusMie = true ∧
      s.guest.csr.mstatusMdt = false) := by
  refine ⟨h.inv.core.priv.count, ?_, h.inv.settled⟩
  intro mtval reads stale htgt
  have hinv := (h.inv.trapEntry timerCause mtval).suspended reads
  obtain ⟨s₂, heq, -, -, hcase⟩ := timerOnInterrupt_spec hinv.core hinv.settled hinv.target
  dsimp only
  rw [dispatch_timer, heq]
  exact ⟨(hinv.target.scheduled htgt).2, s₂, rfl, hcase htgt⟩

/-- A guest that stores `deadline` to its `mtimecmp` with its first instruction, `sd x5, 0(x6)`. -/
def sampleTimerStore (deadline : Word) : List SampleTrap :=
  let regs : SavedRegisters :=
    Function.update (Function.update (fun _ => 0) 4 deadline) 5 0x02004000
  [⟨regs, 0x80000000, 12⟩, ⟨regs, 0x80000000, 15⟩]

/-- Such a guest is the target of the next timer interrupt, and takes it. -/
theorem timer_interrupts_exact_armed :
    ∃ s, Reachable sampleLayout s ∧ 0 ≤ s.interruptTarget.machine ∧
      ∃ s₂, dispatch sampleLayout (fun _ => 0)
          (suspended sampleLayout (sampleReads 200) (s.trapEntry timerCause 0)) = .ok s₂ ∧
        (s₂.guest.deferredException = true ∨ s₂.trace = .guestTrap timerCause :: s.trace) := by
  obtain ⟨s, hreach, hs⟩ := exists_reachable (store (fun _ => 0) 0x85000000 4 0x00533023)
    (sampleTimerStore 20) (fun s => decide (0 ≤ s.interruptTarget.machine)) true (by decide)
    (by decide +kernel)
  have htgt := of_decide_eq_true hs
  obtain ⟨-, hfire, -⟩ := timer_interrupts_exact hreach
  exact ⟨s, hreach, htgt, (hfire 0 (sampleReads 200) (fun _ => 0) htgt).2⟩

/-! ### Deadlines -/

/-- The deadline on its way to host time and back: on a clock that has reached the wrapped sum of
    deadline and adjustment, the deadline has passed unless the sum wrapped and the clock is not
    behind the adjustment. -/
theorem deadline_le_iff {deadline adj now : Word} (h : deadline + adj ≤ now) :
    deadline ≤ now - adj ↔ deadline.toNat + adj.toNat < 2 ^ 64 ∨ now < adj := by
  have hd := deadline.isLt
  have ha := adj.isLt
  have hn := now.isLt
  rw [BitVec.le_def, BitVec.toNat_add] at h
  rw [BitVec.le_def, BitVec.toNat_sub, BitVec.lt_def]
  omega

/-- **Never early, up to wrap-around.**  When a timer interrupt meant for the guest is handled,
    which the hardware raises only once its comparator has been reached, the guest's virtual time
    has reached its deadline if and only if the sum of deadline and adjustment fits into 64 bits or
    the host clock is still behind the adjustment. -/
theorem timer_not_early_iff (h : Reachable L s) (reads : MtimeReads) (mtval : Word)
    (clock : reads.Monotone s.clint.mtime) (pending : s.clint.mtimecmp ≤ reads.suspend)
    (target : 0 ≤ s.interruptTarget.machine) :
    let s₁ := suspended L reads (s.trapEntry timerCause mtval)
    s₁.guest.timerDeadline ≤ timerGetTimeVirtual s₁ ↔
      s₁.guest.timerDeadline.toNat + s₁.guest.timerAdjustment.toNat < 2 ^ 64 ∨
        s₁.clint.mtime < s₁.guest.timerAdjustment := by
  dsimp only
  refine deadline_le_iff ?_
  rw [guest_suspended]
  have hcmp : s.clint.mtimecmp = s.guest.timerDeadline + s.guest.timerAdjustment :=
    h.inv.target.deadline target
  show s.guest.timerDeadline + s.guest.timerAdjustment ≤ reads.handle
  rw [← hcmp]
  exact BitVec.le_trans pending clock.2.1

/-- A deadline of 20 ticks, met. -/
theorem timer_not_early_small :
    ∃ s, Reachable sampleLayout s ∧ 0 ≤ s.interruptTarget.machine ∧
      (suspended sampleLayout (sampleReads 300) (s.trapEntry timerCause 0)).guest.timerDeadline ≤
        timerGetTimeVirtual
          (suspended sampleLayout (sampleReads 300) (s.trapEntry timerCause 0)) := by
  obtain ⟨s, hreach, hs⟩ := exists_reachable (store (fun _ => 0) 0x85000000 4 0x00533023)
    (sampleTimerStore 20)
    (fun s => (decide (0 ≤ s.interruptTarget.machine), s.clint.mtime, s.clint.mtimecmp,
      s.guest.timerDeadline, s.guest.timerAdjustment)) (true, 103, 124, 20, 104) (by decide)
    (by decide +kernel)
  simp only [Prod.mk.injEq, decide_eq_true_eq] at hs
  obtain ⟨htgt, hnow, hcmp, hdead, hadj⟩ := hs
  refine ⟨s, hreach, htgt, (timer_not_early_iff hreach (sampleReads 300) 0 ?_ ?_ htgt).mpr ?_⟩
  · rw [hnow]
    exact monotone_sampleReads (by decide) (by decide)
  · rw [hcmp]
    decide
  · rw [guest_suspended]
    left
    show s.guest.timerDeadline.toNat + s.guest.timerAdjustment.toNat < 2 ^ 64
    rw [hdead, hadj]
    decide

/-- A guest that disables its timer by the largest deadline is interrupted at once. -/
theorem timer_early_on_largest_deadline :
    ∃ s, Reachable sampleLayout s ∧
      (sampleReads 300).Monotone s.clint.mtime ∧ s.clint.mtimecmp ≤ (sampleReads 300).suspend ∧
      let s₁ := suspended sampleLayout (sampleReads 300) (s.trapEntry timerCause 0)
      timerGetTimeVirtual s₁ < s₁.guest.timerDeadline ∧
        s₁.guest.timerDeadline = BitVec.allOnes 64 ∧ s₁.guest.timerScheduled = true ∧
        (dispatch sampleLayout (fun _ => 0) s₁).toOption.map
          (fun s₂ => (s₂.guest.timerScheduled, s₂.guest.deferredException)) =
            some (false, true) := by
  -- the deadline in host time wraps around to 103, which has passed at 300
  obtain ⟨s, hreach, hs⟩ := exists_reachable (store (fun _ => 0) 0x85000000 4 0x00533023)
    (sampleTimerStore (BitVec.allOnes 64))
    (fun s => ((s.clint.mtime, s.clint.mtimecmp),
      let s₁ := suspended sampleLayout (sampleReads 300) (s.trapEntry timerCause 0)
      decide (timerGetTimeVirtual s₁ < s₁.guest.timerDeadline ∧
        s₁.guest.timerDeadline = BitVec.allOnes 64 ∧ s₁.guest.timerScheduled = true ∧
        (dispatch sampleLayout (fun _ => 0) s₁).toOption.map
          (fun s₂ => (s₂.guest.timerScheduled, s₂.guest.deferredException)) = some (false, true))))
    ((103, 103), true) (by decide) (by decide +kernel)
  simp only [Prod.mk.injEq, decide_eq_true_eq] at hs
  obtain ⟨⟨hnow, hcmp⟩, hrest⟩ := hs
  refine ⟨s, hreach, ?_, ?_, hrest⟩
  · rw [hnow]
    exact monotone_sampleReads (by decide) (by decide)
  · rw [hcmp]
    decide

end RiscvHypervisor
