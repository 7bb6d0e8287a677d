import RiscvHypervisor.Model.Vmem

namespace RiscvHypervisor

/-!
# Model — guest privilege levels and the virtual timer

`guestprivilege.c`: the two transitions between the guest's machine mode and its user mode
(`guestMret`, `guestException`) and the exceptions held back until the guest can take them.
`timer.c`: the host comparator shared by the virtual timers.

The host clock is read where the source reads it; `State.clint.mtime` is its value at that
moment and whoever runs a handler moves it on.
-/

/-! ### Privilege transitions -/

/-- `guest_exception`: enter the guest's trap handler. -/
def guestException (L : Layout) (mcause : Word) (s : State) : Except Panic State :=
  if !s.guest.userMode then .error .gmException
  else
    let s :=
      if s.guest.shadowPtActive then
        ((s.setGuest { s.guest with shadowPtActive := false }).setSatp
          (makeSatp (L.machineRoot s.host.currentGuest.machine))).vmemFence
      else s
    let s := s.setGuest { s.guest with
      csr := { s.guest.csr with mstatusMdt := true, mepc := s.hart.mepc } }
    let s := s.setMepc s.guest.csr.mtvec
    let s := s.setGuest { s.guest with
      userMode := false
      csr := { s.guest.csr with mcause := mcause, mtval := s.hart.mtval } }
    .ok (s.observe (.guestTrap mcause))

/-- `guest_check_deferred`: deliver the deferred exception if the guest can take it now.  The
    result says whether it was. -/
def guestCheckDeferred (L : Layout) (s : State) : Except Panic (Bool × State) :=
  if !s.guest.csr.mstatusMie || s.guest.csr.mstatusMdt then .ok (false, s)
  else if s.guest.deferredException then do
    let s := s.setGuest { s.guest with deferredException := false }
    let s ← guestException L s.guest.deferredMcause s
    return (true, s)
  else .ok (false, s)

/-- `guest_defer_exception`. -/
def guestDeferException (L : Layout) (mcause : Word) (s : State) : Except Panic State :=
  if s.guest.deferredException then .ok s
  else do
    let s := s.setGuest { s.guest with deferredException := true, deferredMcause := mcause }
    let (_, s) ← guestCheckDeferred L s
    return s

/-- The `switch` of `guest_mret` on the mode field of the guest's `satp`. -/
def mretTranslation (L : Layout) (s : State) : Except Panic State :=
  let mode := s.guest.csr.satpMode.setWidth 64 <<< SATP_MODE_SHIFT
  if mode = SATP_MODE_NONE then .ok s
  else if mode = SATP_MODE_SV39 then
    let s := s.setGuest { s.guest with shadowPtActive := true }
    let s :=
      if s.guest.shadowPageTable = 0 then
        -- the result is not checked for `NULL`
        let (table, store) := allocatePagepable L s.store
        { s with store := store }.setGuest { s.guest with shadowPageTable := table }
      else s
    .ok (s.setSatp (makeSatp s.guest.shadowPageTable)).vmemFence
  else .error .unsupportedPagetableMode

/-- `guest_mret`. -/
def guestMret (L : Layout) (s : State) : Except Panic State :=
  if s.guest.userMode then .error .mretFromUser
  else do
    let s := s.setGuest { s.guest with userMode := true }
    let s := s.setMepc s.guest.csr.mepc
    let s := s.setGuest { s.guest with csr := { s.guest.csr with mstatusMdt := false } }
    let s ← mretTranslation L s
    let (_, s) ← guestCheckDeferred L s
    return s

/-! ### Timer -/

/-- `MILLISECONDS`. -/
def milliseconds (n : Nat) : Word := BitVec.ofNat 64 (100 * n)

/-- `CompareResult`. -/
inductive CompareResult where
  | lt
  | eq
  | gt
deriving DecidableEq, Repr

/-- `timer_compare`: the sign of the wrapping difference. -/
def timerCompare (lhs rhs : Word) : CompareResult :=
  let diff := lhs - rhs
  if diff = 0 then .eq
  else if diff.toInt < 0 then .lt
  else .gt

/-- `timer_get_time_virtual`. -/
def timerGetTimeVirtual (s : State) : Word := s.clint.mtime - s.guest.timerAdjustment

/-- `timer_interrupt_at`. -/
def timerInterruptAt (deadline : Word) (s : State) : State :=
  { s with
    clint := { s.clint with mtimecmp := deadline }
    hart := { s.hart with mie := s.hart.mie ||| MIE_MTIE } }

/-- `timer_interrupt_sooner`. -/
def timerInterruptSooner (deadline : Word) (s : State) : Bool × State :=
  match timerCompare deadline s.clint.mtimecmp with
  | .lt => (true, timerInterruptAt deadline s)
  | _   => (false, s)

/-- The body of the loop of `timer_reschedule`, for the guest thread `(i, j)`. -/
def rescheduleThread (s : State) (i j : Int) : State :=
  let guest := s.guestThreads i j
  if guest.timerScheduled then
    let (sooner, s) := timerInterruptSooner (guest.timerDeadline + guest.timerAdjustment) s
    if sooner then { s with interruptTarget := ⟨i, j⟩ } else s
  else s

/-- `timer_reschedule`, for any number of guests and virtual harts. -/
def timerReschedule (maxGuests maxVirtHarts : Nat) (s : State) : State :=
  let s := { s with interruptTarget := ⟨-1, -1⟩ }
  let s := timerInterruptAt (s.clint.mtime + milliseconds 200) s
  (List.range maxGuests).foldl (fun s (i : Nat) =>
    (List.range maxVirtHarts).foldl (fun s (j : Nat) => rescheduleThread s i j) s) s

/-- The cause of a timer interrupt. -/
def timerCause : Word := MCAUSE_ASYNC_BIT ||| MCAUSE_ASYNC_TIMER

/-- `timer_on_interrupt`. -/
def timerOnInterrupt (L : Layout) (s : State) : Except Panic State :=
  if s.interruptTarget.machine < 0 then .ok s
  else if s.host.currentGuest.machine ≠ s.interruptTarget.machine ∨
      s.host.currentGuest.thread ≠ s.interruptTarget.thread then .error .guestSwitch
  else guestDeferException L timerCause (s.setGuest { s.guest with timerScheduled := false })

/-- `timer_suspend_virtual`. -/
def timerSuspendVirtual (s : State) : State :=
  s.setGuest { s.guest with timerSuspendedAt := s.clint.mtime }

/-- `timer_resume_virtual`. -/
def timerResumeVirtual (s : State) : State :=
  let additionalCycles : Word := 50
  s.setGuest { s.guest with
    timerAdjustment := s.guest.timerAdjustment +
      (s.clint.mtime - s.guest.timerSuspendedAt + additionalCycles) }

end RiscvHypervisor
