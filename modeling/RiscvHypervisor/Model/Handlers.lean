import RiscvHypervisor.Model.Devices
import RiscvHypervisor.Model.VirtCsr

namespace RiscvHypervisor

open ByteMem

/-!
# Model — exception handlers

`handlePageFault` (`vmem.c`), the dispatch on `mcause` (`exchandlers.c`), and `bootMain` and
`exception` (`hypervisor.c`), which everything else is called from.
-/

/-! ### Page faults -/

/-- The start of both handlers that look at the faulting instruction: its host address, and its
    length as its first half-word gives it. -/
def resolveInstruction (L : Layout) (s : State) (instrAddr : Word) : Except Panic Nat := do
  let it ← beginIterGuestmem L s ⟨instrAddr, 4, s.host.currentGuest⟩ (permbit .x)
  if !it.success then .error .resolveInstruction
  else if it.host.byteLength < 2 then .error .oddInstruction
  else
    let instrSize := if load s.store.mem it.host.address 2 &&& 3 = 3 then 4 else 2
    if it.host.byteLength < instrSize then .error .multiPageInstruction
    else .ok it.host.address

/-- The first half of `handle_page_fault`: the faulting access, decoded from the instruction at
    `mepc` unless the fault is the fetch itself. -/
def decodeFault (L : Layout) (accessType : MempermIndex) (s : State) :
    Except Panic DecodedAccess :=
  match accessType with
  | .r => do
    let host ← resolveInstruction L s s.hart.mepc
    parseSourceAddress (dereferenceInstruction s.store.mem host) s.host.activeRegs
  | .w => do
    let host ← resolveInstruction L s s.hart.mepc
    parseDestinationAddress (dereferenceInstruction s.store.mem host) s.host.activeRegs
  | .x => .ok ⟨s.hart.mepc, .w32, 0, 4, false⟩
  | _  => .error .invalidFaultType

/-- The device half of `handle_page_fault`: an access below RAM. -/
def emulateDevice (accessType : MempermIndex) (access : DecodedAccess) (gmAddr : Nat)
    (s : State) : PageFaultHandlerResult × State :=
  let regPtr := if access.reg = 0 then none else some (access.reg - 1)
  let nextPc := s.hart.mepc + BitVec.ofNat 64 access.pcAdvance
  match accessType with
  | .r =>
    match virtualMmdevLoad gmAddr regPtr access.width s with
    | (.success, s) =>
      (.success, (resetUpperBits s regPtr access.width access.isSigned).setMepc nextPc)
    | (_, s) => (.tooLow, s)
  | .w =>
    match virtualMmdevStore gmAddr regPtr access.width s with
    | (.success, s) => (.success, s.setMepc nextPc)
    | (_, s)        => (.tooLow, s)
  | _ => (.tooLow, s)

/-- The guest-machine address of a faulting address: translated by the guest's own table if that is
    in use. -/
def faultToGm (L : Layout) (stale : Nat → Nat) (faultAddr : Nat) (s : State) :
    Except Panic (Nat × State) :=
  if !s.guest.shadowPtActive then .ok (faultAddr, s)
  else do
    let (gm, st) ← tryResolveGuToGm L stale s.host.currentGuest.machine s.guest.csr.satpPpn
      faultAddr s.store
    match gm with
    | none    => .error .propagateFault
    | some gm => .ok (gm, { s with store := st })

/-- The rest of `handle_page_fault`, on the result of `ensure_guest_machine_mapped`: the shadow
    table follows, or the access goes to a device. -/
def finishFault (L : Layout) (accessType : MempermIndex) (access : DecodedAccess)
    (faultGmAddr : Nat) (result : PageFaultHandlerResult) (faultHmAddr : Option Nat) (s : State) :
    Except Panic (PageFaultHandlerResult × Word × State) :=
  match result with
  | .tooLow =>
    let (result, s) := emulateDevice accessType access faultGmAddr s
    .ok (result, access.address, s)
  | .tooHigh => .ok (.tooHigh, access.address, s)
  | result =>
    if s.guest.shadowPtActive then do
      let (result, st) ← updateShadowPt L s.guest.shadowPageTable access.address.toNat
        (faultHmAddr.getD 0) accessType s.store
      return (result, access.address, { s with store := st })
    else .ok (result, access.address, s)

/-- `handle_page_fault`.  The second component is `*virt_out`, the faulting address. -/
def handlePageFault (L : Layout) (stale : Nat → Nat) (accessType : MempermIndex) (s : State) :
    Except Panic (PageFaultHandlerResult × Word × State) := do
  let access ← decodeFault L accessType s
  let (faultGmAddr, s) ← faultToGm L stale access.address.toNat s
  let (result, faultHmAddr, st) ←
    ensureGuestMachineMapped L s.host.currentGuest.machine faultGmAddr s.store
  finishFault L accessType access faultGmAddr result faultHmAddr { s with store := st }

/-! ### Dispatch on the cause -/

/-- The `csrrw` case of `handle_guest_exception`. -/
def emulateCsrrw (L : Layout) (guestAddr : Word) (u : UnpackedInstruction) (s : State) :
    Except Panic State := do
  let csrId := (u.funct7 <<< 5) ||| u.rs2
  let oldValue ← (if u.rd ≠ 0 then getVirtualCsr csrId s.guest.csr else .ok 0)
  let value := readReg s.host.activeRegs u.rs1
  let csr ← setVirtualCsr csrId value s.guest.csr
  let s := s.setGuest { s.guest with csr := csr }
  let s := if u.rd ≠ 0 then s.setReg (u.rd - 1) oldValue else s
  let (_, s) ← guestCheckDeferred L (s.setMepc (guestAddr + 4))
  return s

/-- The `csrrs` case of `handle_guest_exception`. -/
def emulateCsrrs (L : Layout) (guestAddr : Word) (u : UnpackedInstruction) (s : State) :
    Except Panic State := do
  let csrId := (u.funct7 <<< 5) ||| u.rs2
  let value ← getVirtualCsr csrId s.guest.csr
  let s := if u.rd ≠ 0 then s.setReg (u.rd - 1) value else s
  -- the source register is read after the destination is written
  let csr ← (if u.rs1 ≠ 0 then
      setVirtualCsr csrId (value ||| s.host.activeRegs (u.rs1 - 1)) s.guest.csr
    else .ok s.guest.csr)
  let s := s.setGuest { s.guest with csr := csr }
  let (_, s) ← guestCheckDeferred L (s.setMepc (guestAddr + 4))
  return s

/-- Emulation of the privileged instruction `u` at `guestAddr`, the illegal-instruction case of
    `handle_guest_exception`. -/
def emulateInstruction (L : Layout) (guestAddr : Word) (u : UnpackedInstruction) (s : State) :
    Except Panic State :=
  if u.opcode ≠ 0x73 then .error .illegalInstruction
  else
    match u.funct3 with
    | 0 =>
      if u.funct7 = 0 then .error .guestEcallEbreak
      else if u.funct7 = 9 ∧ u.rd = 0 then do  -- sfence.vma
        let s ← flushShadowPagetable s
        return s.setMepc (guestAddr + 4)
      else if u.funct7 = 24 ∧ u.rs2 = 2 ∧ u.rs1 = 0 ∧ u.rd = 0 then guestMret L s
      else if u.funct7 = 8 ∧ u.rs2 = 5 ∧ u.rs1 = 0 ∧ u.rd = 0 then .ok s  -- wfi
      else .error .illegalInstruction
    | 1 => emulateCsrrw L guestAddr u s
    | 2 => emulateCsrrs L guestAddr u s
    | _ => .error .illegalInstruction

/-- The illegal-instruction case of `handle_guest_exception`. -/
def handleIllegalInstruction (L : Layout) (s : State) : Except Panic State :=
  let guestAddr := s.hart.mepc
  if guestAddr < 0x80000000 ∨ guestAddr > 0x8080000000 then .error .illegalNotInRange
  else do
    let host ← resolveInstruction L s guestAddr
    emulateInstruction L guestAddr (unpackInstruction (dereferenceInstruction s.store.mem host)) s

/-- The page-fault cases of `handle_guest_exception`. -/
def handleAccessFault (L : Layout) (stale : Nat → Nat) (accessType : MempermIndex) (s : State) :
    Except Panic State := do
  match ← handlePageFault L stale accessType s with
  | (.success, _, s)    => .ok s
  | (.tooLow, _, _)     => .error (.accessTooLow accessType)
  | (.tooHigh, _, _)    => .error (.accessTooHigh accessType)
  | (.notChanged, _, _) => .error (.faultNotChanged accessType)

/-- What the cases of an access fault print before they go on as for a page fault. -/
def accessFaultMessage (mcause : Word) : List (BitVec 8) :=
  if mcause = 5 then stringBytes "[Load access fault, trying to interpret as a page fault]"
  else if mcause = 7 then stringBytes "[Store access fault, trying to interpret as a page fault]"
  else []

/-- `handle_guest_exception`. -/
def handleGuestException (L : Layout) (stale : Nat → Nat) (mcause : Word) (s : State) :
    Except Panic State :=
  if mcause = 2 then handleIllegalInstruction L s
  else if mcause = 8 then guestException L mcause s
  else if mcause = 12 then handleAccessFault L stale .x s
  else if mcause = 5 ∨ mcause = 13 then
    handleAccessFault L stale .r (s.print (accessFaultMessage mcause))
  else if mcause = 7 ∨ mcause = 15 then
    handleAccessFault L stale .w (s.print (accessFaultMessage mcause))
  else .error .unhandledException

/-- `handle_interrupt`. -/
def handleInterrupt (L : Layout) (mcause : Word) (s : State) : Except Panic State :=
  if mcause &&& ~~~MCAUSE_ASYNC_BIT = MCAUSE_ASYNC_TIMER then timerOnInterrupt L s
  else .ok s

/-! ### Boot and the common exception entry -/

/-- `boot_main`, up to the jump into the guest. -/
def bootMain (L : Layout) (s : State) : State :=
  let hart := s.hart
  let hart := { hart with mstatus := (hart.mstatus &&& ~~~MSTATUS_MPP_MASK) ||| MSTATUS_MPP_U }
  let hart := { hart with mstatus := hart.mstatus ||| MSTATUS_MIE }
  let hart := { hart with mtvec := BitVec.ofNat 64 L.excEntry }
  let hart := { hart with satp := 0 }
  let hart := { hart with pmpaddr0 := 0x3fffffffffffff, pmpcfg0 := 0xf }
  let hart := hart.writeMepc 0x80000000
  let host := { s.host with exceptionHandlerStack := L.hypstack0 + 4096 }
  let hart := { hart with satp := makeSatp (L.machineRoot 0) }
  { s with hart := hart, host := host }.vmemFence

/-- The host clock as read by the four phases of `exception`. -/
structure MtimeReads where
  suspend : Word
  handle : Word
  resume : Word
  reschedule : Word
deriving DecidableEq, Repr

/-- The host clock shows `t`. -/
def State.setMtime (s : State) (t : Word) : State :=
  { s with clint := { s.clint with mtime := t } }

@[simp] theorem State.guest_setMtime (s : State) (t : Word) : (s.setMtime t).guest = s.guest := rfl

/-- The part of `exception` between stopping and restarting the guest's clock. -/
def dispatch (L : Layout) (stale : Nat → Nat) (s : State) : Except Panic State :=
  let mcause := s.hart.mcause
  if mcause &&& MCAUSE_ASYNC_BIT ≠ 0 then handleInterrupt L mcause s
  else if s.hart.mstatus &&& MSTATUS_MPP_MASK ≠ MSTATUS_MPP_U then .error .hypervisorException
  else handleGuestException L stale mcause s

/-- `exception`: every trap from the guest ends here. -/
def exception (L : Layout) (stale : Nat → Nat) (reads : MtimeReads) (s : State) :
    Except Panic State := do
  let currentStack := s.host.exceptionHandlerStack
  let s := { s with host := { s.host with exceptionHandlerStack := L.hypstackNested + 4096 } }
  let s := timerSuspendVirtual (s.setMtime reads.suspend)
  let s ← dispatch L stale (s.setMtime reads.handle)
  let s := timerResumeVirtual (s.setMtime reads.resume)
  let s := timerReschedule MAX_GUESTS MAX_VIRT_HARTS (s.setMtime reads.reschedule)
  return { s with host := { s.host with exceptionHandlerStack := currentStack } }

end RiscvHypervisor
