import RiscvHypervisor.Lib.Memory
import Mathlib.Logic.Function.Basic

namespace RiscvHypervisor

open ByteMem

/-!
# Model — the data of the hypervisor

The types of `base_types.h`, `csr.h`, `contexts.h` and `timer.c`, and the state every handler
works on.

* Values the guest sees (registers, CSRs, times) are 64-bit words.  Host addresses (`0` being
  `NULL`) and packed page-table entries are natural numbers, truncated to 64 bits wherever the
  C code can overflow.
* `Layout` is what the linker decides: where the page-table roots and the page pool are.
  Its fields carry the promise of the linker script and the README that the image lies in
  `[0x80000000, 0x85000000)`.
* `Store` is host memory with the globals of `pagealloc.c` and what `print.c` has sent; `State`
  adds the contexts, the host hart and the devices.  `Store.freed`, `Store.since`,
  `State.satpSince` and `State.trace` are history: functions record in them and none reads them.
* `HostCsr` carries what the hardware guarantees of `mepc`: its bit 0 is zero.
* A call of `panic()` never returns: it is an error, one constructor for every place.
-/

/-- A 64-bit register. -/
abbrev Word := BitVec 64

/-! ### Constants -/

def MAX_GUESTS : Nat := 1
def MAX_VIRT_HARTS : Nat := 1
def MAX_ALLOCATEABLE_PAGES : Nat := 16384

def PGSHIFT : Nat := 12
def PGSIZE : Nat := 4096

/-- Start of RAM, for the guest as for the host. -/
def RAM_START : Nat := 0x80000000

/-- The guest's RAM is the host's RAM moved by this much. -/
def GUEST_MEMORY_OFFSET : Nat := 0x5000000

/-- First host address that belongs to the guest. -/
def GUEST_BASE : Nat := RAM_START + GUEST_MEMORY_OFFSET

def MSTATUS_MPP_MASK : Word := 3 <<< 11
def MSTATUS_MPP_U : Word := 0 <<< 11
def MSTATUS_MIE : Word := 1 <<< 3
def MSTATUS_MDT : Word := 1 <<< 42
def MIE_MEIE : Word := 1 <<< 11
def MIE_MTIE : Word := 1 <<< 7
def MIE_MSIE : Word := 1 <<< 3
def MCAUSE_ASYNC_BIT : Word := 1 <<< 63
def MCAUSE_ASYNC_TIMER : Word := 7
def SATP_MODE_SHIFT : Nat := 60
def SATP_MODE_NONE : Word := 0
def SATP_MODE_SV39 : Word := 8 <<< 60

/-- `MAKE_SATP`: the `satp` value that installs the Sv39 table at `ptptr`. -/
def makeSatp (ptptr : Nat) : Word := SATP_MODE_SV39 ||| (BitVec.ofNat 64 ptptr >>> 12)

/-! ### Permission bits and panics -/

/-- `MempermIndex`: the bits of a permission mask, in order.  It also names the kind of an
    access: `r`, `w` or `x`. -/
inductive MempermIndex where
  | v
  | r
  | w
  | x
  | u
  | g
  | a
  | d
  | reserved1
  | reserved2
deriving DecidableEq, Repr

/-- The places that call `panic()`, each with the text printed before. -/
inductive Panic where
  /-- "Extract source address" -/
  | extractSourceAddress
  /-- "Extract destination address" -/
  | extractDestinationAddress
  /-- "Unmatched gu and hm lower bits" -/
  | unmatchedLowerBits
  /-- "Failed to allocate a shadow table page" -/
  | shadowTableAlloc
  /-- "Failed to allocate a page" -/
  | pageAlloc
  /-- "Failed to resolve instruction actual address" -/
  | resolveInstruction
  /-- "Odd instruction address" -/
  | oddInstruction
  /-- "Multi-page instruction" -/
  | multiPageInstruction
  /-- "Invalid page fault type" -/
  | invalidFaultType
  /-- "Propagate the page fault to GM" -/
  | propagateFault
  /-- "Null page table" -/
  | nullPageTable
  /-- "Virtual memory iterator out of range" -/
  | iteratorOutOfRange
  /-- "Unmapped page" -/
  | unmappedPage
  /-- "Non-guest page" -/
  | nonGuestPage
  /-- "No RWX bits at the third-level pagetable entry" -/
  | noRwxBits
  /-- "mret from user mode" -/
  | mretFromUser
  /-- "Unsupported pagetable mode" -/
  | unsupportedPagetableMode
  /-- "GM exception" -/
  | gmException
  /-- "TODO: Guest machine/thread switch" -/
  | guestSwitch
  /-- "Get emulated csr" -/
  | getEmulatedCsr
  /-- "Set emulated csr" -/
  | setEmulatedCsr
  /-- "Unhandled mie fields" -/
  | unhandledMieFields
  /-- "Hypervisor-caused exception" -/
  | hypervisorException
  /-- "Guest illegal instruction not in memory range" -/
  | illegalNotInRange
  /-- "Guest ecall/ebreak" -/
  | guestEcallEbreak
  /-- "Guest illegal instruction" -/
  | illegalInstruction
  /-- "Unhandled guest-caused exception" -/
  | unhandledException
  /-- "Guest program counter below RAM", "Guest read below RAM", "Guest store below RAM" -/
  | accessTooLow (accessType : MempermIndex)
  /-- "Guest program counter beyond Sv39", "Guest read beyond Sv39", "Guest store beyond Sv39" -/
  | accessTooHigh (accessType : MempermIndex)
  /-- "Guest instruction page fault", "Guest unknown load page fault", "Guest unknown store page
      fault" -/
  | faultNotChanged (accessType : MempermIndex)
  /-- Not a panic of the source: the model's recursion bound ran out. -/
  | recursionBound
deriving DecidableEq, Repr

/-! ### Layout of the image -/

/-- What the linker decides, with what it guarantees: the page-table roots and the page pool
    are page-aligned, disjoint, and inside the hypervisor's part of RAM. -/
structure Layout where
  machinePagetableRoots : Nat
  pagePool : Nat
  excEntry : Nat
  hypstack0 : Nat
  hypstackNested : Nat
  roots_aligned : machinePagetableRoots % PGSIZE = 0
  pool_aligned : pagePool % PGSIZE = 0
  roots_lower : RAM_START ≤ machinePagetableRoots
  pool_lower : RAM_START ≤ pagePool
  roots_upper : machinePagetableRoots + MAX_GUESTS * PGSIZE ≤ GUEST_BASE
  pool_upper : pagePool + MAX_ALLOCATEABLE_PAGES * PGSIZE ≤ GUEST_BASE
  disjoint : machinePagetableRoots + MAX_GUESTS * PGSIZE ≤ pagePool ∨
    pagePool + MAX_ALLOCATEABLE_PAGES * PGSIZE ≤ machinePagetableRoots

/-- Address of `machine_pagetable_roots[machine]`. -/
def Layout.machineRoot (L : Layout) (machine : Int) : Nat :=
  L.machinePagetableRoots + PGSIZE * machine.toNat

/-- Address of `page_pool[idx]`. -/
def Layout.poolPage (L : Layout) (idx : Nat) : Nat := L.pagePool + PGSIZE * idx

/-! ### Contexts -/

/-- `GuestThreadId`; `-1` stands for "none". -/
structure GuestThreadId where
  machine : Int
  thread : Int
deriving DecidableEq, Repr

/-- The virtual CSRs of a guest thread. -/
structure GuestCsr where
  mtvec : Word := 0
  mepc : Word := 0
  mscratch : Word := 0
  mcause : Word := 0
  mtval : Word := 0
  mstatusMpp : BitVec 2 := 0
  mstatusMie : Bool := false
  mstatusMdt : Bool := false
  mieMsie : Bool := false
  mieMtie : Bool := false
  mieMeie : Bool := false
  satpMode : BitVec 4 := 0
  satpPpn : BitVec 44 := 0
deriving DecidableEq, Repr

/-- `GuestThreadContext`. -/
structure GuestThreadContext where
  shadowPageTable : Nat := 0
  shadowPtActive : Bool := false
  userMode : Bool := false
  timerScheduled : Bool := false
  deferredException : Bool := false
  timerDeadline : Word := 0
  timerSuspendedAt : Word := 0
  timerAdjustment : Word := 0
  deferredMcause : Word := 0
  csr : GuestCsr := {}
deriving DecidableEq, Repr

/-- `GUEST_THREAD_CONTEXT_INIT`. -/
def guestThreadContextInit : GuestThreadContext := { csr := { mstatusMdt := true } }

/-- The guest registers: `xPlusOne n` is register `x(n+1)`, for `n < 31`. -/
abbrev SavedRegisters := Nat → Word

/-- `HostThreadData`. -/
structure HostThreadData where
  activeRegs : SavedRegisters
  exceptionHandlerStack : Nat
  currentGuest : GuestThreadId

/-! ### Host hardware -/

/-- The machine-mode CSRs of the host hart.  Bit 0 of `mepc` is wired to zero. -/
structure HostCsr where
  mstatus : Word
  mtvec : Word
  mepc : Word
  mcause : Word
  mtval : Word
  mie : Word
  satp : Word
  pmpaddr0 : Word
  pmpcfg0 : Word
  mepc_even : mepc.toNat % 2 = 0
deriving DecidableEq, Repr

/-- What `mepc` holds after `pc` is written to it. -/
def legalMepc (pc : Word) : Word := pc &&& ~~~1

theorem legalMepc_toNat (pc : Word) : (legalMepc pc).toNat = pc.toNat / 2 * 2 := by
  have hshift : legalMepc pc = pc >>> 1 <<< 1 := by
    apply BitVec.eq_of_getLsbD_eq
    intro i hi
    unfold legalMepc
    rw [BitVec.getLsbD_and, BitVec.getLsbD_not, BitVec.getLsbD_shiftLeft,
      BitVec.getLsbD_ushiftRight]
    rcases i with _ | i
    · simp
    · have hone : (1#64).getLsbD (i + 1) = false := by
        rw [BitVec.getLsbD_one]
        simp
      rw [show (1 : Word) = 1#64 from rfl, hone]
      simp [hi, Nat.add_comm 1 i]
  rw [hshift, BitVec.toNat_shiftLeft, BitVec.toNat_ushiftRight, Nat.shiftLeft_eq,
    Nat.shiftRight_eq_div_pow]
  have hlt := pc.isLt
  omega

theorem legalMepc_even (pc : Word) : (legalMepc pc).toNat % 2 = 0 := by
  rw [legalMepc_toNat]
  omega

/-- An even address is kept as it is. -/
theorem legalMepc_eq_self {pc : Word} (h : pc.toNat % 2 = 0) : legalMepc pc = pc := by
  apply BitVec.eq_of_toNat_eq
  rw [legalMepc_toNat]
  omega

/-- And no other. -/
theorem legalMepc_eq_self_iff {pc : Word} : legalMepc pc = pc ↔ pc.toNat % 2 = 0 := by
  refine ⟨fun h => ?_, legalMepc_eq_self⟩
  rw [← h]
  exact legalMepc_even pc

/-- An instruction takes an even number of bytes. -/
theorem legalMepc_add {pc : Word} (h : pc.toNat % 2 = 0) {length : Nat} (hlength : length % 2 = 0) :
    legalMepc (pc + BitVec.ofNat 64 length) = pc + BitVec.ofNat 64 length := by
  apply legalMepc_eq_self
  rw [BitVec.toNat_add, BitVec.toNat_ofNat]
  omega

/-- `csrw mepc, pc`. -/
def HostCsr.writeMepc (hart : HostCsr) (pc : Word) : HostCsr :=
  { hart with mepc := legalMepc pc, mepc_even := legalMepc_even pc }

section

variable (hart : HostCsr) (pc : Word)

@[simp] theorem HostCsr.mepc_writeMepc : (hart.writeMepc pc).mepc = legalMepc pc := rfl
@[simp] theorem HostCsr.mstatus_writeMepc : (hart.writeMepc pc).mstatus = hart.mstatus := rfl
@[simp] theorem HostCsr.mcause_writeMepc : (hart.writeMepc pc).mcause = hart.mcause := rfl
@[simp] theorem HostCsr.mtval_writeMepc : (hart.writeMepc pc).mtval = hart.mtval := rfl
@[simp] theorem HostCsr.mie_writeMepc : (hart.writeMepc pc).mie = hart.mie := rfl
@[simp] theorem HostCsr.satp_writeMepc : (hart.writeMepc pc).satp = hart.satp := rfl

end

/-- The registers of the core-local interruptor. -/
structure Clint where
  mtime : Word
  mtimecmp : Word
deriving DecidableEq, Repr

/-- The receiving half of the UART: the bytes waiting to be read.  What is sent is in
    `Store.printed`. -/
structure Uart where
  received : List (BitVec 8)
deriving DecidableEq, Repr

/-! ### The store and the state -/

/-- A call of `deallocate_page`: its argument and the memory and globals it found. -/
structure FreeCall where
  page : Nat
  mem : Mem
  freeListTop : Nat
  nextUnallocatedIdx : Nat

/-- Host memory, the globals of `pagealloc.c`, and the bytes sent to `uart0`.  `since` is what the
    memory was before each write since the last fence: a hart may still go by it when it walks a
    page table. -/
structure Store where
  mem : Mem
  freeListTop : Nat
  nextUnallocatedIdx : Nat
  freed : List FreeCall
  printed : List (BitVec 8)
  since : List Mem

/-- The memory becomes `mem`. -/
def Store.setMem (st : Store) (mem : Mem) : Store :=
  { st with mem := mem, since := st.mem :: st.since }

/-- `vmem_fence` as it is always called, `sfence.vma zero, zero`: nothing older than the memory
    is used any more. -/
def Store.vmemFence (st : Store) : Store := { st with since := [] }

@[simp] theorem Store.mem_vmemFence (st : Store) : st.vmemFence.mem = st.mem := rfl

/-- What a guest can observe the hypervisor do, in order, latest first. -/
inductive Observation where
  /-- `guest_exception(mcause)` entered the guest's trap handler. -/
  | guestTrap (mcause : Word)
  /-- The guest stored `deadline` to its `mtimecmp`. -/
  | mtimecmpStore (deadline : Word)
deriving DecidableEq, Repr

/-- The state of the hypervisor, its host hart and its devices.  `satpSince` is to `satp` what
    `Store.since` is to the memory. -/
structure State where
  store : Store
  guestThreads : Int → Int → GuestThreadContext
  host : HostThreadData
  interruptTarget : GuestThreadId
  hart : HostCsr
  satpSince : List Word
  clint : Clint
  uart : Uart
  trace : List Observation

namespace State

/-- The context of the current guest thread. -/
def guest (s : State) : GuestThreadContext :=
  s.guestThreads s.host.currentGuest.machine s.host.currentGuest.thread

/-- Replace the context of the current guest thread. -/
def setGuest (s : State) (g : GuestThreadContext) : State :=
  let id := s.host.currentGuest
  { s with
    guestThreads := Function.update s.guestThreads id.machine
      (Function.update (s.guestThreads id.machine) id.thread g) }

/-- Write the host's `mepc`. -/
def setMepc (s : State) (pc : Word) : State := { s with hart := s.hart.writeMepc pc }

/-- Write the host's `satp`. -/
def setSatp (s : State) (v : Word) : State :=
  { s with hart := { s.hart with satp := v }, satpSince := s.hart.satp :: s.satpSince }

/-- `vmem_fence`. -/
def vmemFence (s : State) : State := { s with store := s.store.vmemFence, satpSince := [] }

/-- Write `x_plus_one[n]`. -/
def setReg (s : State) (n : Nat) (v : Word) : State :=
  { s with host := { s.host with activeRegs := Function.update s.host.activeRegs n v } }

/-- Record an observation. -/
def observe (s : State) (o : Observation) : State := { s with trace := o :: s.trace }

variable (s : State) (g : GuestThreadContext)

@[simp] theorem guest_setGuest : (s.setGuest g).guest = g := by simp [guest, setGuest]
@[simp] theorem store_setGuest : (s.setGuest g).store = s.store := rfl
@[simp] theorem host_setGuest : (s.setGuest g).host = s.host := rfl
@[simp] theorem hart_setGuest : (s.setGuest g).hart = s.hart := rfl
@[simp] theorem clint_setGuest : (s.setGuest g).clint = s.clint := rfl
@[simp] theorem uart_setGuest : (s.setGuest g).uart = s.uart := rfl
@[simp] theorem trace_setGuest : (s.setGuest g).trace = s.trace := rfl
@[simp] theorem interruptTarget_setGuest : (s.setGuest g).interruptTarget = s.interruptTarget := rfl

@[simp] theorem guest_setMepc (pc : Word) : (s.setMepc pc).guest = s.guest := rfl
@[simp] theorem store_setMepc (pc : Word) : (s.setMepc pc).store = s.store := rfl
@[simp] theorem hart_setMepc (pc : Word) : (s.setMepc pc).hart = s.hart.writeMepc pc := rfl
@[simp] theorem clint_setMepc (pc : Word) : (s.setMepc pc).clint = s.clint := rfl
@[simp] theorem trace_setMepc (pc : Word) : (s.setMepc pc).trace = s.trace := rfl
@[simp] theorem interruptTarget_setMepc (pc : Word) :
    (s.setMepc pc).interruptTarget = s.interruptTarget := rfl
@[simp] theorem host_setMepc (pc : Word) : (s.setMepc pc).host = s.host := rfl

@[simp] theorem guest_setSatp (v : Word) : (s.setSatp v).guest = s.guest := rfl
@[simp] theorem store_setSatp (v : Word) : (s.setSatp v).store = s.store := rfl
@[simp] theorem hart_setSatp (v : Word) : (s.setSatp v).hart = { s.hart with satp := v } := rfl
@[simp] theorem clint_setSatp (v : Word) : (s.setSatp v).clint = s.clint := rfl
@[simp] theorem trace_setSatp (v : Word) : (s.setSatp v).trace = s.trace := rfl
@[simp] theorem interruptTarget_setSatp (v : Word) :
    (s.setSatp v).interruptTarget = s.interruptTarget := rfl
@[simp] theorem host_setSatp (v : Word) : (s.setSatp v).host = s.host := rfl

@[simp] theorem guest_vmemFence : s.vmemFence.guest = s.guest := rfl
@[simp] theorem store_vmemFence : s.vmemFence.store = s.store.vmemFence := rfl
@[simp] theorem hart_vmemFence : s.vmemFence.hart = s.hart := rfl
@[simp] theorem clint_vmemFence : s.vmemFence.clint = s.clint := rfl
@[simp] theorem uart_vmemFence : s.vmemFence.uart = s.uart := rfl
@[simp] theorem trace_vmemFence : s.vmemFence.trace = s.trace := rfl
@[simp] theorem interruptTarget_vmemFence : s.vmemFence.interruptTarget = s.interruptTarget := rfl
@[simp] theorem host_vmemFence : s.vmemFence.host = s.host := rfl

@[simp] theorem guest_setReg (n : Nat) (v : Word) : (s.setReg n v).guest = s.guest := rfl
@[simp] theorem store_setReg (n : Nat) (v : Word) : (s.setReg n v).store = s.store := rfl
@[simp] theorem hart_setReg (n : Nat) (v : Word) : (s.setReg n v).hart = s.hart := rfl
@[simp] theorem clint_setReg (n : Nat) (v : Word) : (s.setReg n v).clint = s.clint := rfl
@[simp] theorem trace_setReg (n : Nat) (v : Word) : (s.setReg n v).trace = s.trace := rfl
@[simp] theorem interruptTarget_setReg (n : Nat) (v : Word) :
    (s.setReg n v).interruptTarget = s.interruptTarget := rfl

@[simp] theorem guest_observe (o : Observation) : (s.observe o).guest = s.guest := rfl
@[simp] theorem store_observe (o : Observation) : (s.observe o).store = s.store := rfl
@[simp] theorem hart_observe (o : Observation) : (s.observe o).hart = s.hart := rfl
@[simp] theorem clint_observe (o : Observation) : (s.observe o).clint = s.clint := rfl
@[simp] theorem trace_observe (o : Observation) : (s.observe o).trace = o :: s.trace := rfl
@[simp] theorem interruptTarget_observe (o : Observation) :
    (s.observe o).interruptTarget = s.interruptTarget := rfl
@[simp] theorem host_observe (o : Observation) : (s.observe o).host = s.host := rfl

@[simp] theorem currentGuest_setReg (n : Nat) (v : Word) :
    (s.setReg n v).host.currentGuest = s.host.currentGuest := rfl

end State

end RiscvHypervisor
