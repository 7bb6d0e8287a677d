import RiscvHypervisor.Lib.Transition
import RiscvHypervisor.Proof.Emulation
import RiscvHypervisor.Proof.GuestTable

namespace RiscvHypervisor

open ByteMem Transition

/-!
# Specification — the virtual machine

What the hypervisor is for: a RISC-V machine with a machine mode and a user mode, RAM, a CLINT,
a PLIC and a UART.  There are no host addresses, no shadow table and no page pool here, and none
of the hypervisor's functions: the CSRs have rules of their own, and an instruction is what its
encoding says.

* `Csr`, `CsrFile` — the CSRs, each a word that keeps what it can of what is written to it;
* `VirtualHart` — the hart with its CSRs, its timer and what waits in its UART;
* `VirtualMachine` — the hart, RAM, a translation buffer and what has been sent to the UART;
* `VmStep` — what the machine can do;
* `virtualMachine` — the machine as a transition system, from reset on.

User mode translates through the buffer.  The machine may fill it at any time with what the Sv39
walk of the guest's table gives, and only `sfence.vma` empties it: neither a store to a table nor
a new `satp` does, so that a translation may be as old as the last fence.  Of the flags of a leaf
only `V` and `U` count, as in the hypervisor.

This machine is the hypervisor's, and not quite the architecture's.  CSRs and `sfence.vma` are
user mode's as well, `mret` always returns to user mode, a `csrrs` reads its source register after
it has written its destination, `C.LWSP` from a device does not extend the sign, the reserved
`C.LWSP` and `C.LDSP` with destination `x0` are loads like the others, and no interrupt is masked by
`mie`.  Three things it leaves open: what the clock shows, when a timer that has been armed fires,
and what is in `mtval` after a trap.
-/

/-! ### CSRs -/

/-- The CSRs that hold something. -/
inductive Csr where
  | satp
  | mstatus
  | mie
  | mtvec
  | mscratch
  | mepc
  | mcause
  | mtval
deriving DecidableEq, Repr

namespace Csr

def number : Csr → Nat
  | satp     => 0x180
  | mstatus  => 0x300
  | mie      => 0x304
  | mtvec    => 0x305
  | mscratch => 0x340
  | mepc     => 0x341
  | mcause   => 0x342
  | mtval    => 0x343

/-- What the CSR keeps of `value` if it has held `old`: of `mstatus` there are `MPP`, `MIE` and the
    sticky `MDT`, and `UXL` is 64 bits; `satp` has no address-space identifier. -/
def keep (c : Csr) (old value : Word) : Word :=
  match c with
  | mstatus =>
    0x200000000 ||| (value &&& (MSTATUS_MPP_MASK ||| MSTATUS_MIE)) |||
      ((old ||| value) &&& MSTATUS_MDT)
  | satp => value &&& 0xF0000FFFFFFFFFFF
  | _    => value

/-- Other interrupts than these three must not be enabled. -/
def Accepts (c : Csr) (value : Word) : Prop :=
  c = mie → value &&& ~~~(MIE_MSIE ||| MIE_MTIE ||| MIE_MEIE) = 0

end Csr

/-- A physical memory protection register: it reads as zero and ignores what is written. -/
def PmpNumber (number : Nat) : Prop :=
  0x3A0 ≤ number ∧ number ≤ 0x3AF ∨ 0x3B0 ≤ number ∧ number ≤ 0x3EF

/-- What the CSRs hold. -/
abbrev CsrFile := Csr → Word

namespace CsrFile

variable (file : CsrFile)

/-- The CSR `number` reads as `old`. -/
def Reads (number : Nat) (old : Word) : Prop :=
  (∃ c : Csr, c.number = number ∧ old = file c) ∨ (PmpNumber number ∧ old = 0)

/-- `file'` is the file after `value` has been written to the CSR `number`. -/
def Writes (number : Nat) (value : Word) (file' : CsrFile) : Prop :=
  (∃ c : Csr, c.number = number ∧ c.Accepts value ∧
    file' = Function.update file c (c.keep (file c) value)) ∨ (PmpNumber number ∧ file' = file)

/-- `satp.MODE` and `satp.PPN`. -/
def satpMode : BitVec 4 := (file .satp).extractLsb' 60 4
def satpPpn : BitVec 44 := (file .satp).extractLsb' 0 44

/-- Interrupts are on: `mstatus.MIE` is set and `mstatus.MDT` is not. -/
def Enabled : Prop := file .mstatus &&& MSTATUS_MIE ≠ 0 ∧ file .mstatus &&& MSTATUS_MDT = 0

/-- After a trap at `pc`. -/
def trap (pc mcause mtval : Word) : CsrFile
  | .mstatus => file .mstatus ||| MSTATUS_MDT
  | .mepc    => pc
  | .mcause  => mcause
  | .mtval   => mtval
  | c        => file c

/-- After `mret`. -/
def mret : CsrFile
  | .mstatus => file .mstatus &&& ~~~MSTATUS_MDT
  | c        => file c

end CsrFile

/-! ### The hart -/

/-- The hart, with the devices that belong to it. -/
structure VirtualHart where
  regs : SavedRegisters
  pc : Word
  userMode : Bool
  /-- Addresses are translated. -/
  paged : Bool
  csrs : CsrFile
  /-- A timer interrupt waits to be taken. -/
  pending : Bool
  /-- The timer runs towards `deadline`. -/
  armed : Bool
  deadline : Word
  /-- The bytes that wait in the UART. -/
  received : List (BitVec 8)

namespace VirtualHart

variable (h : VirtualHart)

/-- The interrupt that waits is taken before anything else happens. -/
def Interrupted : Prop := h.pending = true ∧ h.csrs.Enabled

/-- `x0` reads as zero. -/
def reg (r : Nat) : Word := if r = 0 then 0 else h.regs (r - 1)

/-- And stays zero. -/
def writeReg (r : Nat) (value : Word) : VirtualHart :=
  if r ≠ 0 then { h with regs := Function.update h.regs (r - 1) value } else h

theorem writeReg_csrs (csrs : CsrFile) (r : Nat) (value : Word) :
    ({ h with csrs := csrs }).writeReg r value = { h.writeReg r value with csrs := csrs } := by
  unfold writeReg
  split
  · rfl
  · rfl

/-- Instructions are at even addresses. -/
def jump (pc : Word) : VirtualHart := { h with pc := pc &&& ~~~1 }

/-- The instruction has retired. -/
def advance (length : Nat) : VirtualHart := h.jump (h.pc + BitVec.ofNat 64 length)

/-- Enter the trap handler. -/
def trap (mcause mtval : Word) : VirtualHart :=
  { h.jump (h.csrs .mtvec) with
    userMode := false
    paged := false
    csrs := h.csrs.trap h.pc mcause mtval }

/-- `mret`: always to user mode, whatever `mstatus.MPP` says. -/
def mret : VirtualHart :=
  { h.jump (h.csrs .mepc) with
    userMode := true
    paged := decide (h.csrs.satpMode = 8)
    csrs := h.csrs.mret }

end VirtualHart

/-! ### Instructions -/

/-- The instruction at `a`: its first half-word says how long it is. -/
def instructionAt (m : Mem) (a : Nat) : Nat :=
  if load m a 2 % 4 = 3 then load m a 4 else load m a 2

/-- Whether a load from a device extends the sign: `C.LWSP` does not. -/
def signExtends (i : Rv64.Load) : Bool :=
  match i with
  | .clwsp .. => false
  | _         => (i.access fun _ => 0).signed

/-! ### The machine -/

/-- The machine: `tlb p q` says that the buffer translates page `p` to page `q`. -/
structure VirtualMachine where
  hart : VirtualHart
  ram : Mem
  tlb : Nat → Nat → Prop
  /-- The bytes that have been sent to the UART. -/
  transmitted : List (BitVec 8)

/-- What can be seen of a step. -/
inductive VmEvent where
  /-- Instructions that neither access memory nor trap. -/
  | run (regs : SavedRegisters) (pc : Word)
  /-- A byte is fetched or loaded. -/
  | read (va : Word) (value : BitVec 8)
  | write (va : Word) (value : BitVec 8)
  /-- A byte arrives at the UART. -/
  | receive (byte : BitVec 8)
  /-- A trap, or a store to `mtimecmp`. -/
  | observed (o : Observation)

namespace VirtualMachine

variable (v : VirtualMachine)

/-- The memory page tables can be in. -/
def tableRead (a : Nat) : Nat := if InGuestRam a then load v.ram a 8 else 0

/-- By the guest's table, `va` is at `gm`.  Tables outside RAM, and entries with a bit set that Sv39
    reserves, promise nothing. -/
def Walks (va gm : Nat) : Prop :=
  WellFormedWalk v.tableRead v.hart.csrs.satpPpn va →
    sv39Resolve v.tableRead v.hart.csrs.satpPpn va = some gm

/-- Through the buffer, or without translation, `va` is at `gm`.  Bits above those of Sv39 are
    ignored. -/
def Translates (va gm : Nat) : Prop :=
  if v.hart.paged then ∃ q, v.tlb (pageOf va) q ∧ gm = q * 4096 + va % 4096
  else gm = va % 2 ^ 39

theorem translates_of_paged {v : VirtualMachine} (h : v.hart.paged = true) {va gm : Nat} :
    v.Translates va gm ↔ ∃ q, v.tlb (pageOf va) q ∧ gm = q * 4096 + va % 4096 := by
  unfold Translates
  rw [if_pos h]

theorem translates_of_bare {v : VirtualMachine} (h : v.hart.paged = false) {va gm : Nat} :
    v.Translates va gm ↔ gm = va % 2 ^ 39 := by
  unfold Translates
  rw [if_neg (by rw [h]; decide)]

/-- The address on the bus of a device access to `va`. -/
def Locates (va gm : Nat) : Prop := if v.hart.paged then v.Walks va gm else gm = va

/-- `word` is the instruction at the program counter. -/
def Fetches (word : Nat) : Prop :=
  ∃ gm, v.Translates v.hart.pc.toNat gm ∧ instructionAt v.ram gm = word

/-- The hart changes. -/
def setHart (h : VirtualHart) : VirtualMachine := { v with hart := h }

/-- The buffer learns that page `p` is at page `q`. -/
def cache (p q : Nat) : VirtualMachine :=
  { v with tlb := fun p' q' => v.tlb p' q' ∨ p' = p ∧ q' = q }

/-- The buffer forgets everything. -/
def fence : VirtualMachine := { v with tlb := fun _ _ => False }

end VirtualMachine

/-! ### The devices -/

namespace DeviceRegister

/-- What a device register reads as.  The clock may show anything. -/
def read (h : VirtualHart) (now : Word) : DeviceRegister → Option Word
  | mtimecmp      => some h.deadline
  | mtime         => some now
  | plicEnable    => some 0
  | uartData      => some (h.received.head?.elim 0 (fun b => b.setWidth 64))
  | uartIer       => some 0
  | uartLsr       => some (if h.received.isEmpty then 0x60 else 0x61)
  | plicPriority  => none
  | plicThreshold => none

/-- What is left in the UART after a load: the byte that was read is gone. -/
def leaves (received : List (BitVec 8)) : DeviceRegister → List (BitVec 8)
  | uartData => received.tail
  | _        => received

/-- What a store to a device register does. -/
def write (v : VirtualMachine) (value : Word) : DeviceRegister → Option VirtualMachine
  | mtimecmp      => some (v.setHart { v.hart with deadline := value, armed := true })
  | uartData      => some { v with transmitted := v.transmitted ++ [value.setWidth 8] }
  | plicPriority  => some v
  | plicEnable    => some v
  | plicThreshold => some v
  | uartIer       => some v
  | mtime         => none
  | uartLsr       => none

/-- A store to `mtimecmp` is seen, the others are not. -/
def shown (value : Word) (d : DeviceRegister) : Option VmEvent :=
  if d = mtimecmp then some (.observed (.mtimecmpStore value)) else none

end DeviceRegister

/-! ### Steps -/

/-- One step of the machine. -/
inductive VmStep : VirtualMachine → Option VmEvent → VirtualMachine → Prop where
  | run {v : VirtualMachine} (free : ¬ v.hart.Interrupted) (regs : SavedRegisters) (pc : Word) :
      VmStep v (some (.run regs pc)) (v.setHart ({ v.hart with regs := regs }.jump pc))
  | read {v : VirtualMachine} {va : Word} {gm : Nat} (free : ¬ v.hart.Interrupted)
      (translated : v.Translates va.toNat gm) : VmStep v (some (.read va (v.ram gm))) v
  | write {v : VirtualMachine} {va : Word} {gm : Nat} (free : ¬ v.hart.Interrupted)
      (translated : v.Translates va.toNat gm) (value : BitVec 8) :
      VmStep v (some (.write va value)) { v with ram := Function.update v.ram gm value }
  | receive {v : VirtualMachine} (byte : BitVec 8) :
      VmStep v (some (.receive byte))
        (v.setHart { v.hart with received := v.hart.received ++ [byte] })
  | fill {v : VirtualMachine} {va gm : Nat} (paged : v.hart.paged = true) (walks : v.Walks va gm)
      (ram : InGuestRam gm) : VmStep v none (v.cache (pageOf va) (gm / 4096))
  | sfence {v : VirtualMachine} {rs1 rs2 : BitVec 5} (free : ¬ v.hart.Interrupted)
      (fetched : v.Fetches (Rv64.Privileged.sfenceVma rs1 rs2).encode) :
      VmStep v none (v.fence.setHart (v.hart.advance 4))
  | csrrw {v : VirtualMachine} {rd rs1 : BitVec 5} {csr : BitVec 12} {old : Word} {csrs : CsrFile}
      (free : ¬ v.hart.Interrupted)
      (fetched : v.Fetches (Rv64.Privileged.csrrw rd rs1 csr).encode)
      (held : v.hart.csrs.Reads csr.toNat old)
      (written : v.hart.csrs.Writes csr.toNat (v.hart.reg rs1.toNat) csrs) :
      VmStep v none (v.setHart (({ v.hart with csrs := csrs }.writeReg rd.toNat old).advance 4))
  | csrrs {v : VirtualMachine} {rd rs1 : BitVec 5} {csr : BitVec 12} {old : Word} {csrs : CsrFile}
      (free : ¬ v.hart.Interrupted)
      (fetched : v.Fetches (Rv64.Privileged.csrrs rd rs1 csr).encode)
      (held : v.hart.csrs.Reads csr.toNat old)
      (written : if rs1 = 0 then csrs = v.hart.csrs
        else v.hart.csrs.Writes csr.toNat
          (old ||| (v.hart.writeReg rd.toNat old).reg rs1.toNat) csrs) :
      VmStep v none (v.setHart (({ v.hart with csrs := csrs }.writeReg rd.toNat old).advance 4))
  | mret {v : VirtualMachine} (free : ¬ v.hart.Interrupted)
      (fetched : v.Fetches Rv64.Privileged.mret.encode) (machine : v.hart.userMode = false)
      (mode : v.hart.csrs.satpMode = 0 ∨ v.hart.csrs.satpMode = 8) :
      VmStep v none (v.setHart v.hart.mret)
  | ecall {v : VirtualMachine} (free : ¬ v.hart.Interrupted) (user : v.hart.userMode = true)
      (mtval : Word) :
      VmStep v (some (.observed (.guestTrap 8))) (v.setHart (v.hart.trap 8 mtval))
  | timer {v : VirtualMachine} (armed : v.hart.armed = true) :
      VmStep v none (v.setHart { v.hart with armed := false, pending := true })
  | interrupt {v : VirtualMachine} (taken : v.hart.Interrupted) (user : v.hart.userMode = true)
      (mtval : Word) :
      VmStep v (some (.observed (.guestTrap timerCause)))
        (v.setHart ({ v.hart with pending := false }.trap timerCause mtval))
  | deviceLoad {v : VirtualMachine} {i : Rv64.Load} {gm : Nat} {d : DeviceRegister}
      {now value : Word} (free : ¬ v.hart.Interrupted) (fetched : v.Fetches i.encode)
      (located : v.Locates (i.access v.hart.reg).address.toNat gm) (register : d.address = gm)
      (width : d.width = accessWidth (i.access v.hart.reg).width)
      (answer : d.read v.hart now = some value) :
      VmStep v none (v.setHart { (v.hart.writeReg (i.access v.hart.reg).reg
        (d.width.extend (signExtends i) value)).advance i.size with
          received := d.leaves v.hart.received })
  | deviceStore {v v' : VirtualMachine} {i : Rv64.Store} {gm : Nat} {d : DeviceRegister}
      (free : ¬ v.hart.Interrupted) (fetched : v.Fetches i.encode)
      (located : v.Locates (i.access v.hart.reg).address.toNat gm) (register : d.address = gm)
      (width : d.width = accessWidth (i.access v.hart.reg).width)
      (stored : d.write v (d.width.extend false (v.hart.reg (i.access v.hart.reg).reg)) = some v') :
      VmStep v (d.shown (d.width.extend false (v.hart.reg (i.access v.hart.reg).reg)))
        (v'.setHart (v'.hart.advance i.size))

/-- Out of reset: machine mode at the start of RAM, with traps masked, nothing pending, the timer
    off, nothing sent and the buffer empty.  RAM and registers may hold anything. -/
structure VirtualMachine.Reset (v : VirtualMachine) : Prop where
  pc : v.hart.pc = 0x80000000
  machine : v.hart.userMode = false
  bare : v.hart.paged = false
  mstatus : v.hart.csrs .mstatus = 0x200000000 ||| MSTATUS_MDT
  csrs : ∀ c, c ≠ .mstatus → v.hart.csrs c = 0
  pending : v.hart.pending = false
  armed : v.hart.armed = false
  silent : v.transmitted = []
  empty : ∀ p q, ¬ v.tlb p q

/-- The machine as a transition system. -/
def virtualMachine : System VirtualMachine VmEvent where
  start := VirtualMachine.Reset
  step := VmStep

end RiscvHypervisor
