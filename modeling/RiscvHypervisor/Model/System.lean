import RiscvHypervisor.Lib.Sv39
import RiscvHypervisor.Model.Handlers

namespace RiscvHypervisor

open ByteMem

/-!
# Model — the system: guest, MMU and hypervisor

The hypervisor only runs when the guest traps.  In between, the guest executes in the host's
user mode on the page table installed in `satp`.  A step of the system is one of

* `run` — the guest executes instructions that do not trap: any registers, any program counter;
* `store` — the guest stores a byte to any host address the installed table lets it write;
* `corrupt` — the same for an address below the guest's RAM: it would hit the hypervisor itself,
  so that anything at all may follow;
* `mmu` — the MMU sets the accessed (and dirty) bit of an entry it used;
* `receive` — a byte arrives at the UART;
* `trap` — any exception or interrupt, handled by `exception`.

Nothing is assumed about when traps happen or what the guest's memory holds, so `Reachable`
covers every guest and every interleaving.
-/

/-! ### The installed translation -/

/-- The leaf by which the MMU translates `va`, when `satp` selects Sv39. -/
def mmuLeaf (s : State) (va : Word) : Option Sv39.Leaf :=
  if s.hart.satp >>> 60 = 8 && Sv39.canonical va.toNat then
    (Sv39.walk s.store.load64 va.toNat 2 ((s.hart.satp.extractLsb' 0 44).toNat * 4096)).filter
      Sv39.Leaf.aligned
  else none

/-- The host address of an access to `va` that needs permission bit `bit`, if the MMU lets user
    mode make it.  With `satp` in mode Bare every access goes through. -/
def guestAccess (s : State) (bit : Nat) (va : Word) : Option Nat :=
  if s.hart.satp >>> 60 = 0 then some va.toNat
  else
    match mmuLeaf s va with
    | none   => none
    | some l =>
      if l.pte.testBit Sv39.bitU && l.pte.testBit bit then some (l.translate va.toNat) else none

/-! ### Steps -/

/-- What happens between two states of the system. -/
inductive GuestEvent where
  | run (regs : SavedRegisters) (pc : Word)
  | store (va : Word) (value : BitVec 8)
  | corrupt (va : Word) (after : State)
  | mmu (va : Word) (dirty : Bool)
  | receive (byte : BitVec 8)
  | trap (mcause mtval : Word) (reads : MtimeReads) (stale : Nat → Nat)

/-- The guest's registers and program counter are `regs` and `pc`. -/
def State.guestRun (s : State) (regs : SavedRegisters) (pc : Word) : State :=
  { s with host := { s.host with activeRegs := regs }, hart := s.hart.writeMepc pc }

/-- A byte of host memory changes. -/
def State.writeByte (s : State) (a : Nat) (value : BitVec 8) : State :=
  { s with store := s.store.setMem (Function.update s.store.mem a value) }

/-- The MMU marks the entry of a leaf as accessed, and dirty after a store. -/
def State.mmuMark (s : State) (l : Sv39.Leaf) (dirty : Bool) : State :=
  let pte := l.pte ||| 1 <<< Sv39.bitA ||| (if dirty then 1 <<< Sv39.bitD else 0)
  { s with store := s.store.store64 l.slot pte }

/-- A byte arrives at the UART. -/
def State.receive (s : State) (byte : BitVec 8) : State :=
  { s with uart := ⟨s.uart.received ++ [byte]⟩ }

/-- What the hart does on a trap from user mode, before `_exc_entry`.  Only traps of the guest are
    steps of the system: a fault of the hypervisor itself, whose `MPP` would be machine mode, is
    not one. -/
def State.trapEntry (s : State) (mcause mtval : Word) : State :=
  { s with
    hart := { s.hart with
      mcause := mcause
      mtval := mtval
      mstatus := (s.hart.mstatus &&& ~~~MSTATUS_MPP_MASK) ||| MSTATUS_MPP_U } }

/-- The clock does not run backwards from `now` through the four reads. -/
def MtimeReads.Monotone (r : MtimeReads) (now : Word) : Prop :=
  now ≤ r.suspend ∧ r.suspend ≤ r.handle ∧ r.handle ≤ r.resume ∧ r.resume ≤ r.reschedule

/-- One step of the system. -/
inductive Step (L : Layout) : State → GuestEvent → State → Prop where
  | run {s : State} (regs : SavedRegisters) (pc : Word) :
      Step L s (.run regs pc) (s.guestRun regs pc)
  | store {s : State} {va : Word} {pa : Nat} (value : BitVec 8)
      (access : guestAccess s Sv39.bitW va = some pa) (guest : GUEST_BASE ≤ pa) :
      Step L s (.store va value) (s.writeByte pa value)
  | corrupt {s : State} {va : Word} {pa : Nat} (after : State)
      (access : guestAccess s Sv39.bitW va = some pa) (image : pa < GUEST_BASE) :
      Step L s (.corrupt va after) after
  | mmu {s : State} {va : Word} {l : Sv39.Leaf} (dirty : Bool) (leaf : mmuLeaf s va = some l) :
      Step L s (.mmu va dirty) (s.mmuMark l dirty)
  | receive {s : State} (byte : BitVec 8) : Step L s (.receive byte) (s.receive byte)
  | trap {s s' : State} {mcause mtval : Word} {reads : MtimeReads} {stale : Nat → Nat}
      (clock : reads.Monotone s.clint.mtime)
      (handled : exception L stale reads (s.trapEntry mcause mtval) = .ok s') :
      Step L s (.trap mcause mtval reads stale) s'

/-- The memory and the globals as the loader leaves them.  The page pool and the guest's memory
    may hold anything. -/
structure PowerOn (L : Layout) (s : State) : Prop where
  roots : ∀ a, L.machinePagetableRoots ≤ a → a < L.machinePagetableRoots + MAX_GUESTS * PGSIZE →
    s.store.mem a = 0
  freeListTop : s.store.freeListTop = 0
  nextUnallocatedIdx : s.store.nextUnallocatedIdx = 0
  freed : s.store.freed = []
  printed : s.store.printed = []
  guestThreads : s.guestThreads 0 0 = guestThreadContextInit
  currentGuest : s.host.currentGuest = ⟨0, 0⟩
  interruptTarget : s.interruptTarget = ⟨-1, -1⟩
  trace : s.trace = []

/-- The states of the system in which the guest runs. -/
inductive Reachable (L : Layout) : State → Prop where
  | boot {s : State} (on : PowerOn L s) : Reachable L (bootMain L s)
  | step {s s' : State} {ev : GuestEvent} (before : Reachable L s) (step : Step L s ev s') :
      Reachable L s'

/-! ### A concrete machine -/

/-- An image as the linker may place it. -/
def sampleLayout : Layout where
  machinePagetableRoots := 0x80010000
  pagePool := 0x80020000
  excEntry := 0x80000100
  hypstack0 := 0x80001000
  hypstackNested := 0x80002000
  roots_aligned := by decide
  pool_aligned := by decide
  roots_lower := by decide
  pool_lower := by decide
  roots_upper := by decide
  pool_upper := by decide
  disjoint := by decide

/-- A machine at power-on whose guest memory is `ram`, everything else being zero. -/
def sampleMachine (ram : Mem) : State where
  store := ⟨fun a => if a < GUEST_BASE then 0 else ram a, 0, 0, [], [], []⟩
  guestThreads := fun _ _ => guestThreadContextInit
  host := ⟨fun _ => 0, 0, ⟨0, 0⟩⟩
  interruptTarget := ⟨-1, -1⟩
  hart := ⟨0, 0, 0, 0, 0, 0, 0, 0, 0, rfl⟩
  satpSince := []
  clint := ⟨0, 0⟩
  uart := ⟨[]⟩
  trace := []

theorem powerOn_sampleMachine (ram : Mem) : PowerOn sampleLayout (sampleMachine ram) where
  roots := fun _ _ hhi => if_pos (lt_trans hhi (by decide))
  freeListTop := rfl
  nextUnallocatedIdx := rfl
  freed := rfl
  printed := rfl
  guestThreads := rfl
  currentGuest := rfl
  interruptTarget := rfl
  trace := rfl

/-- Four reads of a clock that runs on by one tick. -/
def sampleReads (t : Nat) : MtimeReads :=
  ⟨BitVec.ofNat 64 t, BitVec.ofNat 64 (t + 1), BitVec.ofNat 64 (t + 2), BitVec.ofNat 64 (t + 3)⟩

/-- What a guest does: it sets its registers and program counter, and traps. -/
structure SampleTrap where
  regs : SavedRegisters
  pc : Word
  mcause : Word

/-- The traps of a guest, one every hundred ticks from time `t` on. -/
def sampleRun (t : Nat) : List SampleTrap → State → Except Panic State
  | [], s           => .ok s
  | trap :: rest, s => do
    let s ← exception sampleLayout (fun _ => 0) (sampleReads t)
      ((s.guestRun trap.regs trap.pc).trapEntry trap.mcause 0)
    sampleRun (t + 100) rest s

/-- The guest memory `ram` with a kernel of two instructions at its start: `csrw satp, x5` and
    `mret`. -/
def sampleKernel (ram : Mem) : Mem :=
  ByteMem.store (ByteMem.store ram 0x85000000 4 0x18029073) 0x85000004 4 0x30200073

/-- A guest with that kernel, whose user mode runs on one leaf of 1 GiB: the entry `pte` of a table
    at `0x80010000`. -/
def sampleUser (pte : Nat) : Mem := sampleKernel (ByteMem.store (fun _ => 0) 0x85010010 8 pte)

/-- The traps by which that kernel enters user mode with the given `satp`. -/
def sampleEnterUser (satp : Word) : List SampleTrap :=
  let regs : SavedRegisters := Function.update (fun _ => 0) 4 satp
  [⟨regs, 0x80000000, 12⟩, ⟨regs, 0x80000000, 2⟩, ⟨regs, 0x80000004, 2⟩]

end RiscvHypervisor
