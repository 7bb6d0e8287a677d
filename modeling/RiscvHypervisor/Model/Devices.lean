import RiscvHypervisor.Model.GuestPrivilege
import RiscvHypervisor.Model.Instructions

namespace RiscvHypervisor

/-!
# Model — emulated memory-mapped devices

`virtmmdev.c`: the CLINT, PLIC and UART registers the guest can reach below its RAM.  A
register pointer is the index into `x_plus_one`, `none` being the `NULL` that stands for `x0`.
-/

/-- `VirtMMAccessResult`. -/
inductive VirtMMAccessResult where
  | success
  | unknownAddr
  | badAccess
deriving DecidableEq, Repr

/-- The bits a store of the given width writes. -/
def MemoryAccessWidth.mask : MemoryAccessWidth → Word
  | .w8  => 0xFF
  | .w16 => 0xFFFF
  | .w32 => 0xFFFFFFFF
  | .w64 => BitVec.allOnes 64

/-- `*(uintN_t*) reg_ptr = value`: overwrite the low bytes of a register, keeping the rest. -/
def writeRegLow (s : State) (regPtr : Option Nat) (width : MemoryAccessWidth) (value : Word) :
    State :=
  match regPtr with
  | none   => s
  | some n =>
    s.setReg n ((s.host.activeRegs n &&& ~~~width.mask) ||| (value &&& width.mask))

/-- `reg_ptr ? *(uintN_t*) reg_ptr : 0`. -/
def readRegLow (s : State) (regPtr : Option Nat) (width : MemoryAccessWidth) : Word :=
  match regPtr with
  | none   => 0
  | some n => s.host.activeRegs n &&& width.mask

def UART_LSR_DR : Word := 1 <<< 0
def UART_LSR_THRE : Word := 1 <<< 5
def UART_LSR_TEMT : Word := 1 <<< 6

/-- The data-ready bit of the host's line status register. -/
def uartDataReady (u : Uart) : Word := if u.received.isEmpty then 0 else UART_LSR_DR

/-- Reading the host's receive buffer takes the byte out. -/
def uartReceive (u : Uart) : Word × Uart :=
  match u.received with
  | []        => (0, u)
  | b :: rest => (b.setWidth 64, ⟨rest⟩)

/-- The escape sequences around a byte the guest sends: bright green, and back. -/
def uartColourOn : List (BitVec 8) := stringBytes "\x1b[0;92m"
def uartColourOff : List (BitVec 8) := stringBytes "\x1b[0m"

/-- `virtual_mmdev_load`. -/
def virtualMmdevLoad (virtAddr : Nat) (regPtr : Option Nat) (loadWidth : MemoryAccessWidth)
    (s : State) : VirtMMAccessResult × State :=
  match virtAddr with
  | 0x02004000 =>  -- clint.harts[0].mtimecmp
    if loadWidth ≠ .w64 then (.badAccess, s)
    else (.success, writeRegLow s regPtr .w64 s.guest.timerDeadline)
  | 0x0200BFF8 =>  -- clint.mtime
    if loadWidth ≠ .w64 then (.badAccess, s)
    else (.success, writeRegLow s regPtr .w64 (timerGetTimeVirtual s))
  | 0x10000001 =>  -- uart.ier
    if loadWidth ≠ .w8 then (.badAccess, s)
    else (.success, writeRegLow s regPtr .w8 0)
  | 0x0C002000 =>  -- plic.context_source_enable_bits[0][0]
    if loadWidth ≠ .w32 then (.badAccess, s)
    else (.success, writeRegLow s regPtr .w32 0)
  | 0x10000005 =>  -- uart.lsr
    if loadWidth ≠ .w8 then (.badAccess, s)
    else
      let result := UART_LSR_THRE ||| UART_LSR_TEMT ||| (uartDataReady s.uart &&& UART_LSR_DR)
      (.success, writeRegLow s regPtr .w8 result)
  | 0x10000000 =>  -- uart.rbr
    if loadWidth ≠ .w8 then (.badAccess, s)
    else
      let (result, uart) := uartReceive s.uart
      (.success, writeRegLow { s with uart := uart } regPtr .w8 result)
  | _ => (.unknownAddr, s)

/-- `virtual_mmdev_store`. -/
def virtualMmdevStore (virtAddr : Nat) (regPtr : Option Nat) (storeWidth : MemoryAccessWidth)
    (s : State) : VirtMMAccessResult × State :=
  match virtAddr with
  | 0x02004000 =>  -- clint.harts[0].mtimecmp
    if storeWidth ≠ .w64 then (.badAccess, s)
    else
      let value := readRegLow s regPtr .w64
      (.success,
        (s.setGuest { s.guest with timerDeadline := value, timerScheduled := true }).observe
          (.mtimecmpStore value))
  | 0x0C000028 =>  -- plic.source_priorities[UART_IRQ = 10]
    if storeWidth ≠ .w32 then (.badAccess, s) else (.success, s)
  | 0x0C002000 =>  -- plic.context_source_enable_bits[0][0]
    if storeWidth ≠ .w32 then (.badAccess, s) else (.success, s)
  | 0x0C200000 =>  -- plic.contexts[0].priority_threshold
    if storeWidth ≠ .w32 then (.badAccess, s) else (.success, s)
  | 0x10000001 =>  -- uart.ier
    if storeWidth ≠ .w8 then (.badAccess, s) else (.success, s)
  | 0x10000000 =>  -- uart.thr
    if storeWidth ≠ .w8 then (.badAccess, s)
    else
      let value : BitVec 8 := (readRegLow s regPtr .w8).setWidth 8
      (.success, s.print (uartColourOn ++ [value] ++ uartColourOff))
  | _ => (.unknownAddr, s)

/-- `reset_upper_bits`: sign- or zero-extend the low bytes of a register. -/
def resetUpperBits (s : State) (regPtr : Option Nat) (width : MemoryAccessWidth)
    (isSigned : Bool) : State :=
  match regPtr with
  | none   => s
  | some n =>
    let v := s.host.activeRegs n
    match width with
    | .w8  =>
      s.setReg n (if isSigned then (v.setWidth 8).signExtend 64 else (v.setWidth 8).setWidth 64)
    | .w16 =>
      s.setReg n (if isSigned then (v.setWidth 16).signExtend 64 else (v.setWidth 16).setWidth 64)
    | .w32 =>
      s.setReg n (if isSigned then (v.setWidth 32).signExtend 64 else (v.setWidth 32).setWidth 64)
    | .w64 => s

end RiscvHypervisor
