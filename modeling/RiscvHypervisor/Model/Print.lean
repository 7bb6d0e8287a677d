import RiscvHypervisor.Model.Base

namespace RiscvHypervisor

/-!
# Model — printing

`print.c`: everything the hypervisor sends to `uart0`, its own messages as well as the bytes of
the guest, goes through `printStringSlice`.  `uart_write_blocking` waits until the UART takes the
next byte, so nothing is lost.
-/

/-- `print_string_slice`. -/
def printStringSlice (slc : List (BitVec 8)) (st : Store) : Store :=
  { st with printed := st.printed ++ slc }

/-- What `print_string` sends: the bytes of a string literal, all of whose characters are ASCII. -/
def stringBytes (str : String) : List (BitVec 8) := str.toList.map fun c => BitVec.ofNat 8 c.toNat

/-- One hexadecimal digit, as `print_addr` makes it. -/
def nibbleByte (c : Nat) : BitVec 8 := BitVec.ofNat 8 (if c < 10 then c + 48 else c + (65 - 10))

/-- The loop of `print_addr`, which fills its buffer from the end: the digits of the lowest `i`
    bytes of `num`, before those in `buf`. -/
def printAddrLoop : Nat → Nat → List (BitVec 8) → List (BitVec 8)
  | 0, _, buf       => buf
  | i + 1, num, buf =>
    let byte := num % 256
    printAddrLoop i (num / 256) (nibbleByte (byte / 16) :: nibbleByte (byte % 16) :: buf)

/-- What `print_addr` sends. -/
def addrBytes (num : Nat) : List (BitVec 8) := stringBytes "0x" ++ printAddrLoop 8 num []

/-- `print_string_slice`, on the state. -/
def State.print (slc : List (BitVec 8)) (s : State) : State :=
  { s with store := printStringSlice slc s.store }

section

variable (slc : List (BitVec 8)) (st : Store) (s : State)

/-- Printing changes the output and nothing else. -/
@[simp] theorem mem_printStringSlice : (printStringSlice slc st).mem = st.mem := rfl
@[simp] theorem freeListTop_printStringSlice :
    (printStringSlice slc st).freeListTop = st.freeListTop := rfl
@[simp] theorem nextUnallocatedIdx_printStringSlice :
    (printStringSlice slc st).nextUnallocatedIdx = st.nextUnallocatedIdx := rfl
@[simp] theorem freed_printStringSlice : (printStringSlice slc st).freed = st.freed := rfl
@[simp] theorem since_printStringSlice : (printStringSlice slc st).since = st.since := rfl
@[simp] theorem printed_printStringSlice :
    (printStringSlice slc st).printed = st.printed ++ slc := rfl

theorem printStringSlice_nil : printStringSlice [] st = st := by
  unfold printStringSlice
  rw [List.append_nil]

@[simp] theorem State.guest_print : (s.print slc).guest = s.guest := rfl
@[simp] theorem State.store_print : (s.print slc).store = printStringSlice slc s.store := rfl
@[simp] theorem State.host_print : (s.print slc).host = s.host := rfl
@[simp] theorem State.hart_print : (s.print slc).hart = s.hart := rfl
@[simp] theorem State.clint_print : (s.print slc).clint = s.clint := rfl
@[simp] theorem State.uart_print : (s.print slc).uart = s.uart := rfl
@[simp] theorem State.trace_print : (s.print slc).trace = s.trace := rfl
@[simp] theorem State.interruptTarget_print :
    (s.print slc).interruptTarget = s.interruptTarget := rfl

end

/-- `print_addr` ends with the digits of the last byte. -/
example : addrBytes 0x80200000 = stringBytes "0x0000000080200000" := by decide

end RiscvHypervisor
