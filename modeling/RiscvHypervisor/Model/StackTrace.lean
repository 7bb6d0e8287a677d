import RiscvHypervisor.Model.Hypenterleave

namespace RiscvHypervisor

/-!
# Model — stack traces and the panic message

`stacktrace.c` and `panic.c` of a build with `USE_STACK_TRACE`.  Entries lie anywhere in memory:
the heap is a function from addresses to entries, and `0` is `NULL`.  What is printed is the list
of the calls of `print_string` and `print_addr`, in order.

The loop of `panic` takes fuel, one unit for each turn, and is `none` when that runs out.
-/

/-! ### Entries -/

/-- `StackTraceEntry`; `description` is `none` when the pointer is `NULL`. -/
structure StackTraceEntry where
  caller : Nat
  description : Option String
deriving DecidableEq, Repr

/-- The entries in memory. -/
abbrev EntryHeap := Nat → StackTraceEntry

/-- The entries and `stack_trace_caller` of the host thread. -/
structure StackTrace where
  heap : EntryHeap
  stackTraceCaller : Nat

def stackTracePushDescr (descr : Option String) (buffer : Nat) (st : StackTrace) : StackTrace :=
  { heap := Function.update st.heap buffer ⟨st.stackTraceCaller, descr⟩
    stackTraceCaller := buffer }

def stackTracePop (st : StackTrace) : StackTrace :=
  { st with stackTraceCaller := (st.heap st.stackTraceCaller).caller }

def stackTraceClear (st : StackTrace) : StackTrace := { st with stackTraceCaller := 0 }

/-! ### Printing -/

/-- A call of `print_string` or of `print_addr`. -/
inductive Print where
  | string (str : String)
  | addr (num : Nat)
deriving DecidableEq, Repr

/-! ### `panic` -/

/-- The variables of the loop. -/
structure TraceWalk where
  entry : Nat
  entrySlow : Nat
  updateSlow : Bool
deriving DecidableEq, Repr

/-- What a turn prints of its entry. -/
def entryLine (heap : EntryHeap) (entry : Nat) : List Print :=
  [.string "\tat ", .string ((heap entry).description.getD "(null)"),
    .string " (stacktrace entry is at ", .addr entry, .string ")\n"]

/-- The report of a cycle. -/
def cycleLine (entrySlow : Nat) : List Print :=
  [.string "\tStacktrace cycle to ", .addr entrySlow, .string "!\n"]

/-- The pointers of the next turn. -/
def TraceWalk.next (heap : EntryHeap) (w : TraceWalk) : TraceWalk where
  entry := (heap w.entry).caller
  entrySlow := if w.updateSlow then (heap w.entrySlow).caller else w.entrySlow
  updateSlow := !w.updateSlow

/-- The loop, and what it prints. -/
def stackTraceLoop (heap : EntryHeap) : Nat → TraceWalk → Option (List Print)
  | 0, _        => none
  | fuel + 1, w =>
    if w.entry = 0 then some []
    else if w.entrySlow = (heap w.entry).caller then
      some (entryLine heap w.entry ++ cycleLine w.entrySlow)
    else (stackTraceLoop heap fuel (w.next heap)).map (entryLine heap w.entry ++ ·)

/-- The variables before the first turn. -/
def TraceWalk.start (entry : Nat) : TraceWalk := ⟨entry, entry, false⟩

/-- `dump_caller_registers`, `ctx` being `none` when `mscratch` is `NULL`. -/
def dumpCallerRegisters (mepc : Nat) (ctx : Option HostThreadData) : List Print :=
  [.string "mepc = ", .addr mepc, .string "\n"] ++
  ctx.elim [.string "mscratch = NULL\n"] (fun ctx =>
    registers.zipIdx.flatMap (fun r =>
      [.string (r.1.2 ++ " = "), .addr (ctx.activeRegs r.2).toNat, .string "\n"]))

/-- The first line of a panic. -/
def panicHeader : List Print := [.string "\n\x1b[0;1;91m*** Hypervisor panic ***\x1b[0m\n"]

/-- What `panic` prints before it halts the hart.  The context comes with its
    `stack_trace_caller`. -/
def panicText (heap : EntryHeap) (fuel mepc : Nat) (ctx : Option (HostThreadData × Nat)) :
    Option (List Print) :=
  (ctx.elim (some []) (fun c => stackTraceLoop heap fuel (TraceWalk.start c.2))).map fun trace =>
    panicHeader ++ trace ++ dumpCallerRegisters mepc (ctx.map Prod.fst)

end RiscvHypervisor
