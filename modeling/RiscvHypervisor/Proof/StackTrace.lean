import RiscvHypervisor.Model.StackTrace
import RiscvHypervisor.Lib.CycleWalk
import RiscvHypervisor.Lib.FreeChain

namespace RiscvHypervisor

open Function

/-!
# The stack trace of a panic always ends

The loop of `panic` is the two-pointer walk of `CycleWalk` along `caller`, with one line printed
in each turn (`stackTraceLoop_run`).  So it ends over any finite heap, corrupted or not, and what
it printed says which of the two it was.

* `stackTraceLoop_outcome`, `stackTraceLoop_ends` — the loop ends, with the report of a cycle
  exactly when it ran into one.
* `panicText_ends` — hence `panic` gets to its register dump.
* `chain_run`, `disciplined_trace` — as long as pushes and pops are paired, the chain is the stack
  of the pushes that are still open, and that is what is printed.
-/

variable {heap : EntryHeap} {entry n : Nat}

/-- The link of an entry. -/
def EntryHeap.next (heap : EntryHeap) (p : Nat) : Nat := (heap p).caller

/-- The first `n` entries of the chain from `entry`. -/
def trail (heap : EntryHeap) (entry n : Nat) : List Nat :=
  (List.range n).map (fun k => heap.next^[k] entry)

/-- The variables in turn `k`. -/
def TraceWalk.turn (heap : EntryHeap) (entry k : Nat) : TraceWalk where
  entry := heap.next^[k] entry
  entrySlow := heap.next^[k / 2] entry
  updateSlow := k % 2 == 1

@[simp] theorem TraceWalk.entry_turn (heap : EntryHeap) (entry k : Nat) :
    (TraceWalk.turn heap entry k).entry = heap.next^[k] entry := rfl

@[simp] theorem TraceWalk.entrySlow_turn (heap : EntryHeap) (entry k : Nat) :
    (TraceWalk.turn heap entry k).entrySlow = heap.next^[k / 2] entry := rfl

/-! ### Turns of the loop -/

theorem TraceWalk.turn_zero (heap : EntryHeap) (entry : Nat) :
    TraceWalk.turn heap entry 0 = TraceWalk.start entry := rfl

/-- The link of the fast pointer is where it goes next. -/
theorem caller_iterate (heap : EntryHeap) (entry k : Nat) :
    (heap (heap.next^[k] entry)).caller = heap.next^[k + 1] entry :=
  (iterate_succ_apply' heap.next k entry).symm

/-- **One turn.**  Every other turn moves the slow pointer. -/
theorem TraceWalk.next_turn (heap : EntryHeap) (entry k : Nat) :
    (TraceWalk.turn heap entry k).next heap = TraceWalk.turn heap entry (k + 1) := by
  rcases Nat.mod_two_eq_zero_or_one k with hk | hk
  · have hhalf : (k + 1) / 2 = k / 2 := by omega
    have hodd : (k + 1) % 2 = 1 := by omega
    simp [TraceWalk.next, TraceWalk.turn, caller_iterate, hk, hhalf, hodd]
  · have hhalf : (k + 1) / 2 = k / 2 + 1 := by omega
    have heven : (k + 1) % 2 = 0 := by omega
    simp [TraceWalk.next, TraceWalk.turn, caller_iterate, hk, hhalf, heven]

/-- A turn in which the walk does not stop prints its entry and goes on. -/
theorem stackTraceLoop_turn {k : Nat} (fuel : Nat)
    (hgoes : ¬ CycleWalk.Ends heap.next 0 entry k) :
    stackTraceLoop heap (fuel + 1) (TraceWalk.turn heap entry k) =
      (stackTraceLoop heap fuel (TraceWalk.turn heap entry (k + 1))).map
        (entryLine heap (heap.next^[k] entry) ++ ·) := by
  obtain ⟨hnull, hmeets⟩ := not_or.mp hgoes
  unfold CycleWalk.Meets at hmeets
  rw [stackTraceLoop, TraceWalk.entry_turn, TraceWalk.entrySlow_turn, if_neg hnull,
    caller_iterate, if_neg hmeets, TraceWalk.next_turn]

/-- At `NULL` the loop is over. -/
theorem stackTraceLoop_null (fuel : Nat) (hnull : heap.next^[n] entry = 0) :
    stackTraceLoop heap (fuel + 1) (TraceWalk.turn heap entry n) = some [] := by
  rw [stackTraceLoop, TraceWalk.entry_turn, if_pos hnull]

/-- When the pointers meet, the loop prints the last entry, reports the cycle and is over. -/
theorem stackTraceLoop_meets (fuel : Nat) (hne : heap.next^[n] entry ≠ 0)
    (hmeets : CycleWalk.Meets heap.next entry n) :
    stackTraceLoop heap (fuel + 1) (TraceWalk.turn heap entry n) =
      some (entryLine heap (heap.next^[n] entry) ++ cycleLine (heap.next^[n / 2] entry)) := by
  unfold CycleWalk.Meets at hmeets
  rw [stackTraceLoop, TraceWalk.entry_turn, TraceWalk.entrySlow_turn, if_neg hne, caller_iterate,
    if_pos hmeets]

/-! ### The trail -/

theorem trail_succ (heap : EntryHeap) (entry n : Nat) :
    trail heap entry (n + 1) = trail heap entry n ++ [heap.next^[n] entry] := by
  rw [trail, List.range_succ, List.map_append]
  rfl

theorem trail_cons (heap : EntryHeap) (entry n : Nat) :
    trail heap entry (n + 1) = entry :: trail heap (heap.next entry) n := by
  rw [trail, List.range_succ_eq_map, List.map_cons, List.map_map]
  rfl

theorem mem_trail {q : Nat} : q ∈ trail heap entry n ↔ ∃ k < n, heap.next^[k] entry = q := by
  simp only [trail, List.mem_map, List.mem_range]

/-- A trail that arrives at `NULL` is a whole list. -/
theorem linked_trail (hne : ∀ k < n, heap.next^[k] entry ≠ 0) (hnull : heap.next^[n] entry = 0) :
    FreeChain.Linked heap.next entry (trail heap entry n) := by
  induction n generalizing entry with
  | zero => exact hnull
  | succ n ih =>
    rw [trail_cons]
    exact ⟨rfl, hne 0 (Nat.succ_pos n), ih (fun k hk => hne (k + 1) (by omega)) hnull⟩

/-- **The run.**  As long as the walk does not stop, the loop prints the entries of the chain. -/
theorem stackTraceLoop_run (fuel : Nat) (hgoes : ∀ k < n, ¬ CycleWalk.Ends heap.next 0 entry k) :
    stackTraceLoop heap (n + fuel) (TraceWalk.start entry) =
      (stackTraceLoop heap fuel (TraceWalk.turn heap entry n)).map
        ((trail heap entry n).flatMap (entryLine heap) ++ ·) := by
  induction n generalizing fuel with
  | zero =>
    rw [Nat.zero_add, TraceWalk.turn_zero]
    simp [trail]
  | succ n ih =>
    rw [Nat.add_right_comm, Nat.add_assoc, ih (fuel + 1) (fun k hk => hgoes k (by omega)),
      stackTraceLoop_turn fuel (hgoes n (by omega)), Option.map_map, trail_succ,
      List.flatMap_append]
    congr 1
    funext out
    simp [List.flatMap_cons]

/-! ### How the loop ends -/

/-- `entry` is an entry of the chain from `start`. -/
def EntryHeap.Reaches (heap : EntryHeap) (start entry : Nat) : Prop :=
  entry ≠ 0 ∧ Relation.ReflTransGen (CycleWalk.Link heap.next 0) start entry

/-- The loop ended at `NULL`: it printed the whole chain, each entry once and in order. -/
structure Printed (heap : EntryHeap) (start : Nat) (out : List Print) (chain : List Nat) :
    Prop where
  linked : FreeChain.Linked heap.next start chain
  once : chain.Nodup
  all : ∀ q, q ∈ chain ↔ heap.Reaches start q
  output : out = chain.flatMap (entryLine heap)

/-- The loop ended with the report of a cycle at `p`: every entry of the chain was printed. -/
structure PrintedCycle (heap : EntryHeap) (start : Nat) (out : List Print) (chain : List Nat)
    (p : Nat) : Prop where
  all : ∀ q, q ∈ chain ↔ heap.Reaches start q
  cycle : Relation.TransGen (CycleWalk.Link heap.next 0) p p
  reached : heap.Reaches start p
  output : out = chain.flatMap (entryLine heap) ++ cycleLine p

/-- The reachable entries, by their place in the chain. -/
theorem reaches_iff {q : Nat} : heap.Reaches entry q ↔
    ∃ k, heap.next^[k] entry = q ∧ ∀ i ≤ k, heap.next^[i] entry ≠ 0 := by
  by_cases hentry : entry = 0
  · constructor
    · rintro ⟨hq, hreach⟩
      rcases Relation.ReflTransGen.cases_head hreach with rfl | ⟨r, hlink, -⟩
      · exact absurd hentry hq
      · exact absurd hentry hlink.1
    · rintro ⟨k, -, hne⟩
      exact absurd hentry (hne 0 (Nat.zero_le k))
  · rw [← CycleWalk.reachable_iff hentry]
    refine ⟨fun h => h.2, fun h => ⟨?_, h⟩⟩
    obtain ⟨k, rfl, hne⟩ := (CycleWalk.reachable_iff hentry).mp h
    exact hne k (Nat.le_refl k)

/-- What the loop prints when its first stop is turn `n`, at `NULL`. -/
theorem printed_of_null (hgoes : ∀ k < n, ¬ CycleWalk.Ends heap.next 0 entry k)
    (hnull : heap.next^[n] entry = 0) :
    (∀ fuel > n, stackTraceLoop heap fuel (TraceWalk.start entry) =
      some ((trail heap entry n).flatMap (entryLine heap))) ∧
    Printed heap entry ((trail heap entry n).flatMap (entryLine heap)) (trail heap entry n) := by
  have hne : ∀ k < n, heap.next^[k] entry ≠ 0 := fun k hk => (not_or.mp (hgoes k hk)).1
  have hlinked := linked_trail hne hnull
  refine ⟨?_, hlinked, hlinked.nodup, ?_, rfl⟩
  · intro fuel hfuel
    obtain ⟨extra, rfl⟩ : ∃ extra, fuel = n + (extra + 1) := ⟨fuel - n - 1, by omega⟩
    rw [stackTraceLoop_run (extra + 1) hgoes, stackTraceLoop_null extra hnull, Option.map_some,
      List.append_nil]
  · intro q
    rw [mem_trail, reaches_iff]
    constructor
    · rintro ⟨k, hk, rfl⟩
      exact ⟨k, rfl, fun i hi => hne i (by omega)⟩
    · rintro ⟨k, rfl, hreach⟩
      -- a reachable entry lies before the end
      have hk : k < n := by
        by_contra hge
        exact hreach n (by omega) hnull
      exact ⟨k, hk, rfl⟩

/-- What the loop prints when its first stop is turn `n`, where the pointers meet. -/
theorem printedCycle_of_meets (hgoes : ∀ k < n, ¬ CycleWalk.Ends heap.next 0 entry k)
    (hnull : heap.next^[n] entry ≠ 0) (hmeets : CycleWalk.Meets heap.next entry n) :
    ∃ out, (∀ fuel > n, stackTraceLoop heap fuel (TraceWalk.start entry) = some out) ∧
      PrintedCycle heap entry out (trail heap entry (n + 1)) (heap.next^[n / 2] entry) ∧
      CycleWalk.RunsIntoCycle heap.next 0 entry := by
  have hne : ∀ k ≤ n, heap.next^[k] entry ≠ 0 := by
    intro k hk
    rcases Nat.lt_or_eq_of_le hk with hlt | rfl
    · exact (not_or.mp (hgoes k hlt)).1
    · exact hnull
  have hall := hmeets.iterate_ne_null hne
  have hreaches : ∀ k, heap.Reaches entry (heap.next^[k] entry) :=
    fun k => reaches_iff.mpr ⟨k, rfl, fun i _ => hall i⟩
  refine ⟨_, ?_, ⟨?_, hmeets.transGen (fun i _ => hall i), hreaches (n / 2), rfl⟩,
    hmeets.runsIntoCycle hne⟩
  · intro fuel hfuel
    obtain ⟨extra, rfl⟩ : ∃ extra, fuel = n + (extra + 1) := ⟨fuel - n - 1, by omega⟩
    rw [stackTraceLoop_run (extra + 1) hgoes, stackTraceLoop_meets extra hnull hmeets,
      Option.map_some, trail_succ, List.flatMap_append, List.flatMap_singleton, List.append_assoc]
  · intro q
    rw [mem_trail]
    constructor
    · rintro ⟨k, -, rfl⟩
      exact hreaches k
    · intro hreach
      obtain ⟨k, rfl, -⟩ := reaches_iff.mp hreach
      obtain ⟨m, hm, heq⟩ := hmeets.iterate_mem k
      exact ⟨m, Nat.lt_succ_of_le hm, heq.symm⟩

/-- **Two outcomes.**  Over a finite heap whose links stay in it or are `NULL`, the loop takes at
    most two turns for each entry and ends in one of the two ways. -/
theorem stackTraceLoop_outcome (heap : EntryHeap) (nodes : Finset Nat) (start : Nat)
    (hclosed : ∀ p ∈ nodes, (heap p).caller = 0 ∨ (heap p).caller ∈ nodes)
    (hstart : start = 0 ∨ start ∈ nodes) :
    ∃ out, (∀ fuel > 2 * nodes.card,
        stackTraceLoop heap fuel (TraceWalk.start start) = some out) ∧
      ((¬ CycleWalk.RunsIntoCycle heap.next 0 start ∧ ∃ chain, Printed heap start out chain) ∨
        (CycleWalk.RunsIntoCycle heap.next 0 start ∧
          ∃ chain p, PrintedCycle heap start out chain p)) := by
  obtain ⟨n, hn, hend, hgoes⟩ := CycleWalk.exists_end nodes hclosed hstart
  by_cases hnull : heap.next^[n] start = 0
  · obtain ⟨hloop, hprinted⟩ := printed_of_null hgoes hnull
    have hacyclic : ¬ CycleWalk.RunsIntoCycle heap.next 0 start :=
      fun hcycle => hcycle.iterate_ne_null n hnull
    exact ⟨_, fun fuel hfuel => hloop fuel (by omega), Or.inl ⟨hacyclic, _, hprinted⟩⟩
  · have hmeets := hend.resolve_left hnull
    obtain ⟨out, hloop, hprinted, hcycle⟩ := printedCycle_of_meets hgoes hnull hmeets
    exact ⟨out, fun fuel hfuel => hloop fuel (by omega), Or.inr ⟨hcycle, _, _, hprinted⟩⟩

/-- **The loop ends.**  For every finite heap of entries and every chain whose links stay in it or
    are `NULL`, the loop ends.  If the chain is acyclic it has printed each entry once and in
    order, and no cycle; if it runs into a cycle it has printed every entry that can be reached
    and then the report of a cycle. -/
theorem stackTraceLoop_ends (heap : EntryHeap) (nodes : Finset Nat) (start : Nat)
    (hclosed : ∀ p ∈ nodes, (heap p).caller = 0 ∨ (heap p).caller ∈ nodes)
    (hstart : start = 0 ∨ start ∈ nodes) :
    ∃ out, (∀ fuel > 2 * nodes.card,
        stackTraceLoop heap fuel (TraceWalk.start start) = some out) ∧
      (¬ CycleWalk.RunsIntoCycle heap.next 0 start → ∃ chain, Printed heap start out chain) ∧
      (CycleWalk.RunsIntoCycle heap.next 0 start →
        ∃ chain p, PrintedCycle heap start out chain p) := by
  obtain ⟨out, hloop, ⟨hacyclic, hprinted⟩ | ⟨hcycle, hprinted⟩⟩ :=
    stackTraceLoop_outcome heap nodes start hclosed hstart
  · exact ⟨out, hloop, fun _ => hprinted, fun hcycle => absurd hcycle hacyclic⟩
  · exact ⟨out, hloop, fun hacyclic => absurd hcycle hacyclic, fun _ => hprinted⟩

/-- Three entries, the last of which was overwritten to call the second again. -/
def sampleHeap : EntryHeap := fun p =>
  if p = 0x80001000 then ⟨0x80001010, some "exchandlers.c:40: "⟩
  else if p = 0x80001010 then ⟨0x80001020, none⟩
  else ⟨0x80001010, some "hypervisor.c:80: "⟩

theorem stackTraceLoop_ends_cycle :
    ∃ out, (∀ fuel > 2 * ({0x80001000, 0x80001010, 0x80001020} : Finset Nat).card,
        stackTraceLoop sampleHeap fuel (TraceWalk.start 0x80001000) = some out) ∧
      ∃ chain p, PrintedCycle sampleHeap 0x80001000 out chain p := by
  have hcycle : CycleWalk.RunsIntoCycle sampleHeap.next 0 0x80001000 := by
    refine ⟨0x80001010, .single (by unfold CycleWalk.Link; decide), ?_⟩
    exact .head (b := 0x80001020) (by unfold CycleWalk.Link; decide)
      (.single (by unfold CycleWalk.Link; decide))
  obtain ⟨out, hloop, -, hprinted⟩ := stackTraceLoop_ends sampleHeap
    {0x80001000, 0x80001010, 0x80001020} 0x80001000 (by decide) (by decide)
  exact ⟨out, hloop, hprinted hcycle⟩

/-- **The panic message.**  Whatever the chain, `panic` gets past the loop to its register
    dump. -/
theorem panicText_ends (heap : EntryHeap) (nodes : Finset Nat) (mepc : Nat)
    (ctx : Option (HostThreadData × Nat))
    (hclosed : ∀ p ∈ nodes, (heap p).caller = 0 ∨ (heap p).caller ∈ nodes)
    (hctx : ∀ c ∈ ctx, c.2 = 0 ∨ c.2 ∈ nodes) :
    ∃ before, ∀ fuel > 2 * nodes.card, panicText heap fuel mepc ctx =
      some (before ++ dumpCallerRegisters mepc (ctx.map Prod.fst)) := by
  cases ctx with
  | none => exact ⟨panicHeader ++ [], fun _ _ => rfl⟩
  | some c =>
    obtain ⟨out, hloop, -⟩ := stackTraceLoop_outcome heap nodes c.2 hclosed (hctx c rfl)
    refine ⟨panicHeader ++ out, fun fuel hfuel => ?_⟩
    show Option.map _ (stackTraceLoop heap fuel (TraceWalk.start c.2)) = _
    rw [hloop fuel hfuel]
    rfl

/-! ### Disciplined use -/

/-- What the rest of the hypervisor does with the stack trace. -/
inductive TraceOp where
  | push (descr : Option String) (buffer : Nat)
  | pop
  | clear

/-- One call. -/
def TraceOp.apply : TraceOp → StackTrace → StackTrace
  | .push descr buffer, st => stackTracePushDescr descr buffer st
  | .pop, st               => stackTracePop st
  | .clear, st             => stackTraceClear st

/-- The entries that are on the chain after a call, latest first, when the call is disciplined:
    it pushes a buffer that is not on the chain yet, or pops an entry that was pushed. -/
def TraceOp.openEntries : TraceOp → List Nat → Option (List Nat)
  | .push _ buffer, l => if buffer ≠ 0 ∧ buffer ∉ l then some (buffer :: l) else none
  | .pop, []          => none
  | .pop, _ :: l      => some l
  | .clear, _         => some []

/-- The chain of the host thread is the list `l`. -/
def StackTrace.Chain (st : StackTrace) (l : List Nat) : Prop :=
  FreeChain.Linked st.heap.next st.stackTraceCaller l

/-- **One call.**  A disciplined call keeps the chain and the list of open entries together. -/
theorem TraceOp.apply_chain {st : StackTrace} {l l' : List Nat} (op : TraceOp)
    (h : st.Chain l) (hop : op.openEntries l = some l') : (op.apply st).Chain l' := by
  unfold StackTrace.Chain at h ⊢
  cases op with
  | push descr buffer =>
    obtain ⟨⟨hne, hfresh⟩, hl⟩ := Option.ite_none_right_eq_some.mp hop
    obtain rfl : buffer :: l = l' := Option.some.inj hl
    refine FreeChain.Linked.push h hne ?_ ?_
    · show (Function.update st.heap buffer _ buffer).caller = _
      rw [Function.update_self]
    · intro q hq
      have hq : q ≠ buffer := fun heq => hfresh (heq ▸ hq)
      show (Function.update st.heap buffer _ q).caller = _
      rw [Function.update_of_ne hq]
      rfl
  | pop =>
    cases l with
    | nil => cases hop
    | cons p l =>
      obtain ⟨htop, -, hrest⟩ := h
      obtain rfl : l = l' := Option.some.inj hop
      rw [← htop] at hrest
      exact hrest
  | clear =>
    obtain rfl : [] = l' := Option.some.inj hop
    rfl

/-- **A run.**  After any sequence of disciplined calls the chain is the list of open entries. -/
theorem chain_run {st : StackTrace} {l l' : List Nat} (ops : List TraceOp) (h : st.Chain l)
    (hops : ops.foldlM (fun l op => op.openEntries l) l = some l') :
    (ops.foldl (fun st op => op.apply st) st).Chain l' := by
  induction ops generalizing st l with
  | nil =>
    obtain rfl : l = l' := Option.some.inj hops
    exact h
  | cons op ops ih =>
    rw [List.foldlM_cons] at hops
    obtain ⟨l1, hop, hops⟩ := Option.bind_eq_some_iff.mp hops
    exact ih (op.apply_chain h hop) hops

/-- A list that ends is the trail of its first entry, up to `NULL`. -/
theorem trail_of_linked {l : List Nat} (h : FreeChain.Linked heap.next entry l) :
    trail heap entry l.length = l ∧ heap.next^[l.length] entry = 0 ∧
      ∀ k < l.length, heap.next^[k] entry ≠ 0 := by
  induction l generalizing entry with
  | nil => exact ⟨rfl, h, fun k hk => absurd hk (Nat.not_lt_zero k)⟩
  | cons p l ih =>
    obtain ⟨rfl, hp, hrest⟩ := h
    obtain ⟨htrail, hend, hne⟩ := ih hrest
    refine ⟨?_, hend, ?_⟩
    · rw [List.length_cons, trail_cons]
      exact congrArg _ htrail
    · intro k hk
      cases k with
      | zero => exact hp
      | succ k => exact hne k (Nat.lt_of_succ_lt_succ hk)

/-- The loop prints a list that ends. -/
theorem stackTraceLoop_linked {l : List Nat} (h : FreeChain.Linked heap.next entry l) (fuel : Nat)
    (hfuel : l.length < fuel) :
    stackTraceLoop heap fuel (TraceWalk.start entry) = some (l.flatMap (entryLine heap)) := by
  obtain ⟨htrail, hend, hne⟩ := trail_of_linked h
  have hgoes : ∀ k < l.length, ¬ CycleWalk.Ends heap.next 0 entry k := by
    rintro k hk (hnull | hmeets)
    · exact hne k hk hnull
    · exact hmeets.iterate_ne_null (fun i hi => hne i (by omega)) l.length hend
  have hloop := (printed_of_null hgoes hend).1 fuel hfuel
  rwa [htrail] at hloop

/-- **Traces.**  After disciplined calls from an empty chain, a panic prints the open entries,
    latest first. -/
theorem disciplined_trace (heap : EntryHeap) (ops : List TraceOp) {l : List Nat} {fuel : Nat}
    (hops : ops.foldlM (fun l op => op.openEntries l) [] = some l) (hfuel : l.length < fuel) :
    let st := ops.foldl (fun st op => op.apply st) ⟨heap, 0⟩
    stackTraceLoop st.heap fuel (TraceWalk.start st.stackTraceCaller) =
      some (l.flatMap (entryLine st.heap)) := by
  have hchain : StackTrace.Chain ⟨heap, 0⟩ [] := rfl
  exact stackTraceLoop_linked (chain_run ops hchain hops) fuel hfuel

end RiscvHypervisor
