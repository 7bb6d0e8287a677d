import RiscvHypervisor.Proof.PageFault

namespace RiscvHypervisor

open Except

/-!
# The console

The hypervisor and its guest share `uart0`.  What the guest sends comes in between two colour
sequences; everything else on the console are messages of the hypervisor.

* `TableLine` — the messages of the page-table code; `Reports st st'` says that going from `st` to
  `st'` nothing but such messages is sent.
* `handlePageFault_reports` — a page fault sends nothing else, unless it is a store to the UART.
* `Rendered sent out` — the console shows `out` when the guest has sent `sent`; the messages have
  no escape character in them, so that `sent` can be read off `out` (`Rendered.read`).
-/

variable {L : Layout} {s s' : State} {st st' st'' : Store}

/-! ### The messages of the page-table code -/

/-- A message about the tables: a new entry of the machine table, or the place of a page of the
    guest's table. -/
inductive TableLine : List (BitVec 8) → Prop where
  | level3 (addr : Nat) : TableLine (lazyMessage "3" addr)
  | level2 (addr : Nat) : TableLine (lazyMessage "2" addr)
  | placement (result : PageFaultHandlerResult) : TableLine (placementMessage result)

/-- Nothing is sent but messages about the tables. -/
def Reports (st st' : Store) : Prop :=
  ∃ lines : List (List (BitVec 8)), (∀ line, line ∈ lines → TableLine line) ∧
    st'.printed = st.printed ++ lines.flatten

namespace Reports

theorem of_eq (h : st'.printed = st.printed) : Reports st st' := by
  refine ⟨[], fun _ hline => absurd hline List.not_mem_nil, ?_⟩
  rw [h, List.flatten_nil, List.append_nil]

theorem refl (st : Store) : Reports st st := of_eq rfl

theorem trans (h : Reports st st') (h' : Reports st' st'') : Reports st st'' := by
  obtain ⟨lines, hlines, heq⟩ := h
  obtain ⟨lines', hlines', heq'⟩ := h'
  refine ⟨lines ++ lines', ?_, ?_⟩
  · intro line hline
    rcases List.mem_append.mp hline with hmem | hmem
    · exact hlines line hmem
    · exact hlines' line hmem
  · rw [heq', heq, List.append_assoc, List.flatten_append]

/-- One message. -/
theorem line {message : List (BitVec 8)} (hline : TableLine message)
    (h : st'.printed = st.printed ++ message) : Reports st st' := by
  refine ⟨[message], ?_, ?_⟩
  · intro line' hmem
    rw [List.mem_singleton.mp hmem]
    exact hline
  · rw [h, List.flatten_singleton]

end Reports

/-! ### Which functions send what -/

@[simp] theorem printed_setEntry (st : Store) (t i v : Nat) :
    (st.setEntry t i v).printed = st.printed := rfl

/-- Taking a page prints nothing, -/
theorem printed_allocatePage (L : Layout) (st : Store) :
    (allocatePage L st).2.printed = st.printed := by
  unfold allocatePage
  split
  · rfl
  split
  · rfl
  · rfl

/-- Zeroing the entries of a page sends nothing. -/
theorem printed_zeroEntries (page : Nat) (l : List Nat) (st : Store) :
    (l.foldl (fun st i => st.setEntry page i 0) st).printed = st.printed := by
  induction l generalizing st with
  | nil => rfl
  | cons i l ih =>
    rw [List.foldl_cons, ih]
    exact printed_setEntry st page i 0

/-- and clearing it does not either. -/
theorem printed_allocatePagepable (L : Layout) (st : Store) :
    (allocatePagepable L st).2.printed = st.printed := by
  unfold allocatePagepable
  dsimp only
  split
  · exact printed_allocatePage L st
  · rw [printed_zeroEntries]
    exact printed_allocatePage L st

/-- A table builder sends its message, or nothing. -/
theorem printed_childTable {onNull : Panic} {message : List (BitVec 8)} {parent vpn c : Nat}
    (h : childTable L onNull message parent vpn st = .ok (c, st')) :
    st'.printed = st.printed ++ message ∨ st'.printed = st.printed := by
  unfold childTable at h
  dsimp only at h
  split at h
  · split at h
    · cases h
    · cases h
      refine Or.inl ?_
      rw [printed_printStringSlice, printed_setEntry, printed_allocatePagepable]
  · cases h
    exact Or.inr rfl

/-- All that `ensure_guest_machine_mapped` prints is about the tables. -/
theorem ensureGuestMachineMapped_reports {machine : Int} {gm : Nat}
    {result : PageFaultHandlerResult} {hm : Option Nat}
    (h : ensureGuestMachineMapped L machine gm st = .ok (result, hm, st')) : Reports st st' := by
  unfold ensureGuestMachineMapped at h
  dsimp only at h
  split at h
  · cases h
    exact Reports.refl st
  split at h
  · cases h
    exact Reports.refl st
  obtain ⟨⟨c, st₁⟩, hchild, h⟩ := bind_eq_ok.mp h
  have h₁ : Reports st st₁ := by
    rcases printed_childTable hchild with hprinted | hprinted
    · exact Reports.line (.level3 _) hprinted
    · exact Reports.of_eq hprinted
  dsimp only at h
  split at h
  · cases h
    exact h₁
  · cases h
    exact h₁.trans (Reports.line (.level2 _) rfl)

/-- The walk goes on after it has complained about the place of a page. -/
theorem resolveGuLoop_reports {stale : Nat → Nat} {machine : Int} {va : Nat} :
    ∀ {fuel offset : Nat} {e : UnpackedPagetableEntry} {st st' : Store} {gm : Option Nat},
      resolveGuLoop L stale machine va fuel offset e st = .ok (gm, st') → Reports st st' := by
  intro fuel
  induction fuel with
  | zero =>
    intro offset e st st' gm h
    cases h
  | succ fuel ih =>
    intro offset e st st' gm h
    rw [resolveGuLoop] at h
    split at h
    · cases h
      exact Reports.refl st
    split at h
    · split at h
      · cases h
        exact Reports.refl st
      · cases h
        exact Reports.refl st
    split at h
    · cases h
      exact Reports.refl st
    obtain ⟨⟨result, next, st₁⟩, hens, h⟩ := bind_eq_ok.mp h
    refine (ensureGuestMachineMapped_reports hens).trans (Reports.trans ?_ (ih h))
    exact Reports.line (.placement result) rfl

/-- **Translation.**  The walk of the guest's table sends messages about the tables only, and on
    the machine table there is no walk. -/
theorem faultToGm_reports {stale : Nat → Nat} {va gm : Nat} {t : State}
    (h : faultToGm L stale va s = .ok (gm, t)) :
    Reports s.store t.store ∧ (s.guest.shadowPtActive = false → t = s) := by
  unfold faultToGm at h
  split at h
  · cases h
    exact ⟨Reports.refl _, fun _ => rfl⟩
  · rename_i hact
    obtain ⟨⟨gm', st⟩, hwalk, h⟩ := bind_eq_ok.mp h
    cases gm' with
    | none => cases h
    | some gm' =>
      cases h
      refine ⟨resolveGuLoop_reports hwalk, fun hinactive => ?_⟩
      rw [hinactive] at hact
      exact absurd rfl hact

/-- Writing a shadow leaf prints nothing. -/
theorem printed_writeShadowLeaf (parent vpn0 hmPage : Nat) (acc : MempermIndex) (st : Store) :
    (writeShadowLeaf parent vpn0 hmPage acc st).2.printed = st.printed := by
  unfold writeShadowLeaf
  dsimp only
  generalize (if (unpackPtEntry (st.entry parent vpn0)).address ≠ hmPage then
    (⟨hmPage, permbit .v ||| permbit .u⟩ : UnpackedPagetableEntry)
    else unpackPtEntry (st.entry parent vpn0)) = leaf
  split
  · rfl
  · rfl

/-- The shadow table is built in silence. -/
theorem printed_updateShadowPt {root gu hm : Nat} {acc : MempermIndex}
    {result : PageFaultHandlerResult} (h : updateShadowPt L root gu hm acc st = .ok (result, st')) :
    st'.printed = st.printed := by
  -- a table without a message
  have hsilent : ∀ {parent vpn c : Nat} {st st' : Store},
      childTable L .shadowTableAlloc [] parent vpn st = .ok (c, st') →
        st'.printed = st.printed := by
    intro parent vpn c st st' hchild
    rcases printed_childTable hchild with hprinted | hprinted
    · rw [hprinted, List.append_nil]
    · exact hprinted
  unfold updateShadowPt at h
  dsimp only at h
  split at h
  · cases h
  split at h
  · cases h
    rfl
  obtain ⟨⟨c, st₁⟩, hchild, h⟩ := bind_eq_ok.mp h
  obtain ⟨⟨c', st₂⟩, hchild', h⟩ := bind_eq_ok.mp h
  have hleaf : (writeShadowLeaf c' _ _ acc st₂).2 = st' := congrArg Prod.snd (Except.ok.inj h)
  rw [← hleaf, printed_writeShadowLeaf, hsilent hchild', hsilent hchild]

/-- **Page faults.**  A page fault sends messages about the tables only, after which it may be a
    store that sends something to the UART. -/
theorem handlePageFault_reports {stale : Nat → Nat} {acc : MempermIndex}
    {result : PageFaultHandlerResult} {va : Word}
    (h : handlePageFault L stale acc s = .ok (result, va, s')) :
    ∃ access gm st, faultToGm L stale va.toNat s = .ok (gm, { s with store := st }) ∧
      (gm < RAM_START ∧ emulateDevice acc access gm { s with store := st } = (result, s') ∧
          Reports s.store st ∨
        Reports s.store s'.store) := by
  obtain ⟨access, gm, st, -, rfl, hgm, hcases⟩ := handlePageFault_cases h
  have htranslate : Reports s.store st := (faultToGm_reports hgm).1
  refine ⟨access, gm, st, hgm, ?_⟩
  rcases hcases with ⟨hlow, hdev⟩ | ⟨-, -, rfl⟩ | ⟨-, result₁, hm, st₂, hens, hresult₁, hfinish⟩
  · exact Or.inl ⟨hlow, hdev, htranslate⟩
  · exact Or.inr htranslate
  · refine Or.inr ((htranslate.trans (ensureGuestMachineMapped_reports hens)).trans ?_)
    rw [finishFault_ram hresult₁] at hfinish
    split at hfinish
    · obtain ⟨⟨result', st'⟩, hupdate, hfinish⟩ := bind_eq_ok.mp hfinish
      cases hfinish
      exact Reports.of_eq (printed_updateShadowPt hupdate)
    · cases hfinish
      exact Reports.refl _

/-! ### Reading the console -/

/-- A message of the hypervisor that is not the last one, as that of a panic is. -/
inductive Message : List (BitVec 8) → Prop where
  | table {line : List (BitVec 8)} (h : TableLine line) : Message line
  | access (mcause : Word) : Message (accessFaultMessage mcause)

/-- The console shows `out` when the guest has sent `sent`. -/
inductive Rendered : (sent out : List (BitVec 8)) → Prop where
  | nil : Rendered [] []
  | message {sent out line : List (BitVec 8)} (before : Rendered sent out) (h : Message line) :
      Rendered sent (out ++ line)
  | byte {sent out : List (BitVec 8)} (before : Rendered sent out) (b : BitVec 8) :
      Rendered (sent ++ [b]) (out ++ (uartColourOn ++ [b] ++ uartColourOff))

/-- Messages about tables do not come between the guest's bytes and their colours. -/
theorem Rendered.lines {sent : List (BitVec 8)} : ∀ (lines : List (List (BitVec 8)))
    {out : List (BitVec 8)}, Rendered sent out → (∀ line ∈ lines, TableLine line) →
    Rendered sent (out ++ lines.flatten) := by
  intro lines
  induction lines with
  | nil =>
    intro out h _
    rw [List.flatten_nil, List.append_nil]
    exact h
  | cons line lines ih =>
    intro out h hlines
    rw [List.flatten_cons, ← List.append_assoc]
    refine ih (h.message (.table (hlines line List.mem_cons_self))) ?_
    exact fun line' hmem => hlines line' (List.mem_cons_of_mem line hmem)

/-- Reports are rendered like everything else that is printed. -/
theorem Rendered.reports {sent : List (BitVec 8)} (h : Rendered sent st.printed)
    (hreports : Reports st st') : Rendered sent st'.printed := by
  obtain ⟨lines, hlines, heq⟩ := hreports
  rw [heq]
  exact h.lines lines hlines

/-- A reader of the console: where in the colouring of a byte it is, and what it has read. -/
structure Reader where
  position : Nat
  read : List (BitVec 8)

/-- It waits for an escape character, skips the rest of the colour sequence, takes one byte, and
    skips the sequence after it. -/
def Reader.step (r : Reader) (b : BitVec 8) : Reader :=
  if r.position = 0 then if b = 0x1B then ⟨1, r.read⟩ else r
  else if r.position = uartColourOn.length then ⟨r.position + 1, r.read ++ [b]⟩
  else if r.position = uartColourOn.length + uartColourOff.length then ⟨0, r.read⟩
  else ⟨r.position + 1, r.read⟩

/-- Plain text is skipped. -/
theorem Reader.foldl_plain {r : Reader} (hr : r.position = 0) {line : List (BitVec 8)}
    (hline : (0x1B : BitVec 8) ∉ line) : line.foldl Reader.step r = r := by
  induction line with
  | nil => rfl
  | cons b line ih =>
    have hb : b ≠ 0x1B := fun hc => hline (hc ▸ List.mem_cons_self)
    have hstep : r.step b = r := by
      unfold Reader.step
      rw [if_pos hr, if_neg hb]
    rw [List.foldl_cons, hstep]
    exact ih (fun hc => hline (List.mem_cons_of_mem b hc))

/-- The digits of an address are plain text. -/
theorem nibbleByte_ne_escape {c : Nat} (hc : c < 16) : nibbleByte c ≠ 0x1B := by
  revert c
  decide

/-- An address is printed in hexadecimal digits, so it holds no escape byte. -/
theorem printAddrLoop_plain : ∀ (i num : Nat) {buf : List (BitVec 8)},
    (0x1B : BitVec 8) ∉ buf → (0x1B : BitVec 8) ∉ printAddrLoop i num buf := by
  intro i
  induction i with
  | zero => exact fun _ _ h => h
  | succ i ih =>
    intro num buf hbuf
    rw [printAddrLoop]
    refine ih _ ?_
    have hhigh : (0x1B : BitVec 8) ≠ nibbleByte (num % 256 / 16) :=
      (nibbleByte_ne_escape (by omega)).symm
    have hlow : (0x1B : BitVec 8) ≠ nibbleByte (num % 256 % 16) :=
      (nibbleByte_ne_escape (by omega)).symm
    rw [List.mem_cons, List.mem_cons, not_or, not_or]
    exact ⟨hhigh, hlow, hbuf⟩

/-- And neither does the whole rendering of an address. -/
theorem addrBytes_plain (num : Nat) : (0x1B : BitVec 8) ∉ addrBytes num := by
  unfold addrBytes
  rw [List.mem_append, not_or]
  exact ⟨by decide, printAddrLoop_plain 8 num List.not_mem_nil⟩

/-- No message has an escape character in it. -/
theorem Message.plain {line : List (BitVec 8)} (h : Message line) :
    (0x1B : BitVec 8) ∉ line := by
  -- around the address a message is a literal
  have hlazy : ∀ level, (0x1B : BitVec 8) ∉ stringBytes
      ("[Lazy-initializing level " ++ level ++ " page of ") → ∀ addr,
      (0x1B : BitVec 8) ∉ lazyMessage level addr := by
    intro level hlevel addr
    unfold lazyMessage
    rw [List.mem_append, List.mem_append, not_or, not_or]
    exact ⟨⟨hlevel, addrBytes_plain addr⟩, by decide⟩
  cases h with
  | table h =>
    cases h with
    | level3 addr => exact hlazy "3" (by decide) addr
    | level2 addr => exact hlazy "2" (by decide) addr
    | placement result => cases result <;> decide
  | access mcause =>
    unfold accessFaultMessage
    split
    · decide
    split
    · decide
    · decide

/-- A byte of the guest is found between its colour sequences. -/
theorem Reader.foldl_byte (sent : List (BitVec 8)) (b : BitVec 8) :
    (uartColourOn ++ [b] ++ uartColourOff).foldl Reader.step ⟨0, sent⟩ = ⟨0, sent ++ [b]⟩ := by
  have hon : uartColourOn = [0x1B, 0x5B, 0x30, 0x3B, 0x39, 0x32, 0x6D] := by decide
  have hoff : uartColourOff = [0x1B, 0x5B, 0x30, 0x6D] := by decide
  simp [Reader.step, hon, hoff]

/-- **Reading.**  What the guest has sent can be read off the console. -/
theorem Rendered.read {sent out : List (BitVec 8)} (h : Rendered sent out) :
    out.foldl Reader.step ⟨0, []⟩ = ⟨0, sent⟩ := by
  induction h with
  | nil => rfl
  | message _ hline ih =>
    rw [List.foldl_append, ih]
    exact Reader.foldl_plain rfl hline.plain
  | byte _ b ih =>
    rw [List.foldl_append, ih]
    exact Reader.foldl_byte _ b

end RiscvHypervisor
