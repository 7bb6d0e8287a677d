import Mathlib.Data.List.Infix
import RiscvHypervisor.Proof.Delivery
import RiscvHypervisor.Proof.Emulation

namespace RiscvHypervisor

open ByteMem Except

/-!
# Virtual time

`time_forward` says when the guest's clock runs forward.

The guest's clock is the host's minus the adjustment, which grows at every exit by the time the exit
took and 50 ticks more.  Whether it runs forward therefore depends on how long the guest has run
between its exits.
-/

variable {L : Layout} {s s' : State}

/-! ### Reading the clock -/

/-- What the guest reads from `clint.mtime` at an exit, if the exit is such a load.  The faulting
    instruction is decoded, and its address translated, as `handle_page_fault` does once the message
    of an access fault is out. -/
def mtimeRead (L : Layout) (stale : Nat → Nat) (s : State) : Option Word := do
  if s.hart.mcause = 5 ∨ s.hart.mcause = 13 then
    let s := s.print (accessFaultMessage s.hart.mcause)
    let access ← (decodeFault L .r s).toOption
    let (gm, s) ← (faultToGm L stale access.address.toNat s).toOption
    if gm = 0x0200BFF8 ∧ access.width = .w64 ∧ access.reg ≠ 0 then some (timerGetTimeVirtual s)
    else none
  else none

/-- A load of `clint.mtime`, as the handler sees it. -/
theorem mtimeRead_cases {stale : Nat → Nat} {v : Word} (h : mtimeRead L stale s = some v) :
    (s.hart.mcause = 5 ∨ s.hart.mcause = 13) ∧
      ∃ access t, decodeFault L .r (s.print (accessFaultMessage s.hart.mcause)) = .ok access ∧
        faultToGm L stale access.address.toNat (s.print (accessFaultMessage s.hart.mcause)) =
          .ok (0x0200BFF8, t) ∧
        access.width = .w64 ∧ access.reg ≠ 0 ∧ v = timerGetTimeVirtual t := by
  unfold mtimeRead at h
  by_cases hcause : s.hart.mcause = 5 ∨ s.hart.mcause = 13
  swap
  · rw [if_neg hcause] at h
    cases h
  rw [if_pos hcause] at h
  obtain ⟨access, haccess, h⟩ := Option.bind_eq_some_iff.mp h
  obtain ⟨⟨gm, t⟩, hgm, h⟩ := Option.bind_eq_some_iff.mp h
  dsimp only at h
  split at h
  · rename_i hload
    obtain ⟨rfl, hwidth, hreg⟩ := hload
    refine ⟨hcause, access, t, toOption_eq_some.mp haccess, toOption_eq_some.mp hgm, hwidth, hreg,
      ?_⟩
    exact (Option.some.inj h).symm
  · cases h

/-- The value read is the virtual time at the dispatch. -/
theorem mtimeRead_eq {stale : Nat → Nat} {v : Word} (h : mtimeRead L stale s = some v) :
    v = s.clint.mtime - s.guest.timerAdjustment := by
  obtain ⟨-, access, t, -, hgm, -, -, hv⟩ := mtimeRead_cases h
  obtain ⟨st, rfl⟩ := faultToGm_store hgm
  exact hv

/-- The device half of such a load. -/
theorem emulateDevice_mtime {access : DecodedAccess} (hwidth : access.width = .w64)
    (hreg : access.reg ≠ 0) (t : State) :
    emulateDevice .r access 0x0200BFF8 t =
      (.success, (t.setReg (access.reg - 1) (timerGetTimeVirtual t)).setMepc
        (t.hart.mepc + BitVec.ofNat 64 access.pcAdvance)) := by
  have hload : virtualMmdevLoad 0x0200BFF8 access.regPtr access.width t =
      (.success, writeRegLow t access.regPtr .w64 (timerGetTimeVirtual t)) := by
    rw [hwidth]
    rfl
  have hptr : access.regPtr = some (access.reg - 1) := if_neg hreg
  rw [emulateDevice_of_load hload, hwidth, hptr, resetUpperBits_writeRegLow,
    MemoryAccessWidth.extend_w64]

/-- **Loads of the clock.**  The value `mtimeRead` is what the handler leaves in the destination
    register. -/
theorem mtimeRead_loaded {stale : Nat → Nat} {v : Word}
    (huser : s.hart.mstatus &&& MSTATUS_MPP_MASK = MSTATUS_MPP_U)
    (hread : mtimeRead L stale s = some v) :
    ∃ access s', decodeFault L .r (s.print (accessFaultMessage s.hart.mcause)) = .ok access ∧
      dispatch L stale s = .ok s' ∧ s'.host.activeRegs (access.reg - 1) = v := by
  obtain ⟨hcause, access, t, haccess, hgm, hwidth, hreg, rfl⟩ := mtimeRead_cases hread
  have hdisp : dispatch L stale s =
      handleAccessFault L stale .r (s.print (accessFaultMessage s.hart.mcause)) := by
    unfold dispatch handleGuestException
    dsimp only
    generalize s.print (accessFaultMessage s.hart.mcause) = s₁
    rcases hcause with hc | hc
    · rw [hc, if_neg (by decide), if_neg (not_not_intro huser), if_neg (by decide),
        if_neg (by decide), if_neg (by decide), if_pos (by decide)]
    · rw [hc, if_neg (by decide), if_neg (not_not_intro huser), if_neg (by decide),
        if_neg (by decide), if_neg (by decide), if_pos (by decide)]
  -- `clint.mtime` is below guest RAM: the access goes to the devices
  have hfault : handlePageFault L stale .r (s.print (accessFaultMessage s.hart.mcause)) =
      .ok (.success, access.address,
        (t.setReg (access.reg - 1) (timerGetTimeVirtual t)).setMepc
          (t.hart.mepc + BitVec.ofNat 64 access.pcAdvance)) := by
    rw [handlePageFault_low haccess hgm (by decide), emulateDevice_mtime hwidth hreg]
  refine ⟨access, _, haccess, hdisp.trans (bind_eq_ok.mpr ⟨_, hfault, rfl⟩), ?_⟩
  exact Function.update_self _ _ _

/-! ### The exits of a run -/

/-- An exit of the guest: the host clock during it, what the guest read from `clint.mtime`, if it
    did, and the adjustment it went on with. -/
structure Exit where
  reads : MtimeReads
  read : Option Word
  adjustment : Word

/-- A run of the system that has reached `s`, with its exits, latest first. -/
inductive ClockRun (L : Layout) : State → List Exit → Prop where
  | boot {s : State} (on : PowerOn L s) : ClockRun L (bootMain L s) []
  | between {s s' : State} {ev : GuestEvent} {hist : List Exit} (before : ClockRun L s hist)
      (step : Step L s ev s')
      (inside : ∀ mcause mtval reads stale, ev ≠ .trap mcause mtval reads stale) :
      ClockRun L s' hist
  | trap {s s' : State} {mcause mtval : Word} {reads : MtimeReads} {stale : Nat → Nat}
      {hist : List Exit} (before : ClockRun L s hist) (clock : reads.Monotone s.clint.mtime)
      (handled : exception L stale reads (s.trapEntry mcause mtval) = .ok s') :
      ClockRun L s' (⟨reads, mtimeRead L stale (suspended L reads (s.trapEntry mcause mtval)),
        s'.guest.timerAdjustment⟩ :: hist)

theorem ClockRun.reachable {hist : List Exit} (h : ClockRun L s hist) : Reachable L s := by
  induction h with
  | boot on => exact .boot on
  | between before step inside ih => exact ih.step step
  | trap before clock handled ih => exact ih.step (.trap clock handled)

/-- What the exits have charged to the guest's clock. -/
def charged : List Exit → Nat
  | []        => 0
  | e :: rest => charged rest + (e.reads.resume.toNat - e.reads.suspend.toNat + 50)

/-- The host ticks outside the exits, up to the latest one. -/
def ran : List Exit → Nat
  | []              => 0
  | [e]             => e.reads.suspend.toNat
  | e :: e' :: rest => ran (e' :: rest) + (e.reads.suspend.toNat - e'.reads.resume.toNat)

/-- The time from the start of the latest exit to the dispatch, when the clock is read. -/
def lag : List Exit → Nat
  | []     => 0
  | e :: _ => e.reads.handle.toNat - e.reads.suspend.toNat

/-- What the guest read at the latest exit. -/
def readOf : List Exit → Option Word
  | []     => none
  | e :: _ => e.read

/-- The clock at the end of the latest exit. -/
def clockAfter : List Exit → Word
  | []     => 0
  | e :: _ => e.reads.reschedule

/-- What a run records about its exits. -/
def Recorded : List Exit → Prop
  | []        => True
  | e :: rest => Recorded rest ∧ e.reads.Monotone (clockAfter rest) ∧
    e.adjustment = BitVec.ofNat 64 (charged (e :: rest)) ∧
    ∀ v, e.read = some v → v = e.reads.handle - BitVec.ofNat 64 (charged rest)

/-! ### The adjustment -/

/-- The fields of the virtual clock. -/
def GuestThreadContext.clock (g : GuestThreadContext) : Word × Word :=
  (g.timerAdjustment, g.timerSuspendedAt)

theorem Checked.clock {t : State} (h : Checked L t s') : s'.guest.clock = t.guest.clock := by
  rcases h.cases with ⟨rfl, -⟩ | hdel
  · rfl
  · rw [hdel.trapped.guest, State.guest_setGuest]
    rfl

/-- No handler touches the virtual clock. -/
theorem Effect.clock (h : Effect L s s') : s'.guest.clock = s.guest.clock := by
  cases h with
  | quiet guest trace => rw [guest]
  | mtimecmpStore deadline guest trace =>
    rw [guest]
    rfl
  | csr t written checked =>
    obtain ⟨csr, hguest, -⟩ := written.guest
    rw [checked.clock, hguest]
    rfl
  | mret t returned checked =>
    obtain ⟨root, active, hguest⟩ := returned.guest
    rw [checked.clock, hguest]
    rfl
  | ecall user trapped =>
    rw [trapped.guest]
    rfl
  | timerLost cause target pending guest trace =>
    rw [guest]
    rfl
  | timer t cause target free guest trace checked =>
    rw [checked.clock, guest]
    rfl

/-- **Charging.**  An exit adds the time it took, and 50 ticks, to the adjustment. -/
theorem exception_adjustment {stale : Nat → Nat} {reads : MtimeReads}
    (h : exception L stale reads s = .ok s') :
    s'.guest.timerAdjustment = s.guest.timerAdjustment + (reads.resume - reads.suspend + 50) := by
  obtain ⟨s₁, hdispatch, hguest, -⟩ := exception_dispatch h
  have hclock := (dispatch_effect hdispatch).clock
  rw [guest_suspended] at hclock
  obtain ⟨hadj, hat⟩ := Prod.mk.inj hclock
  rw [hguest]
  show s₁.guest.timerAdjustment + (reads.resume - s₁.guest.timerSuspendedAt + 50) = _
  rw [hadj, hat]

/-- The same in natural numbers. -/
theorem ofNat_charged {e : Exit} {rest : List Exit} (h : e.reads.suspend ≤ e.reads.resume) :
    BitVec.ofNat 64 (charged (e :: rest)) =
      BitVec.ofNat 64 (charged rest) + (e.reads.resume - e.reads.suspend + 50) := by
  have hdiff : e.reads.resume - e.reads.suspend =
      BitVec.ofNat 64 (e.reads.resume.toNat - e.reads.suspend.toNat) := by
    apply BitVec.eq_of_toNat_eq
    rw [BitVec.toNat_sub_of_le h, BitVec.toNat_ofNat, Nat.mod_eq_of_lt]
    exact lt_of_le_of_lt (Nat.sub_le _ _) e.reads.resume.isLt
  rw [charged, hdiff, BitVec.ofNat_add, BitVec.ofNat_add]
  rfl

theorem MtimeReads.Monotone.suspend_le_resume {r : MtimeReads} {now : Word} (h : r.Monotone now) :
    r.suspend ≤ r.resume := BitVec.le_trans h.2.1 h.2.2.1

/-- **Records.**  A run records its exits as they are, and the guest's adjustment is what they have
    charged. -/
theorem ClockRun.recorded {hist : List Exit} (h : ClockRun L s hist) :
    Recorded hist ∧ s.guest.timerAdjustment = BitVec.ofNat 64 (charged hist) ∧
      clockAfter hist ≤ s.clint.mtime := by
  induction h with
  | @boot s on =>
    refine ⟨trivial, ?_, Nat.zero_le _⟩
    rw [on.guest_bootMain]
    rfl
  | between before step inside ih =>
    rcases step.between_or_trap before.reachable.inv with ⟨hguest, -, hclint⟩ | ⟨_, _, _, _, hev, -⟩
    · rw [hguest, hclint]
      exact ih
    · exact absurd hev (inside _ _ _ _)
  | @trap s s' mcause mtval reads stale hist before clock handled ih =>
    obtain ⟨hrec, hadj, hnow⟩ := ih
    have hadj' := exception_adjustment handled
    rw [show (s.trapEntry mcause mtval).guest = s.guest from rfl, hadj] at hadj'
    -- this exit is charged on top of the earlier ones
    have hcharged : s'.guest.timerAdjustment = BitVec.ofNat 64 (charged (⟨reads, mtimeRead L stale
        (suspended L reads (s.trapEntry mcause mtval)), s'.guest.timerAdjustment⟩ :: hist)) :=
      hadj'.trans (ofNat_charged (e := ⟨reads, _, _⟩) clock.suspend_le_resume).symm
    refine ⟨⟨hrec, ⟨BitVec.le_trans hnow clock.1, clock.2⟩, hcharged, ?_⟩, hcharged, ?_⟩
    · intro v hv
      rw [mtimeRead_eq hv, guest_suspended, ← hadj]
      rfl
    · rw [exception_mtime handled]
      exact BitVec.le_refl _

/-! ### The clock in natural numbers -/

section

variable {e : Exit} {rest hist h : List Exit}

theorem Recorded.of_mem_tails (hrec : Recorded hist) (hh : h ∈ hist.tails) : Recorded h := by
  induction hist with
  | nil =>
    rw [List.tails, List.mem_singleton] at hh
    rw [hh]
    exact hrec
  | cons e rest ih =>
    rw [List.tails, List.mem_cons] at hh
    rcases hh with rfl | hh
    · exact hrec
    · exact ih hrec.1 hh

/-- **Bookkeeping.**  The time up to an exit is what the guest ran and what it was charged, except
    for the 50 ticks of each exit. -/
theorem Recorded.ran_add_charged (hrec : Recorded (e :: rest)) :
    ran (e :: rest) + charged rest = e.reads.suspend.toNat + 50 * rest.length := by
  induction rest generalizing e with
  | nil => rfl
  | cons e' rest ih =>
    obtain ⟨hrec', hclock, -⟩ := hrec
    have hih := ih hrec'
    have hbefore : e'.reads.resume.toNat ≤ e.reads.suspend.toNat :=
      Nat.le_trans hrec'.2.1.2.2.2 hclock.1
    have hinside : e'.reads.suspend.toNat ≤ e'.reads.resume.toNat := hrec'.2.1.suspend_le_resume
    rw [ran, charged, List.length_cons]
    omega

/-- The charge stays behind the clock exactly if the guest ran 50 ticks for each exit. -/
theorem Recorded.charged_le_iff (hrec : Recorded (e :: rest)) :
    charged (e :: rest) ≤ e.reads.resume.toNat ↔ 50 * (e :: rest).length ≤ ran (e :: rest) := by
  have hbook := hrec.ran_add_charged
  have hinside : e.reads.suspend.toNat ≤ e.reads.resume.toNat := hrec.2.1.suspend_le_resume
  rw [charged, List.length_cons]
  omega

theorem Recorded.charged_le_clock (hrec : Recorded hist) (hran : 50 * hist.length ≤ ran hist) :
    charged hist ≤ (clockAfter hist).toNat := by
  cases hist with
  | nil => exact Nat.zero_le _
  | cons e rest => exact Nat.le_trans (hrec.charged_le_iff.mpr hran) hrec.2.1.2.2.2

/-- What the guest reads: the time it has run, and the start of the exit, less 50 ticks for each
    earlier exit. -/
theorem Recorded.readOf_toNat (hrec : Recorded h) (hran : 50 * h.tail.length ≤ ran h.tail)
    {v : Word} (hv : readOf h = some v) : v.toNat + 50 * h.length = ran h + lag h + 50 := by
  cases h with
  | nil => cases hv
  | cons e rest =>
    obtain ⟨hrest, hclock, -, hread⟩ := id hrec
    have hbook := hrec.ran_add_charged
    have hsuspend : e.reads.suspend.toNat ≤ e.reads.handle.toNat := hclock.2.1
    have hbehind : charged rest ≤ e.reads.suspend.toNat :=
      Nat.le_trans (hrest.charged_le_clock hran) hclock.1
    have hsmall : (BitVec.ofNat 64 (charged rest)).toNat = charged rest := by
      rw [BitVec.toNat_ofNat, Nat.mod_eq_of_lt]
      exact lt_of_le_of_lt hbehind e.reads.suspend.isLt
    have hle : BitVec.ofNat 64 (charged rest) ≤ e.reads.handle := by
      rw [BitVec.le_def, hsmall]
      exact Nat.le_trans hbehind hsuspend
    rw [hread v hv, BitVec.toNat_sub_of_le hle, hsmall, lag, List.length_cons]
    omega

theorem filterMap_read_tails (hist : List Exit) :
    hist.filterMap Exit.read = hist.tails.filterMap readOf := by
  induction hist with
  | nil => rfl
  | cons e rest ih => rw [List.tails, List.filterMap_cons, List.filterMap_cons, ih, readOf]

end

/-! ### Time runs forward -/

/-- **Spacing.**  Enough host ticks pass outside the exits: up to every exit 50 for each exit so
    far, and from one read of the clock to a later one 50 for each exit in between, where the time
    from the start of an exit to its read counts as well. -/
structure Spaced (hist : List Exit) : Prop where
  exits : ∀ h ∈ hist.tails, 50 * h.length ≤ ran h
  reads : hist.tails.Pairwise fun later earlier =>
    (readOf later).isSome → (readOf earlier).isSome →
      ran earlier + lag earlier + 50 * later.length ≤ ran later + lag later + 50 * earlier.length

instance (hist : List Exit) : Decidable (Spaced hist) :=
  decidable_of_iff (_ ∧ _) ⟨fun h => ⟨h.1, h.2⟩, fun h => ⟨h.exits, h.reads⟩⟩

/-- **The guest's time.**  The adjustment never exceeds the host's clock, and what the guest reads
    never goes down. -/
structure Forward (hist : List Exit) : Prop where
  behind : ∀ e ∈ hist, e.adjustment ≤ e.reads.resume
  reads : (hist.filterMap Exit.read).Pairwise fun later earlier => earlier ≤ later

section

variable {hist : List Exit}

theorem reads_forward_iff (hrec : Recorded hist)
    (hexits : ∀ h ∈ hist.tails, 50 * h.length ≤ ran h) :
    ((hist.filterMap Exit.read).Pairwise fun later earlier => earlier ≤ later) ↔
      hist.tails.Pairwise fun later earlier =>
        (readOf later).isSome → (readOf earlier).isSome →
          ran earlier + lag earlier + 50 * later.length ≤
            ran later + lag later + 50 * earlier.length := by
  rw [filterMap_read_tails, List.pairwise_filterMap]
  -- what is read, in natural numbers: the subtraction of the code does not wrap
  have hvalue : ∀ h ∈ hist.tails, ∀ v, readOf h = some v →
      v.toNat + 50 * h.length = ran h + lag h + 50 := by
    intro h hh v hv
    refine (hrec.of_mem_tails hh).readOf_toNat (hexits _ ?_) hv
    rw [List.mem_tails] at hh ⊢
    exact (List.tail_suffix h).trans hh
  apply List.Pairwise.iff_of_mem
  intro later earlier hlater hearlier
  constructor
  · intro hle hsome hsome'
    obtain ⟨v, hv⟩ := Option.isSome_iff_exists.mp hsome
    obtain ⟨v', hv'⟩ := Option.isSome_iff_exists.mp hsome'
    have hvle := hle v hv v' hv'
    rw [BitVec.le_def] at hvle
    have h₁ := hvalue later hlater v hv
    have h₂ := hvalue earlier hearlier v' hv'
    omega
  · intro hspaced v hv v' hv'
    have hran := hspaced (by rw [hv]; rfl) (by rw [hv']; rfl)
    have h₁ := hvalue later hlater v hv
    have h₂ := hvalue earlier hearlier v' hv'
    rw [BitVec.le_def]
    omega

theorem behind_of_exits (hrec : Recorded hist) (hexits : ∀ h ∈ hist.tails, 50 * h.length ≤ ran h) :
    ∀ e ∈ hist, e.adjustment ≤ e.reads.resume := by
  intro e he
  obtain ⟨later, rest, rfl⟩ := List.append_of_mem he
  have hmem : e :: rest ∈ (later ++ e :: rest).tails := by
    rw [List.mem_tails]
    exact List.suffix_append _ _
  have hrec' := hrec.of_mem_tails hmem
  rw [BitVec.le_def, hrec'.2.2.1, BitVec.toNat_ofNat]
  exact Nat.le_trans (Nat.mod_le _ _) (hrec'.charged_le_iff.mpr (hexits _ hmem))

/-- The clock of every exit is behind the latest. -/
theorem Recorded.resume_le_clock (hrec : Recorded hist) :
    ∀ e ∈ hist, e.reads.resume ≤ clockAfter hist := by
  induction hist with
  | nil => exact fun _ he => absurd he List.not_mem_nil
  | cons e rest ih =>
    intro e' he'
    obtain ⟨hrest, hclock, -⟩ := hrec
    rcases List.mem_cons.mp he' with rfl | he'
    · exact hclock.2.2.2
    · refine BitVec.le_trans (ih hrest e' he') (BitVec.le_trans hclock.1 ?_)
      exact BitVec.le_trans hclock.suspend_le_resume hclock.2.2.2

/-- Conversely, an adjustment that is behind the clock has not been charged too much, unless it
    wrapped around at the very end of the host's time. -/
theorem exits_of_behind (hrec : Recorded hist)
    (hlast : ∀ e ∈ hist, e.reads.resume.toNat + 50 < 2 ^ 64)
    (hbehind : ∀ e ∈ hist, e.adjustment ≤ e.reads.resume) :
    ∀ h ∈ hist.tails, 50 * h.length ≤ ran h := by
  induction hist with
  | nil =>
    intro h hh
    rw [List.tails, List.mem_singleton] at hh
    rw [hh]
    exact Nat.zero_le _
  | cons e rest ih =>
    have hrest := ih hrec.1 (fun e' he' => hlast e' (List.mem_cons_of_mem _ he'))
      (fun e' he' => hbehind e' (List.mem_cons_of_mem _ he'))
    intro h hh
    rw [List.tails, List.mem_cons] at hh
    rcases hh with rfl | hh
    swap
    · exact hrest h hh
    -- the earlier exits are behind, so that this one cannot wrap the charge around
    have hbefore : charged rest ≤ e.reads.suspend.toNat :=
      Nat.le_trans (hrec.1.charged_le_clock (hrest rest ((List.mem_tails _ _).mpr List.suffix_rfl)))
        hrec.2.1.1
    have hinside : e.reads.suspend.toNat ≤ e.reads.resume.toNat := hrec.2.1.suspend_le_resume
    have hsmall : charged (e :: rest) < 2 ^ 64 := by
      have hend := hlast e List.mem_cons_self
      rw [charged]
      omega
    have hle := hbehind e List.mem_cons_self
    rw [BitVec.le_def, hrec.2.2.1, BitVec.toNat_ofNat, Nat.mod_eq_of_lt hsmall] at hle
    exact hrec.charged_le_iff.mp hle

/-- **Time runs forward.**  In every run whose exits are spaced the adjustment stays behind the
    host's clock, in the state reached and at every earlier exit, and no read of `clint.mtime` is
    below an earlier one.  Until the end of the host's time no other run has this property. -/
theorem time_forward (h : ClockRun L s hist) :
    (Spaced hist → Forward hist ∧ s.guest.timerAdjustment ≤ s.clint.mtime) ∧
      (s.clint.mtime.toNat + 50 < 2 ^ 64 → Forward hist → Spaced hist) := by
  obtain ⟨hrec, hadj, hnow⟩ := h.recorded
  constructor
  · intro hspaced
    refine ⟨⟨behind_of_exits hrec hspaced.exits,
      (reads_forward_iff hrec hspaced.exits).mpr hspaced.reads⟩, ?_⟩
    have hcharged := hrec.charged_le_clock
      (hspaced.exits hist ((List.mem_tails _ _).mpr List.suffix_rfl))
    rw [BitVec.le_def, hadj, BitVec.toNat_ofNat]
    exact Nat.le_trans (Nat.mod_le _ _) (Nat.le_trans hcharged hnow)
  · intro hend hforward
    have hlast : ∀ e ∈ hist, e.reads.resume.toNat + 50 < 2 ^ 64 := by
      intro e he
      have hle := BitVec.le_trans (hrec.resume_le_clock e he) hnow
      rw [BitVec.le_def] at hle
      omega
    have hexits := exits_of_behind hrec hlast hforward.behind
    exact ⟨hexits, (reads_forward_iff hrec hexits).mp hforward.reads⟩

end

/-! ### A guest that reads the clock -/

/-- The exits of a guest at the given times, or `none` if a trap is not handled or the clock would
    run backwards. -/
def sampleExits : List (Nat × SampleTrap) → State × List Exit → Option (State × List Exit)
  | [], r                         => some r
  | (t, trap) :: rest, (s, hist)  =>
    let entry := (s.guestRun trap.regs trap.pc).trapEntry trap.mcause 0
    match exception sampleLayout (fun _ => 0) (sampleReads t) entry with
    | .error _ => none
    | .ok s'   =>
      if s.clint.mtime.toNat ≤ t ∧ t < 2 ^ 63 then
        sampleExits rest (s', ⟨sampleReads t, mtimeRead sampleLayout (fun _ => 0)
          (suspended sampleLayout (sampleReads t) entry), s'.guest.timerAdjustment⟩ :: hist)
      else none

theorem ClockRun.sampleExits {traps : List (Nat × SampleTrap)} {hist hist' : List Exit}
    (h : ClockRun sampleLayout s hist) (hrun : sampleExits traps (s, hist) = some (s', hist')) :
    ClockRun sampleLayout s' hist' := by
  induction traps generalizing s hist with
  | nil =>
    cases hrun
    exact h
  | cons trap rest ih =>
    obtain ⟨t, regs, pc, mcause⟩ := trap
    rw [RiscvHypervisor.sampleExits] at hrun
    dsimp only at hrun
    split at hrun
    · cases hrun
    · rename_i s₁ hs₁
      split at hrun
      · rename_i hclock
        have hinside : ClockRun sampleLayout (s.guestRun regs pc) hist :=
          h.between (.run regs pc) (fun _ _ _ _ hev => by cases hev)
        exact ih (hinside.trap (monotone_sampleReads hclock.1 hclock.2) hs₁) hrun
      · cases hrun

/-- A guest that loads `clint.mtime` over and over, by `ld x5, 0(x6)`, exits as `traps` say. -/
theorem exists_clockRun {α : Type} (traps : List (Nat × SampleTrap)) (f : State × List Exit → α)
    (x : α) (hrun : (sampleExits traps
      (bootMain sampleLayout (sampleMachine (sampleCode 0x00033283)), [])).map f = some x) :
    ∃ s hist, ClockRun sampleLayout s hist ∧ f (s, hist) = x := by
  obtain ⟨⟨s, hist⟩, hs, hfx⟩ := Option.map_eq_some_iff.mp hrun
  exact ⟨s, hist, (ClockRun.boot (powerOn_sampleMachine _)).sampleExits hs, hfx⟩

/-- Its first fetch, and two loads. -/
def sampleLoads (fetch first second : Nat) : List (Nat × SampleTrap) :=
  let regs : SavedRegisters := Function.update (fun _ => 0) 5 0x0200BFF8
  [(fetch, ⟨regs, 0x80000000, 12⟩), (first, ⟨regs, 0x80000000, 13⟩),
    (second, ⟨regs, 0x80000000, 13⟩)]

/-- Two loads a hundred ticks apart. -/
theorem time_forward_spaced :
    ∃ s hist, ClockRun sampleLayout s hist ∧ hist.filterMap Exit.read = [1997, 1949] ∧
      Forward hist := by
  obtain ⟨s, hist, hrun, hview⟩ := exists_clockRun (sampleLoads 1000 2000 2100)
    (fun r => (decide (Spaced r.2), r.2.filterMap Exit.read)) (true, [1997, 1949])
      (by decide +kernel)
  obtain ⟨hspaced, hreads⟩ := Prod.mk.inj hview
  exact ⟨s, hist, hrun, hreads, ((time_forward hrun).1 (of_decide_eq_true hspaced)).1⟩

/-- Two loads ten ticks apart: the second reads less than the first.  And a guest that exits right
    after the host's clock has started has a virtual time below zero. -/
theorem time_backward :
    (∃ s hist, ClockRun sampleLayout s hist ∧ hist.filterMap Exit.read = [1907, 1949] ∧
      ¬ (hist.filterMap Exit.read).Pairwise fun later earlier => earlier ≤ later) ∧
    ∃ s hist, ClockRun sampleLayout s hist ∧ s.clint.mtime = 3 ∧ s.guest.timerAdjustment = 52 ∧
      ¬ s.guest.timerAdjustment ≤ s.clint.mtime := by
  constructor
  · obtain ⟨s, hist, hrun, hreads⟩ := exists_clockRun (sampleLoads 1000 2000 2010)
      (fun r => r.2.filterMap Exit.read) [1907, 1949] (by decide +kernel)
    refine ⟨s, hist, hrun, hreads, ?_⟩
    rw [hreads]
    decide
  · obtain ⟨s, hist, hrun, hview⟩ := exists_clockRun ((sampleLoads 0 0 0).take 1)
      (fun r => (r.1.clint.mtime, r.1.guest.timerAdjustment)) (3, 52) (by decide +kernel)
    obtain ⟨hnow, hadj⟩ := Prod.mk.inj hview
    refine ⟨s, hist, hrun, hnow, hadj, ?_⟩
    rw [hnow, hadj]
    decide

end RiscvHypervisor
