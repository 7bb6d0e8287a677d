import RiscvHypervisor.Proof.CsrFile
import RiscvHypervisor.Proof.UserMode

namespace RiscvHypervisor

open ByteMem Except

/-!
# Emulated instructions

What the hypervisor makes of an instruction against what the instruction does.

* `csr_instruction_iff` — `csrrw` and `csrrs` read, modify and write as they should, except for a
  `csrrs` whose source register is its destination;
* `retires_once_iff` — every instruction but `wfi` is left behind exactly once.
-/

variable {L : Layout} {s s' t : State} {u : UnpackedInstruction}

/-! ### `csrrw` and `csrrs` -/

/-- The CSR an instruction names. -/
def UnpackedInstruction.csrId (u : UnpackedInstruction) : Nat := (u.funct7 <<< 5) ||| u.rs2

/-- The `csrrw` and `csrrs` cases of `handle_guest_exception`, up to the advance of the program
    counter. -/
def csrAccess (u : UnpackedInstruction) (s : State) : Except Panic State :=
  if u.funct3 = 1 then do
    let oldValue ← (if u.rd ≠ 0 then getVirtualCsr u.csrId s.guest.csr else .ok 0)
    let csr ← setVirtualCsr u.csrId (readReg s.host.activeRegs u.rs1) s.guest.csr
    let s := s.setGuest { s.guest with csr := csr }
    return if u.rd ≠ 0 then s.setReg (u.rd - 1) oldValue else s
  else do
    let value ← getVirtualCsr u.csrId s.guest.csr
    let s := if u.rd ≠ 0 then s.setReg (u.rd - 1) value else s
    let csr ← (if u.rs1 ≠ 0 then
        setVirtualCsr u.csrId (value ||| s.host.activeRegs (u.rs1 - 1)) s.guest.csr
      else .ok s.guest.csr)
    return s.setGuest { s.guest with csr := csr }

theorem emulateCsrrw_access {guestAddr : Word} (hf3 : u.funct3 = 1)
    (h : emulateCsrrw L guestAddr u s = .ok s') :
    ∃ t, csrAccess u s = .ok t ∧ Checked L (t.setMepc (guestAddr + 4)) s' := by
  obtain ⟨old, csr, hold, hcsr, b, hcheck⟩ := emulateCsrrw_ok h
  refine ⟨_, ?_, b, hcheck⟩
  unfold csrAccess
  rw [if_pos hf3]
  exact bind_eq_ok.mpr ⟨old, hold, bind_eq_ok.mpr ⟨csr, hcsr, rfl⟩⟩

theorem emulateCsrrs_access {guestAddr : Word} (hf3 : u.funct3 = 2)
    (h : emulateCsrrs L guestAddr u s = .ok s') :
    ∃ t, csrAccess u s = .ok t ∧ Checked L (t.setMepc (guestAddr + 4)) s' := by
  obtain ⟨value, csr, hvalue, hcsr, b, hcheck⟩ := emulateCsrrs_ok h
  refine ⟨_, ?_, b, hcheck⟩
  unfold csrAccess
  rw [if_neg (by rw [hf3]; decide)]
  exact bind_eq_ok.mpr ⟨value, hvalue, bind_eq_ok.mpr ⟨csr, hcsr, rfl⟩⟩

/-- What the architecture writes to the CSR: `old` is its value and `x` that of the source register,
    both before the instruction. -/
def isaCsrWrite (u : UnpackedInstruction) (old x : Word) (csr : GuestCsr) : Except Panic GuestCsr :=
  if u.funct3 = 1 then setVirtualCsr u.csrId x csr
  else if u.rs1 = 0 then .ok csr
  else setVirtualCsr u.csrId (old ||| x) csr

/-- The instruction `u` has been executed as the architecture defines it: the CSR holds what was to
    be written, the destination register its old value, and nothing else has changed. -/
def CsrSemantics (u : UnpackedInstruction) (s t : State) : Prop :=
  ∃ old csr, getVirtualCsr u.csrId s.guest.csr = .ok old ∧
    isaCsrWrite u old (readReg s.host.activeRegs u.rs1) s.guest.csr = .ok csr ∧
    t.guest = { s.guest with csr := csr } ∧
    ∀ r, 0 < r → readReg t.host.activeRegs r =
      if r = u.rd then old else readReg s.host.activeRegs r

/-- A `csrrs` that overwrites its source register before it reads it, with a value that matters. -/
def AliasedWrite (u : UnpackedInstruction) (s : State) : Prop :=
  u.funct3 = 2 ∧ u.rs1 ≠ 0 ∧ u.rd = u.rs1 ∧
    ∀ old, getVirtualCsr u.csrId s.guest.csr = .ok old →
      setVirtualCsr u.csrId (old ||| readReg s.host.activeRegs u.rs1) s.guest.csr ≠
        .ok s.guest.csr

/-- Writing a register, unless it is `x0`. -/
theorem readReg_writeReg {rd r : Nat} {v : Word} (hr : 0 < r) :
    readReg (if rd ≠ 0 then s.setReg (rd - 1) v else s).host.activeRegs r =
      if r = rd then v else readReg s.host.activeRegs r := by
  by_cases hrd : rd = 0
  · rw [if_neg (not_not_intro hrd), if_neg (by omega)]
  · rw [if_pos hrd]
    unfold readReg
    rw [if_neg (by omega)]
    show Function.update s.host.activeRegs (rd - 1) v (r - 1) = _
    by_cases hrr : r = rd
    · rw [if_pos hrr, hrr, Function.update_self]
    · rw [if_neg hrr, if_neg (by omega), Function.update_of_ne (by omega)]

theorem readReg_of_ne_zero {regs : SavedRegisters} {r : Nat} (h : r ≠ 0) :
    readReg regs r = regs (r - 1) := if_neg h

theorem csrrw_semantics (hf3 : u.funct3 = 1) (h : csrAccess u s = .ok t) : CsrSemantics u s t := by
  unfold csrAccess at h
  rw [if_pos hf3] at h
  obtain ⟨old', hold', h⟩ := bind_eq_ok.mp h
  obtain ⟨csr, hcsr, h⟩ := bind_eq_ok.mp h
  cases h
  obtain ⟨old, hold⟩ := getVirtualCsr_of_setVirtualCsr hcsr
  refine ⟨old, csr, hold, ?_, ?_, ?_⟩
  · unfold isaCsrWrite
    rw [if_pos hf3, hcsr]
  · rw [guest_writeReg, State.guest_setGuest]
  · intro r hr
    rw [readReg_writeReg hr, State.host_setGuest]
    by_cases hrd : r = u.rd
    · rw [if_pos hrd, if_pos hrd]
      rw [if_pos (by omega), hold] at hold'
      exact (Except.ok.inj hold').symm
    · rw [if_neg hrd, if_neg hrd]

/-- The source register of a `csrrs` as the handler reads it: after the destination was written. -/
theorem csrrs_semantics_iff (hf3 : u.funct3 = 2) (h : csrAccess u s = .ok t) :
    CsrSemantics u s t ↔ ¬ AliasedWrite u s := by
  unfold csrAccess at h
  rw [if_neg (by rw [hf3]; decide)] at h
  obtain ⟨old, hold, h⟩ := bind_eq_ok.mp h
  obtain ⟨csr, hcsr, h⟩ := bind_eq_ok.mp h
  cases h
  have hguest₁ : (if u.rd ≠ 0 then s.setReg (u.rd - 1) old else s).guest = s.guest :=
    guest_writeReg
  have hregs₁ : ∀ r, 0 < r →
      readReg (if u.rd ≠ 0 then s.setReg (u.rd - 1) old else s).host.activeRegs r =
        if r = u.rd then old else readReg s.host.activeRegs r :=
    fun r hr => readReg_writeReg hr
  generalize (if u.rd ≠ 0 then s.setReg (u.rd - 1) old else s) = s₁ at hcsr hguest₁ hregs₁ ⊢
  rw [hguest₁] at hcsr
  -- what is left to compare is the CSR
  have hiff : CsrSemantics u s (s₁.setGuest { s₁.guest with csr := csr }) ↔
      isaCsrWrite u old (readReg s.host.activeRegs u.rs1) s.guest.csr = .ok csr := by
    constructor
    · intro hsem
      obtain ⟨old', csr', hold', hwrite, hguest', -⟩ := hsem
      rw [hold] at hold'
      cases hold'
      rw [State.guest_setGuest] at hguest'
      have hsame : csr = csr' := congrArg GuestThreadContext.csr hguest'
      rw [hsame]
      exact hwrite
    · intro hwrite
      refine ⟨old, csr, hold, hwrite, ?_, hregs₁⟩
      rw [State.guest_setGuest, hguest₁]
  rw [hiff]
  unfold isaCsrWrite
  rw [if_neg (by rw [hf3]; decide)]
  by_cases hrs1 : u.rs1 = 0
  · rw [if_neg (not_not_intro hrs1)] at hcsr
    rw [if_pos hrs1, hcsr]
    exact ⟨fun _ hal => hal.2.1 hrs1, fun _ => rfl⟩
  rw [if_pos hrs1] at hcsr
  rw [if_neg hrs1]
  have hread : s₁.host.activeRegs (u.rs1 - 1) =
      if u.rs1 = u.rd then old else readReg s.host.activeRegs u.rs1 := by
    have hsource := hregs₁ u.rs1 (Nat.pos_of_ne_zero hrs1)
    rwa [readReg_of_ne_zero hrs1] at hsource
  rw [hread] at hcsr
  by_cases hal : u.rs1 = u.rd
  · -- the register holds the old value by now, which is what the CSR gets
    rw [if_pos hal, BitVec.or_self, setVirtualCsr_getVirtualCsr hold] at hcsr
    cases hcsr
    constructor
    · intro hwrite hbad
      exact hbad.2.2.2 old hold hwrite
    · intro hgood
      by_contra hne
      apply hgood
      refine ⟨hf3, hrs1, hal.symm, fun old' hold' => ?_⟩
      rw [hold] at hold'
      cases hold'
      exact hne
  · rw [if_neg hal] at hcsr
    exact ⟨fun _ hbad => hal hbad.2.2.1.symm, fun _ => hcsr⟩

/-- **CSR instructions.**  An exit at a `csrrw` or `csrrs` that does not panic executes it up to the
    state `t`, from where only the program counter moves on and a pending exception may be
    delivered.  `t` is what the architecture asks for if and only if the instruction is not a
    `csrrs` that destroys its own operand. -/
theorem csr_instruction_iff {stale : Nat → Nat}
    (handled : handleGuestException L stale 2 s = .ok s') (hu : faultingInstruction L s = .ok u)
    (hf3 : u.funct3 = 1 ∨ u.funct3 = 2) :
    ∃ t, csrAccess u s = .ok t ∧ Checked L (t.setMepc (s.hart.mepc + 4)) s' ∧
      (CsrSemantics u s t ↔ ¬ AliasedWrite u s) := by
  obtain ⟨u', hu', hemulate⟩ := emulated_of_handled handled
  rw [hu] at hu'
  cases hu'
  rcases emulateInstruction_cases hemulate with
    ⟨h0, -⟩ | ⟨rfl, -⟩ | ⟨rfl, -⟩ | ⟨h1, hcsr⟩ | ⟨h2, hcsr⟩
  · rw [h0] at hf3
    exact absurd hf3 (by decide)
  · exact absurd hf3 (by decide)
  · exact absurd hf3 (by decide)
  · obtain ⟨t, ht, hcheck⟩ := emulateCsrrw_access h1 hcsr
    refine ⟨t, ht, hcheck, fun _ hbad => ?_, fun _ => csrrw_semantics h1 ht⟩
    exact absurd (h1.symm.trans hbad.1) (by decide)
  · obtain ⟨t, ht, hcheck⟩ := emulateCsrrs_access h2 hcsr
    exact ⟨t, ht, hcheck, csrrs_semantics_iff h2 ht⟩

/-- A guest whose first instruction is `word`. -/
def sampleCode (word : Nat) : Mem := store (fun _ => 0) 0x85000000 4 word

/-- The traps of such a guest before its first instruction runs: that of the fetch. -/
def sampleFirstFetch : List SampleTrap := [⟨fun _ => 7, 0x80000000, 12⟩]

/-- The exit at that instruction, with all registers 7. -/
def sampleExit (s : State) : State :=
  suspended sampleLayout (sampleReads 100) ((s.guestRun (fun _ => 7) 0x80000000).trapEntry 2 0)

/-- `csrrs x6, mscratch, x5` in machine mode. -/
theorem csr_instruction_csrrs :
    ∃ s s' u t, Reachable sampleLayout s ∧
      handleGuestException sampleLayout (fun _ => 0) 2 (sampleExit s) = .ok s' ∧
      faultingInstruction sampleLayout (sampleExit s) = .ok u ∧
      csrAccess u (sampleExit s) = .ok t ∧ CsrSemantics u (sampleExit s) t := by
  obtain ⟨s, hreach, hs⟩ := exists_reachable (sampleCode 0x3402A373) sampleFirstFetch
    (fun s => ((faultingInstruction sampleLayout (sampleExit s)).toOption.map id,
      (handleGuestException sampleLayout (fun _ => 0) 2 (sampleExit s)).toOption.map
        (fun s' => s'.guest.csr.mscratch)))
    (some ⟨0x73, 6, 2, 5, 0, 26⟩, some 7) (by decide) (by decide +kernel)
  simp only [Prod.mk.injEq] at hs
  obtain ⟨hinstr, hrun⟩ := hs
  obtain ⟨s', hs', -⟩ := map_toOption_eq_some.mp hrun
  obtain ⟨u, hu, hid⟩ := map_toOption_eq_some.mp hinstr
  rw [id_eq] at hid
  subst hid
  obtain ⟨t, ht, -, hiff⟩ := csr_instruction_iff hs' hu (Or.inr rfl)
  exact ⟨s, s', _, t, hreach, hs', hu, ht, hiff.mpr (fun hbad => absurd hbad.2.2.1 (by decide))⟩

/-- `csrrs x5, mscratch, x5` in machine mode, with `mscratch` 0 and `x5` 7, leaves `mscratch`
    at 0. -/
theorem csrrs_loses_operand :
    ∃ s s' t, Reachable sampleLayout s ∧
      handleGuestException sampleLayout (fun _ => 0) 2 (sampleExit s) = .ok s' ∧
      faultingInstruction sampleLayout (sampleExit s) = .ok ⟨0x73, 5, 2, 5, 0, 26⟩ ∧
      csrAccess ⟨0x73, 5, 2, 5, 0, 26⟩ (sampleExit s) = .ok t ∧
      Checked sampleLayout (t.setMepc ((sampleExit s).hart.mepc + 4)) s' ∧
      s'.guest.csr.mscratch = 0 ∧
      ¬ CsrSemantics ⟨0x73, 5, 2, 5, 0, 26⟩ (sampleExit s) t := by
  obtain ⟨s, hreach, hs⟩ := exists_reachable (sampleCode 0x3402A2F3) sampleFirstFetch
    (fun s => ((faultingInstruction sampleLayout (sampleExit s)).toOption.map id,
      (sampleExit s).guest.csr.mscratch,
      (handleGuestException sampleLayout (fun _ => 0) 2 (sampleExit s)).toOption.map
        (fun s' => s'.guest.csr.mscratch)))
    (some ⟨0x73, 5, 2, 5, 0, 26⟩, 0, some 0) (by decide) (by decide +kernel)
  simp only [Prod.mk.injEq] at hs
  obtain ⟨hinstr, hzero, hrun⟩ := hs
  obtain ⟨s', hs', hscratch⟩ := map_toOption_eq_some.mp hrun
  obtain ⟨u, hu, hid⟩ := map_toOption_eq_some.mp hinstr
  rw [id_eq] at hid
  subst hid
  obtain ⟨u', hu', hemulate⟩ := emulated_of_handled hs'
  rw [hu] at hu'
  cases hu'
  have hcsrrs : emulateCsrrs sampleLayout (sampleExit s).hart.mepc ⟨0x73, 5, 2, 5, 0, 26⟩
      (sampleExit s) = .ok s' := hemulate
  obtain ⟨t, ht, hcheck⟩ := emulateCsrrs_access rfl hcsrrs
  refine ⟨s, s', t, hreach, hs', hu, ht, hcheck, hscratch, ?_⟩
  rw [csrrs_semantics_iff rfl ht, not_not]
  refine ⟨rfl, by decide, rfl, fun old hold hwrite => ?_⟩
  -- the CSR reads as 0 and the register as 7
  have hold' : old = 0 := by
    cases hold
    exact hzero
  have hcsr : (sampleExit s).guest.csr.mscratch = 0 ||| 7 := by
    rw [hold'] at hwrite
    exact (congrArg GuestCsr.mscratch (Except.ok.inj hwrite)).symm
  rw [hzero] at hcsr
  exact absurd hcsr (by decide)

/-! ### The program counter -/

/-- The instruction at the program counter has retired: the guest goes on after it, or in its trap
    handler, from which it will come back to the instruction after it. -/
def Retires (s s' : State) : Prop :=
  (s'.trace = s.trace ∧ s'.hart.mepc = s.hart.mepc + 4) ∨
    (s.guest.deferredException = true ∧
      s'.trace = .guestTrap s.guest.deferredMcause :: s.trace ∧
      s'.hart.mepc = s'.guest.csr.mtvec ∧ s'.guest.csr.mepc = s.hart.mepc + 4)

/-- An `mret` has returned: to the virtual `mepc`, or to the trap handler, which will
    return there. -/
def Returns (s s' : State) : Prop :=
  (s'.trace = s.trace ∧ s'.hart.mepc = s.guest.csr.mepc) ∨
    (s.guest.deferredException = true ∧
      s'.trace = .guestTrap s.guest.deferredMcause :: s.trace ∧
      s'.hart.mepc = s.guest.csr.mtvec ∧ s'.guest.csr.mepc = s.guest.csr.mepc)

/-- What the emulation of `u` does to the program counter. -/
def RetiresOnce (u : UnpackedInstruction) (s s' : State) : Prop :=
  if u = mretInstruction then Returns s s' else Retires s s'

/-- The CSRs of the guest once `u` has written what it writes.  A `csrrs` whose source is its
    destination leaves its CSR as it is. -/
def csrAfter (u : UnpackedInstruction) (s : State) : Except Panic GuestCsr :=
  if u = mretInstruction then .ok { s.guest.csr with mstatusMdt := false }
  else if u.funct3 = 1 then setVirtualCsr u.csrId (readReg s.host.activeRegs u.rs1) s.guest.csr
  else if u.rs1 = 0 ∨ u.rs1 = u.rd then .ok s.guest.csr
  else do
    let old ← getVirtualCsr u.csrId s.guest.csr
    setVirtualCsr u.csrId (old ||| readReg s.host.activeRegs u.rs1) s.guest.csr

/-- `u` lets the exception held back through, with the CSRs at `csr`: it is one of the instructions
    after which the hypervisor looks for one, and the guest can take it then. -/
def LetsThrough (u : UnpackedInstruction) (s : State) (csr : GuestCsr) : Prop :=
  (u = mretInstruction ∨ u.funct3 ≠ 0) ∧ csrAfter u s = .ok csr ∧
    s.guest.deferredException = true ∧ csr.mstatusMie = true ∧ csr.mstatusMdt = false

/-- The check for deferred exceptions goes on at the program counter, or saves it and goes to the
    trap handler, of whose address bit 0 is lost. -/
theorem Checked.resume (h : Checked L t s') :
    (Settled t.guest ∧ s'.trace = t.trace ∧ s'.hart.mepc = t.hart.mepc) ∨
      (t.guest.deferredException = true ∧ t.guest.csr.mstatusMie = true ∧
        t.guest.csr.mstatusMdt = false ∧
        s'.trace = .guestTrap t.guest.deferredMcause :: t.trace ∧
        s'.hart.mepc = legalMepc t.guest.csr.mtvec ∧ s'.guest.csr.mtvec = t.guest.csr.mtvec ∧
        s'.guest.csr.mepc = t.hart.mepc) := by
  rcases h.cases with ⟨rfl, hset⟩ | hdel
  · exact Or.inl ⟨hset, rfl, rfl⟩
  · right
    have ht := hdel.trapped
    refine ⟨hdel.pending, hdel.mie, hdel.mdt, ht.trace, ?_, ?_, ?_⟩
    · rw [ht.mepc, State.guest_setGuest]
    · rw [ht.guest, State.guest_setGuest]
      rfl
    · rw [ht.guest, State.guest_setGuest]
      rfl

/-- The two CSR instructions up to the advance of the program counter. -/
theorem csrAccess_after (hf3 : u.funct3 = 1 ∨ u.funct3 = 2) (h : csrAccess u s = .ok t) :
    csrAfter u s = .ok t.guest.csr ∧ t.guest = { s.guest with csr := t.guest.csr } ∧
      t.hart = s.hart ∧ t.trace = s.trace := by
  have hmret : u ≠ mretInstruction := by
    rintro rfl
    exact absurd hf3 (by decide)
  unfold csrAfter
  rw [if_neg hmret]
  rcases hf3 with hf3 | hf3
  · -- csrrw
    unfold csrAccess at h
    rw [if_pos hf3] at h ⊢
    obtain ⟨old, -, h⟩ := bind_eq_ok.mp h
    obtain ⟨csr, hcsr, h⟩ := bind_eq_ok.mp h
    cases h
    rw [guest_writeReg, State.guest_setGuest, hart_writeReg, trace_writeReg]
    exact ⟨hcsr, rfl, rfl, rfl⟩
  · -- csrrs: nothing is written with `x0`, nor in effect when both registers are one
    have hne : u.funct3 ≠ 1 := by
      rw [hf3]
      decide
    unfold csrAccess at h
    rw [if_neg hne] at h ⊢
    obtain ⟨old, hold, h⟩ := bind_eq_ok.mp h
    obtain ⟨csr, hcsr, h⟩ := bind_eq_ok.mp h
    cases h
    rw [State.guest_setGuest, State.hart_setGuest, State.trace_setGuest, hart_writeReg,
      trace_writeReg, guest_writeReg]
    rw [guest_writeReg] at hcsr
    refine ⟨?_, rfl, rfl, rfl⟩
    by_cases hrs1 : u.rs1 = 0
    · rw [if_neg (not_not_intro hrs1)] at hcsr
      rw [if_pos (Or.inl hrs1)]
      exact hcsr
    rw [if_pos hrs1] at hcsr
    have hread := @readReg_writeReg s u.rd u.rs1 old (Nat.pos_of_ne_zero hrs1)
    rw [readReg_of_ne_zero hrs1] at hread
    rw [hread] at hcsr
    by_cases hal : u.rs1 = u.rd
    · -- the CSR is written with what it holds
      rw [if_pos hal, BitVec.or_self, setVirtualCsr_getVirtualCsr hold] at hcsr
      rw [if_pos (Or.inr hal)]
      exact hcsr
    · rw [if_neg hal] at hcsr
      rw [if_neg (not_or.mpr ⟨hrs1, hal⟩)]
      exact bind_eq_ok.mpr ⟨old, hold, hcsr⟩

/-- Trap handlers that are entered are at even addresses. -/
theorem letsThrough_iff {csr : GuestCsr} (hu : u = mretInstruction ∨ u.funct3 ≠ 0)
    (hcsr : csrAfter u s = .ok csr) :
    (∀ csr', LetsThrough u s csr' → csr'.mtvec.toNat % 2 = 0) ↔
      (s.guest.deferredException = true → csr.mstatusMie = true → csr.mstatusMdt = false →
        csr.mtvec.toNat % 2 = 0) := by
  constructor
  · intro h hdef hmie hmdt
    exact h csr ⟨hu, hcsr, hdef, hmie, hmdt⟩
  · intro h csr' hthrough
    obtain ⟨-, hcsr', hdef, hmie, hmdt⟩ := hthrough
    rw [hcsr] at hcsr'
    cases hcsr'
    exact h hdef hmie hmdt

/-- A CSR instruction retires unless it lets an exception through to an odd address. -/
theorem csr_retires_iff (hf3 : u.funct3 = 1 ∨ u.funct3 = 2) (ht : csrAccess u s = .ok t)
    (h : Checked L (t.setMepc (s.hart.mepc + 4)) s') :
    Retires s s' ↔ ∀ csr, LetsThrough u s csr → csr.mtvec.toNat % 2 = 0 := by
  obtain ⟨hcsr, hguest, hhart, htrace⟩ := csrAccess_after hf3 ht
  have hne : u.funct3 ≠ 0 := by
    rcases hf3 with hf3 | hf3 <;>
    · rw [hf3]
      decide
  -- four bytes on, the address is still even
  have hnext : (t.setMepc (s.hart.mepc + 4)).hart.mepc = s.hart.mepc + 4 :=
    legalMepc_add s.hart.mepc_even (show 4 % 2 = 0 from rfl)
  have hdeferred : t.guest.deferredException = s.guest.deferredException ∧
      t.guest.deferredMcause = s.guest.deferredMcause := by
    rw [hguest]
    exact ⟨rfl, rfl⟩
  rw [letsThrough_iff (Or.inr hne) hcsr]
  rcases h.resume with ⟨hset, htrace', hmepc⟩ | ⟨hdef, hmie, hmdt, htrace', hmepc, hmtvec, hsaved⟩
  · rw [State.guest_setMepc] at hset
    refine ⟨fun _ hdef hmie hmdt => ?_, fun _ => Or.inl ⟨htrace'.trans htrace, ?_⟩⟩
    · exact absurd ⟨hdeferred.1.trans hdef, hmie, hmdt⟩ hset
    · rw [hmepc, hnext]
  · rw [State.guest_setMepc] at hdef hmie hmdt htrace' hmepc hmtvec
    rw [State.trace_setMepc, htrace, hdeferred.2] at htrace'
    rw [hdeferred.1] at hdef
    rw [hnext] at hsaved
    constructor
    · rintro (⟨hc, -⟩ | ⟨-, -, hpc, -⟩)
      · rw [htrace'] at hc
        exact absurd hc (List.cons_ne_self _ _)
      · intro _ _ _
        rw [hmepc, hmtvec, legalMepc_eq_self_iff] at hpc
        exact hpc
    · intro heven
      refine Or.inr ⟨hdef, htrace', ?_, hsaved⟩
      rw [hmepc, hmtvec, legalMepc_eq_self (heven hdef hmie hmdt)]

/-- An `mret` to an even address returns unless it lets an exception through to an odd one. -/
theorem Returned.returns_iff (heven : s.guest.csr.mepc.toNat % 2 = 0) (hr : Returned s t)
    (h : Checked L t s') :
    Returns s s' ↔ ∀ csr, LetsThrough mretInstruction s csr → csr.mtvec.toNat % 2 = 0 := by
  obtain ⟨root, active, hguest⟩ := hr.guest
  have hback : t.hart.mepc = s.guest.csr.mepc := by
    rw [hr.mepc, legalMepc_eq_self heven]
  have hcsr : csrAfter mretInstruction s = .ok { s.guest.csr with mstatusMdt := false } := rfl
  rw [letsThrough_iff (Or.inl rfl) hcsr]
  rcases h.resume with ⟨hset, htrace, hmepc⟩ | ⟨hdef, hmie, -, htrace, hmepc, -, hsaved⟩
  · rw [hguest] at hset
    refine ⟨fun _ hdef hmie hmdt => absurd ⟨hdef, hmie, hmdt⟩ hset, fun _ => Or.inl ?_⟩
    exact ⟨htrace.trans hr.trace, hmepc.trans hback⟩
  · rw [hguest] at hdef hmie htrace hmepc
    rw [hr.trace] at htrace
    constructor
    · rintro (⟨hc, -⟩ | ⟨-, -, hpc, -⟩)
      · rw [htrace] at hc
        exact absurd hc (List.cons_ne_self _ _)
      · intro _ _ _
        rw [hmepc, legalMepc_eq_self_iff] at hpc
        exact hpc
    · intro hodd
      refine Or.inr ⟨hdef, htrace, ?_, hsaved.trans hback⟩
      rw [hmepc, legalMepc_eq_self (hodd hdef hmie rfl)]

theorem ne_mret_wfi (h : u.funct3 ≠ 0 ∨ u.funct7 = 9) :
    u ≠ mretInstruction ∧ u ≠ wfiInstruction := by
  constructor
  · intro hu
    rw [hu] at h
    exact absurd h (by decide)
  · intro hu
    rw [hu] at h
    exact absurd h (by decide)

/-- **Instructions retire once.**  An illegal-instruction exit that does not panic is about an
    instruction that retires, or returns to an even `mepc`, exactly once if and only if it is not
    `wfi` and lets no exception through to a trap handler at an odd address. -/
theorem retires_once_iff {stale : Nat → Nat}
    (handled : handleGuestException L stale 2 s = .ok s') :
    ∃ u, faultingInstruction L s = .ok u ∧
      ((u = mretInstruction → s.guest.csr.mepc.toNat % 2 = 0) →
        (RetiresOnce u s s' ↔
          u ≠ wfiInstruction ∧ ∀ csr, LetsThrough u s csr → csr.mtvec.toNat % 2 = 0)) := by
  obtain ⟨u, hu, hemulate⟩ := emulated_of_handled handled
  refine ⟨u, hu, fun heven => ?_⟩
  unfold RetiresOnce
  rcases emulateInstruction_cases hemulate with
    ⟨h0, h9, st, rfl⟩ | ⟨rfl, hmret⟩ | ⟨rfl, rfl⟩ | ⟨h1, hcsr⟩ | ⟨h2, hcsr⟩
  · -- sfence.vma, after which nothing is let through
    have hne := ne_mret_wfi (Or.inr h9)
    rw [if_neg hne.1]
    refine ⟨fun _ => ⟨hne.2, fun csr hthrough => ?_⟩, fun _ => Or.inl ⟨rfl, ?_⟩⟩
    · rcases hthrough.1 with hmret | hf3
      · exact absurd hmret hne.1
      · exact absurd h0 hf3
    · exact legalMepc_add s.hart.mepc_even (show 4 % 2 = 0 from rfl)
  · rw [if_pos rfl]
    obtain ⟨t, hret, hcheck⟩ := guestMret_returned hmret
    rw [hret.returns_iff (heven rfl) hcheck]
    exact ⟨fun h => ⟨by decide, h⟩, fun h => h.2⟩
  · -- wfi: the guest is back where it was
    rw [if_neg (by decide)]
    refine ⟨fun hret => ?_, fun hne => absurd rfl hne.1⟩
    rcases hret with ⟨-, hpc⟩ | ⟨-, htrace, -⟩
    · have hfour : (4 : Word) = 0 := by
        simpa using hpc.symm
      exact absurd hfour (by decide)
    · exact absurd htrace.symm (List.cons_ne_self _ _)
  · have hne := ne_mret_wfi (Or.inl (by rw [h1]; decide))
    rw [if_neg hne.1]
    obtain ⟨t, ht, hcheck⟩ := emulateCsrrw_access h1 hcsr
    rw [csr_retires_iff (Or.inl h1) ht hcheck]
    exact ⟨fun h => ⟨hne.2, h⟩, fun h => h.2⟩
  · have hne := ne_mret_wfi (Or.inl (by rw [h2]; decide))
    rw [if_neg hne.1]
    obtain ⟨t, ht, hcheck⟩ := emulateCsrrs_access h2 hcsr
    rw [csr_retires_iff (Or.inr h2) ht hcheck]
    exact ⟨fun h => ⟨hne.2, h⟩, fun h => h.2⟩

/-- `csrrs x6, mscratch, x5` retires. -/
theorem retires_once_csrrs :
    ∃ s s' u, Reachable sampleLayout s ∧
      handleGuestException sampleLayout (fun _ => 0) 2 (sampleExit s) = .ok s' ∧
      faultingInstruction sampleLayout (sampleExit s) = .ok u ∧
      RetiresOnce u (sampleExit s) s' := by
  obtain ⟨s, hreach, hs⟩ := exists_reachable (sampleCode 0x3402A373) sampleFirstFetch
    (fun s => ((faultingInstruction sampleLayout (sampleExit s)).toOption.map id,
      (sampleExit s).guest.deferredException,
      (handleGuestException sampleLayout (fun _ => 0) 2 (sampleExit s)).toOption.map
        (fun s' => s'.hart.mepc)))
    (some ⟨0x73, 6, 2, 5, 0, 26⟩, false, some 0x80000004) (by decide) (by decide +kernel)
  simp only [Prod.mk.injEq] at hs
  obtain ⟨hinstr, hnone, hrun⟩ := hs
  obtain ⟨s', hs', -⟩ := map_toOption_eq_some.mp hrun
  obtain ⟨u, hu, hid⟩ := map_toOption_eq_some.mp hinstr
  obtain ⟨u', hu', hiff⟩ := retires_once_iff hs'
  rw [hu] at hu'
  cases hu'
  rw [id_eq] at hid
  subst hid
  refine ⟨s, s', _, hreach, hs', hu, (hiff (fun hc => absurd hc (by decide))).mpr ⟨by decide, ?_⟩⟩
  intro csr hthrough
  -- nothing is held back
  have hpending := hthrough.2.2.1
  rw [hnone] at hpending
  cases hpending

/-- After a `wfi` the guest is back at the `wfi`. -/
theorem wfi_never_retires :
    ∃ s s', Reachable sampleLayout s ∧
      handleGuestException sampleLayout (fun _ => 0) 2 (sampleExit s) = .ok s' ∧
      faultingInstruction sampleLayout (sampleExit s) = .ok wfiInstruction ∧
      s'.hart.mepc = (sampleExit s).hart.mepc ∧
      ¬ RetiresOnce wfiInstruction (sampleExit s) s' := by
  obtain ⟨s, hreach, hs⟩ := exists_reachable (sampleCode 0x10500073) sampleFirstFetch
    (fun s => ((faultingInstruction sampleLayout (sampleExit s)).toOption.map id,
      (sampleExit s).hart.mepc,
      (handleGuestException sampleLayout (fun _ => 0) 2 (sampleExit s)).toOption.map
        (fun s' => (s'.hart.mepc, s'.trace.length))))
    (some wfiInstruction, 0x80000000, some (0x80000000, 0)) (by decide) (by decide +kernel)
  simp only [Prod.mk.injEq] at hs
  obtain ⟨hinstr, hpc, hrun⟩ := hs
  obtain ⟨s', hs', hview⟩ := map_toOption_eq_some.mp hrun
  obtain ⟨hpc', hlen⟩ := Prod.mk.inj hview
  obtain ⟨u, hu, hid⟩ := map_toOption_eq_some.mp hinstr
  rw [id_eq] at hid
  subst hid
  refine ⟨s, s', hreach, hs', hu, by rw [hpc, hpc'], ?_⟩
  unfold RetiresOnce Retires
  rw [if_neg (by decide), hpc, hpc']
  intro hret
  rcases hret with ⟨-, hmoved⟩ | ⟨-, htrap, -⟩
  · exact absurd hmoved (by decide)
  · rw [htrap] at hlen
    cases hlen

end RiscvHypervisor
