import RiscvHypervisor.Proof.Flush
import RiscvHypervisor.Proof.GuestView
import RiscvHypervisor.Proof.LoadDecoder

namespace RiscvHypervisor

open ByteMem RadixForest Except Transition

/-!
# Traps in the virtual machine

What a handler does to the host is what the virtual machine does in a step or two, or nothing at
all (`Answers`).  One lemma for each kind of trap, and `dispatch_answers` for all of them.

* `guest_check_deferred` — the interrupt that waits is taken;
* `csrrw`, `csrrs`, `mret` and `sfence.vma` — one step, after which an interrupt may be taken;
* a page fault in guest RAM — the translation buffer is filled;
* a page fault at a device — the device is accessed.
-/

variable {L : Layout} {s s' t : State} {v : VirtualMachine}

/-- What is seen of a trap that leads from `s` to `s'`: the observation it adds. -/
def newlyObserved (s s' : State) : Option VmEvent :=
  if s'.trace = s.trace then none else s'.trace.head?.map .observed

theorem newlyObserved_same (h : s'.trace = s.trace) : newlyObserved s s' = none := if_pos h

theorem newlyObserved_cons {o : Observation} (h : s'.trace = o :: s.trace) :
    newlyObserved s s' = some (.observed o) := by
  unfold newlyObserved
  rw [h, if_neg (List.cons_ne_self o s.trace)]
  rfl

theorem newlyObserved_congr (h : t.trace = s.trace) : newlyObserved t s' = newlyObserved s s' := by
  unfold newlyObserved
  rw [h]

/-- By the guest's table, as `v` has it, page `p` is at page `q`. -/
def VirtualMachine.Learns (v : VirtualMachine) (p q : Nat) : Prop :=
  v.hart.paged = true ∧
    ∃ va gm, v.Walks va gm ∧ InGuestRam gm ∧ pageOf va = p ∧ gm / 4096 = q

/-- The translation buffer learns by walks only. -/
theorem VmStep.learns {l : Option VmEvent} {v' : VirtualMachine} (h : VmStep v l v') {p q : Nat}
    (hnew : v'.tlb p q) : v.tlb p q ∨ v.Learns p q := by
  cases h with
  | @fill va gm paged walks ram =>
    obtain hcached | ⟨rfl, rfl⟩ := hnew
    · exact Or.inl hcached
    · exact Or.inr ⟨paged, va, gm, walks, ram, rfl, rfl⟩
  | sfence => exact hnew.elim
  | @deviceStore _ i gm d free fetched located register width stored =>
    -- no device register touches the buffer
    refine Or.inl ?_
    cases d with
    | mtime => cases stored
    | uartLsr => cases stored
    | _ =>
      cases stored
      exact hnew
  | _ => exact Or.inl hnew

/-- The virtual machine goes from `v` to `v'`, showing `l`.  The entries its buffer has in the end
    it has had on the way, and what it has learned was by the guest's table as it was in `v`. -/
structure VirtualMachine.Follows (v : VirtualMachine) (l : Option VmEvent) (v' : VirtualMachine) :
    Prop where
  run : (virtualMachine.keeping fun w => ∀ p q, v'.tlb p q → w.tlb p q).Run v l.toList v'
  learns : ∀ p q, v'.tlb p q → v.tlb p q ∨ v.Learns p q

theorem VmStep.follows {l : Option VmEvent} {v' : VirtualMachine} (hstep : VmStep v l v') :
    v.Follows l v' :=
  ⟨System.Run.single ⟨hstep, fun _ _ => id⟩, fun _ _ => hstep.learns⟩

/-- The virtual machine goes from `v` to what `s'` represents, showing what the trap shows. -/
def Answers (s : State) (v : VirtualMachine) (s' : State) : Prop :=
  ∃ v', v.Follows (newlyObserved s s') v' ∧ Represents s' v'

/-- Only what `s` has observed counts. -/
theorem Answers.congr (h : Answers t v s') (htrace : t.trace = s.trace) : Answers s v s' := by
  unfold Answers
  rw [← newlyObserved_congr htrace]
  exact h

/-- The same without a change of the buffer. -/
def Delivers (s : State) (v : VirtualMachine) (s' : State) : Prop :=
  ∃ v', (virtualMachine.keeping fun w => w.tlb = v.tlb).Run v (newlyObserved s s').toList v' ∧
    v'.tlb = v.tlb ∧ Represents s' v'

/-- Nothing the virtual machine could notice has changed. -/
theorem Represents.delivers_same (h : Represents s' v) (htrace : s'.trace = s.trace) :
    Delivers s v s' := by
  rw [Delivers, newlyObserved_same htrace]
  exact ⟨v, .refl, rfl, h⟩

theorem Represents.answers_same (h : Represents s' v) (htrace : s'.trace = s.trace) :
    Answers s v s' := by
  rw [Answers, newlyObserved_same htrace]
  exact ⟨v, ⟨.refl, fun _ _ => Or.inl⟩, h⟩

/-- One step that shows what the trap shows. -/
theorem VmStep.answers_shown {v' : VirtualMachine} {l : Option VmEvent} (hstep : VmStep v l v')
    (h : Represents s' v') (hshown : newlyObserved s s' = l) : Answers s v s' := by
  rw [Answers, hshown]
  exact ⟨v', hstep.follows, h⟩

/-- One step that nobody sees. -/
theorem VmStep.answers {v' : VirtualMachine} (hstep : VmStep v none v') (h : Represents s' v')
    (htrace : s'.trace = s.trace) : Answers s v s' :=
  hstep.answers_shown h (newlyObserved_same htrace)

/-- One step before the interrupt that may be taken after it. -/
theorem Delivers.after {v' : VirtualMachine} (h : Delivers t v' s') (hstep : VmStep v none v')
    (htrace : t.trace = s.trace) : Answers s v s' := by
  obtain ⟨w, hrun, htlb, hrep⟩ := h
  rw [newlyObserved_congr htrace] at hrun
  have hfirst : (virtualMachine.keeping fun u => ∀ p q, w.tlb p q → u.tlb p q).Run v [] v' := by
    refine System.Run.single (l := none) ⟨hstep, ?_⟩
    rw [htlb]
    exact fun _ _ => id
  have hrest : (virtualMachine.keeping fun u => ∀ p q, w.tlb p q → u.tlb p q).Run v'
      (newlyObserved s s').toList w := by
    refine hrun.weaken (fun u hu => ?_)
    rw [htlb, hu]
    exact fun _ _ => id
  refine ⟨w, ⟨hfirst.trans hrest, fun p q hpq => hstep.learns ?_⟩, hrep⟩
  rw [← htlb]
  exact hpq

theorem virtualHart_setGuest (s : State) (g : GuestThreadContext) :
    (s.setGuest g).virtualHart = ⟨s.host.activeRegs, s.hart.mepc, g.userMode, g.shadowPtActive,
      g.csr.file, g.deferredException, g.timerScheduled, g.timerDeadline, s.uart.received⟩ := by
  unfold State.virtualHart
  rw [State.guest_setGuest]
  rfl

theorem Caches.same {st st' : Store} {root : Nat} {tlb : Nat → Nat → Prop} (h : Caches st root tlb)
    (hmem : SameMem st st') : Caches st' root tlb := by
  refine h.congr (fun p _ => ?_)
  unfold shadowPte
  rw [hmem.load64]

/-- Only the hart has changed. -/
theorem Represents.setHart (h : Represents s v) {hart : VirtualHart} (hhart : t.virtualHart = hart)
    (hmem : SameMem s.store t.store) (hprinted : t.store.printed = s.store.printed)
    (hroot : t.guest.shadowPageTable = s.guest.shadowPageTable) :
    Represents t (v.setHart hart) := by
  refine ⟨hhart.symm, h.ram.congr hmem.sameGuestRam, ?_, ?_⟩
  · rw [hroot]
    exact h.tlb.same hmem
  · rw [hprinted]
    exact h.console

/-! ### Delivery -/

/-- Entering the trap handler leaves the UART alone. -/
theorem guestException_uart {mcause : Word} (h : guestException L mcause s = .ok s') :
    s'.uart = s.uart := by
  unfold guestException at h
  split at h
  · cases h
  · cases h
    dsimp only
    split
    · rfl
    · rfl

theorem guestException_virtualHart {mcause : Word} (h : guestException L mcause s = .ok s') :
    s'.virtualHart = s.virtualHart.trap mcause s.hart.mtval := by
  obtain ⟨-, ht⟩ := trapped_of_guestException h
  have hfile : (s.guest.trap mcause s.hart.mepc s.hart.mtval).csr.file =
      s.guest.csr.file.trap s.hart.mepc mcause s.hart.mtval := GuestCsr.file_trap _ _ _ _
  unfold State.virtualHart
  rw [ht.guest, ht.mepc, ht.host, guestException_uart h, hfile]
  rfl

/-- The trap handler is entered. -/
theorem Represents.guestException (h : Represents s v) {mcause : Word}
    (hok : guestException L mcause s = .ok s') :
    Represents s' (v.setHart (v.hart.trap mcause s.hart.mtval)) := by
  obtain ⟨-, ht⟩ := trapped_of_guestException hok
  refine h.setHart ?_ ht.sameMem ?_ ?_
  · rw [guestException_virtualHart hok, h.hart]
  · rw [ht.store]
    split
    · rfl
    · rfl
  · rw [ht.guest]
    rfl

/-- **Delivery.**  `guest_check_deferred` lets the virtual machine take its interrupt. -/
theorem Represents.checked (h : Represents t v)
    (hcause : t.guest.deferredException = true → t.guest.deferredMcause = timerCause)
    (hcheck : Checked L t s') : Delivers t v s' := by
  rcases hcheck.cases with ⟨rfl, -⟩ | hdel
  · exact h.delivers_same rfl
  obtain ⟨b, hcheck⟩ := hcheck
  unfold guestCheckDeferred at hcheck
  rw [if_neg (by simp [hdel.mie, hdel.mdt]), if_pos hdel.pending] at hcheck
  obtain ⟨s₁, hok, hret⟩ := bind_eq_ok.mp hcheck
  cases hret
  rw [State.guest_setGuest] at hok
  change RiscvHypervisor.guestException L t.guest.deferredMcause
    (t.setGuest { t.guest with deferredException := false }) = .ok s' at hok
  rw [hcause hdel.pending] at hok
  have hbefore : Represents (t.setGuest { t.guest with deferredException := false })
      (v.setHart { v.hart with pending := false }) := by
    refine h.setHart ?_ (SameMem.refl _) rfl (by rw [State.guest_setGuest])
    rw [virtualHart_setGuest, h.hart]
    rfl
  have hafter := hbefore.guestException hok
  have htrace : s'.trace = .guestTrap timerCause :: t.trace :=
    (trapped_of_guestException hok).2.trace
  have htaken : v.hart.Interrupted := by
    rw [h.hart]
    exact ⟨hdel.pending, t.guest.csr.enabled_iff.mpr ⟨hdel.mie, hdel.mdt⟩⟩
  have huser : v.hart.userMode = true := by
    rw [h.hart]
    exact hdel.user
  rw [Delivers, newlyObserved_cons htrace]
  exact ⟨_, System.Run.single ⟨VmStep.interrupt htaken huser t.hart.mtval, rfl⟩, rfl, hafter⟩

/-! ### Interrupts and `ecall` -/

/-- Between traps no interrupt waits. -/
theorem Represents.free (h : Represents s v) (hset : Settled s.guest) : ¬ v.hart.Interrupted := by
  rw [h.hart]
  intro hc
  obtain ⟨hmie, hmdt⟩ := s.guest.csr.enabled_iff.mp hc.2
  exact hset ⟨hc.1, hmie, hmdt⟩

/-- **The timer.** -/
theorem Represents.timerOnInterrupt (h : Represents s v) (htgt : Target s)
    (hok : timerOnInterrupt L s = .ok s') : Answers s v s' := by
  unfold RiscvHypervisor.timerOnInterrupt at hok
  by_cases hneg : s.interruptTarget.machine < 0
  · rw [if_pos hneg] at hok
    cases hok
    exact h.answers_same rfl
  rw [if_neg hneg] at hok
  have harmed : v.hart.armed = true := by
    rw [h.hart]
    exact (htgt.scheduled (Int.not_lt.mp hneg)).2
  have hstep := VmStep.timer harmed
  split at hok
  · cases hok
  unfold guestDeferException at hok
  rw [State.guest_setGuest] at hok
  by_cases hdef : s.guest.deferredException = true
  · -- a second interrupt is lost
    rw [if_pos hdef] at hok
    cases hok
    refine hstep.answers (h.setHart ?_ (SameMem.refl _) rfl (by rw [State.guest_setGuest])) rfl
    rw [virtualHart_setGuest, h.hart]
    dsimp only
    rw [hdef]
    rfl
  · rw [if_neg hdef] at hok
    obtain ⟨⟨b, s₁⟩, hcheck, hret⟩ := bind_eq_ok.mp hok
    cases hret
    have hpending : Represents (((s.setGuest { s.guest with timerScheduled := false }).setGuest
        { s.guest with
          timerScheduled := false, deferredException := true, deferredMcause := timerCause }))
        (v.setHart { v.hart with armed := false, pending := true }) := by
      refine h.setHart ?_ (SameMem.refl _) rfl (by rw [State.guest_setGuest])
      rw [virtualHart_setGuest, h.hart]
      rfl
    refine Delivers.after (hpending.checked ?_ ⟨b, hcheck⟩) hstep rfl
    intro _
    rw [State.guest_setGuest]

/-- **`ecall`.** -/
theorem Represents.ecall (h : Represents s v) (hset : Settled s.guest)
    (hok : RiscvHypervisor.guestException L 8 s = .ok s') : Answers s v s' := by
  obtain ⟨huser, ht⟩ := trapped_of_guestException hok
  have huser' : v.hart.userMode = true := by
    rw [h.hart]
    exact huser
  exact (VmStep.ecall (h.free hset) huser' s.hart.mtval).answers_shown (h.guestException hok)
    (newlyObserved_cons ht.trace)

/-! ### Emulated instructions -/

/-- Writing a register, in the host's state. -/
theorem virtualHart_writeReg (s : State) (r : Nat) (value : Word) :
    (if r ≠ 0 then s.setReg (r - 1) value else s).virtualHart =
      s.virtualHart.writeReg r value := by
  unfold VirtualHart.writeReg
  by_cases hr : r = 0
  · rw [if_neg (not_not_intro hr), if_neg (not_not_intro hr)]
  · rw [if_pos hr, if_pos hr]
    rfl

/-- Going on after the instruction at `pc`. -/
theorem virtualHart_advance {pc : Word} (hpc : s.hart.mepc = pc) (length : Nat) :
    (s.setMepc (pc + BitVec.ofNat 64 length)).virtualHart = s.virtualHart.advance length := by
  rw [← hpc]
  rfl

/-- Every system instruction is of the I format. -/
theorem exists_system {word : Nat} (hword : word < 2 ^ 32)
    (hop : (unpackInstruction word).opcode = 0x73) :
    ∃ (csr : BitVec 12) (rs1 : BitVec 5) (funct3 : BitVec 3) (rd : BitVec 5),
      word = (Rv64.iType csr rs1 funct3 rd 0b1110011).toNat ∧
      unpackInstruction word = ⟨0x73, rd.toNat, funct3.toNat, rs1.toNat, csr.toNat % 2 ^ 5,
        csr.toNat / 2 ^ 5⟩ := by
  obtain ⟨csr, rs1, funct3, rd, opcode, heq⟩ := exists_iType hword
  have hunpack := unpackInstruction_iType csr rs1 funct3 rd opcode
  rw [heq, hunpack] at hop
  have hopcode : opcode = 0b1110011 := BitVec.eq_of_toNat_eq hop
  rw [hopcode] at heq hunpack
  rw [← heq] at hunpack
  exact ⟨csr, rs1, funct3, rd, heq, hunpack⟩

/-- The number of the CSR is in two fields. -/
theorem csrId_fields (csr : BitVec 12) :
    (csr.toNat / 2 ^ 5) <<< 5 ||| csr.toNat % 2 ^ 5 = csr.toNat := by
  rw [← Nat.shiftLeft_add_eq_or_of_lt (Nat.mod_lt _ (by decide)), Nat.shiftLeft_eq]
  omega

/-- **CSR accesses.**  What they have in common: the check for an interrupt comes last. -/
theorem Represents.csr (h : Represents s v) (hcore : Core L s) {rd : Nat} {old : Word}
    {csr : GuestCsr} (hstep : VmStep v none
      (v.setHart (({ v.hart with csrs := csr.file }.writeReg rd old).advance 4)))
    (hguest : t.guest = { s.guest with csr := csr }) (hstore : t.store = s.store)
    (htrace : t.trace = s.trace)
    (hhart : t.virtualHart =
      ({ s.virtualHart with csrs := csr.file }.writeReg rd old).advance 4)
    (hcheck : Checked L t s') : Answers s v s' := by
  rw [← h.hart] at hhart
  refine Delivers.after (Represents.checked
    (h.setHart hhart (SameMem.of_eq hstore) (by rw [hstore]) (by rw [hguest])) ?_ hcheck)
    hstep htrace
  rw [hguest]
  exact hcore.priv.cause

/-- **`csrrw`.** -/
theorem Represents.csrrw (h : Represents s v) (hcore : Core L s) (hset : Settled s.guest)
    {rd rs1 : BitVec 5} {number : BitVec 12}
    (hfetch : v.Fetches (Rv64.Privileged.csrrw rd rs1 number).encode)
    (hok : emulateCsrrw L s.hart.mepc ⟨0x73, rd.toNat, 1, rs1.toNat, number.toNat % 2 ^ 5,
      number.toNat / 2 ^ 5⟩ s = .ok s') : Answers s v s' := by
  obtain ⟨old, csr, hold, hcsr, hcheck⟩ := emulateCsrrw_ok hok
  dsimp only at hold hcsr hcheck
  rw [csrId_fields] at hold hcsr
  obtain ⟨held, hheld⟩ := getVirtualCsr_of_setVirtualCsr hcsr
  have hguest := State.guest_setGuest s { s.guest with csr := csr }
  -- without a destination the old value is not read
  have hreg : ∀ hart : VirtualHart, hart.writeReg rd.toNat old = hart.writeReg rd.toNat held := by
    intro hart
    by_cases hrd : rd.toNat = 0
    · rw [hrd]
      rfl
    · rw [if_pos hrd, hheld] at hold
      cases hold
      rfl
  have hreads : v.hart.csrs.Reads number.toNat held := by
    rw [h.hart]
    exact GuestCsr.reads hheld
  have hwrites : v.hart.csrs.Writes number.toNat (v.hart.reg rs1.toNat) csr.file := by
    rw [h.hart]
    exact GuestCsr.writes hcsr
  have hstep := VmStep.csrrw (h.free hset) hfetch hreads hwrites
  refine h.csr hcore hstep ?_ ?_ ?_ ?_ hcheck
  · rw [State.guest_setMepc, guest_writeReg, hguest]
  · rw [State.store_setMepc, store_writeReg, State.store_setGuest]
  · rw [State.trace_setMepc, trace_writeReg, State.trace_setGuest]
  · rw [← hreg]
    refine (virtualHart_advance ?_ 4).trans ?_
    · rw [hart_writeReg, State.hart_setGuest]
    · rw [virtualHart_writeReg, virtualHart_setGuest]
      rfl

/-- **`csrrs`.** -/
theorem Represents.csrrs (h : Represents s v) (hcore : Core L s) (hset : Settled s.guest)
    {rd rs1 : BitVec 5} {number : BitVec 12}
    (hfetch : v.Fetches (Rv64.Privileged.csrrs rd rs1 number).encode)
    (hok : emulateCsrrs L s.hart.mepc ⟨0x73, rd.toNat, 2, rs1.toNat, number.toNat % 2 ^ 5,
      number.toNat / 2 ^ 5⟩ s = .ok s') : Answers s v s' := by
  obtain ⟨old, csr, hold, hcsr, hcheck⟩ := emulateCsrrs_ok hok
  dsimp only at hold hcsr hcheck
  rw [csrId_fields] at hold hcsr
  rw [guest_writeReg] at hcsr hcheck
  have hregs := virtualHart_writeReg s rd.toNat old
  have hguest₁ : (if rd.toNat ≠ 0 then s.setReg (rd.toNat - 1) old else s).guest = s.guest :=
    guest_writeReg
  have hstore : (if rd.toNat ≠ 0 then s.setReg (rd.toNat - 1) old else s).store = s.store :=
    store_writeReg
  have htrace : (if rd.toNat ≠ 0 then s.setReg (rd.toNat - 1) old else s).trace = s.trace :=
    trace_writeReg
  have hmepc : (if rd.toNat ≠ 0 then s.setReg (rd.toNat - 1) old else s).hart.mepc =
      s.hart.mepc := by
    rw [hart_writeReg]
  generalize (if rd.toNat ≠ 0 then s.setReg (rd.toNat - 1) old else s) = s₁
    at hcsr hcheck hregs hguest₁ hstore htrace hmepc
  -- `rs1` is read after `rd` is written, on both sides
  have hwritten : if rs1 = 0 then csr.file = s.virtualHart.csrs
      else s.virtualHart.csrs.Writes number.toNat
        (old ||| (s.virtualHart.writeReg rd.toNat old).reg rs1.toNat) csr.file := by
    by_cases hrs1 : rs1 = 0
    · rw [if_pos hrs1]
      rw [hrs1] at hcsr
      cases hcsr
      rfl
    · have hne : rs1.toNat ≠ 0 := fun hc => hrs1 (BitVec.eq_of_toNat_eq hc)
      rw [if_neg hrs1]
      rw [if_pos hne] at hcsr
      rw [← hregs]
      show GuestCsr.file s.guest.csr |>.Writes number.toNat
        (old ||| readReg s₁.host.activeRegs rs1.toNat) csr.file
      rw [readReg_of_ne_zero hne]
      exact GuestCsr.writes hcsr
  rw [← h.hart] at hwritten
  have hreads : v.hart.csrs.Reads number.toNat old := by
    rw [h.hart]
    exact GuestCsr.reads hold
  have hstep := VmStep.csrrs (h.free hset) hfetch hreads hwritten
  refine h.csr hcore hstep ?_ ?_ ?_ ?_ hcheck
  · rw [State.guest_setMepc, State.guest_setGuest]
  · rw [State.store_setMepc, State.store_setGuest, hstore]
  · rw [State.trace_setMepc, State.trace_setGuest, htrace]
  · refine (virtualHart_advance ?_ 4).trans ?_
    · exact hmepc
    · rw [virtualHart_setGuest, VirtualHart.writeReg_csrs, ← hregs, ← hguest₁]
      rfl

/-- **`sfence.vma`.**  The shadow table is empty afterwards, as is the buffer. -/
theorem Represents.sfence (h : Represents s v) (hcore : Core L s) (hset : Settled s.guest)
    {rs1 rs2 : BitVec 5} (hfetch : v.Fetches (Rv64.Privileged.sfenceVma rs1 rs2).encode)
    (hok : flushShadowPagetable s = .ok t) : Answers s v (t.setMepc (s.hart.mepc + 4)) := by
  have hprinted := printed_flushShadowPagetable hok
  obtain ⟨st', heq, -, hram, hempty⟩ := flushShadowPagetable_spec hcore
  rw [heq] at hok
  cases hok
  refine VmStep.answers (VmStep.sfence (h.free hset) hfetch) ⟨?_, ?_, ?_, ?_⟩ rfl
  · show v.hart.advance 4 = _
    rw [h.hart]
    rfl
  · exact h.ram.congr hram
  · rcases hempty with ⟨hroot, -⟩ | ⟨-, hzero⟩
    · exact fun hne => absurd hroot hne
    · refine Caches.of_empty _ (fun p _ => shadowPte_of_empty (fun i hi => ?_) p)
      show (st'.entry s.guest.shadowPageTable i).testBit 0 = false
      rw [hzero i hi, Nat.zero_testBit]
  · show Rendered v.transmitted st'.printed
    rw [show st'.printed = s.store.printed from hprinted]
    exact h.console

/-- A new shadow root maps nothing. -/
theorem newRoot_caches {st : Store} (h : MemInv L 0 st) (tlb : Nat → Nat → Prop) :
    SameGuestRam st (allocatePagepable L st).2 ∧
      Caches (allocatePagepable L st).2 (allocatePagepable L st).1 tlb := by
  obtain ⟨own, free, hvm⟩ := h.vm
  rcases hvm.newRoot_spec with ⟨-, hleft⟩ | ⟨p, st', free', heq, hp, -, hvm', hram, -⟩
  · exact absurd hleft (Nat.ne_of_gt hvm.pagesLeft_pos)
  rw [heq]
  refine ⟨hram, ?_⟩
  intro hroot key e hkey he
  obtain ⟨t, ht, -⟩ := (shadowPte_eq_some hvm' hroot hkey).mp he
  -- the root is no leaf table, and all others are the machine tree's
  by_cases htp : t = p
  · rw [htp, Function.update_self] at ht
    cases ht
  · rw [Function.update_of_ne htp] at ht
    cases hvm.tree_eq_machine t _ ht

/-- The two modes of `satp` that `guest_mret` knows. -/
theorem satpMode_cases (mode : BitVec 4) :
    (mode.setWidth 64 <<< SATP_MODE_SHIFT = SATP_MODE_NONE ↔ mode = 0) ∧
      (mode.setWidth 64 <<< SATP_MODE_SHIFT = SATP_MODE_SV39 ↔ mode = 8) := by
  revert mode
  decide

/-- The switch of translation.  The fence behind it has nothing to do with what `s` represents. -/
theorem Represents.mretTranslation (h : Represents s v)
    (hmem : MemInv L s.guest.shadowPageTable s.store) (hoff : s.guest.shadowPtActive = false)
    (hok : mretTranslation L s = .ok t) :
    (s.guest.csr.satpMode = 0 ∨ s.guest.csr.satpMode = 8) ∧
      Represents t (v.setHart { v.hart with paged := decide (s.guest.csr.satpMode = 8) }) := by
  unfold RiscvHypervisor.mretTranslation at hok
  dsimp only at hok
  split at hok
  · rename_i hnone
    rw [(satpMode_cases _).1] at hnone
    cases hok
    refine ⟨Or.inl hnone, h.setHart ?_ (SameMem.refl _) rfl rfl⟩
    rw [h.hart, hnone]
    unfold State.virtualHart
    rw [hoff]
    rfl
  split at hok
  · rename_i hsv39
    rw [(satpMode_cases _).2] at hsv39
    cases hok
    rw [State.guest_setGuest, hsv39]
    refine ⟨Or.inr rfl, ?_⟩
    by_cases hroot : s.guest.shadowPageTable = 0
    · -- the first time: the new shadow table is empty, and caches nothing
      rw [if_pos hroot]
      rw [hroot] at hmem
      obtain ⟨hram, hcaches⟩ := newRoot_caches hmem v.tlb
      refine ⟨?_, h.ram.congr hram, ?_, ?_⟩
      · show { v.hart with paged := true } = _
        rw [h.hart]
        unfold State.virtualHart
        rw [State.guest_vmemFence, State.guest_setSatp, State.guest_setGuest]
        rfl
      · rw [State.guest_vmemFence, State.guest_setSatp, State.guest_setGuest]
        exact hcaches
      · show Rendered v.transmitted (allocatePagepable L s.store).2.printed
        rw [printed_allocatePagepable]
        exact h.console
    · -- later: the old one is used again, with whatever it caches
      rw [if_neg hroot]
      refine h.setHart ?_ (SameMem.fence _) rfl ?_
      · rw [h.hart]
        unfold State.virtualHart
        rw [State.guest_vmemFence, State.guest_setSatp, State.guest_setGuest]
        rfl
      · rw [State.guest_vmemFence, State.guest_setSatp, State.guest_setGuest]
  · cases hok

/-- `guest_mret` up to the switch of translation. -/
def State.returned (s : State) : State :=
  ((s.setGuest { s.guest with userMode := true }).setMepc s.guest.csr.mepc).setGuest
    { s.guest with userMode := true, csr := { s.guest.csr with mstatusMdt := false } }

theorem guestMret_ok (hok : guestMret L s = .ok s') :
    s.guest.userMode = false ∧ ∃ t, mretTranslation L s.returned = .ok t ∧ Checked L t s' := by
  unfold guestMret at hok
  by_cases hu : s.guest.userMode = true
  · rw [if_pos hu] at hok
    cases hok
  rw [if_neg hu] at hok
  simp only [State.guest_setGuest, State.guest_setMepc] at hok
  obtain ⟨t, ht, hok⟩ := bind_eq_ok.mp hok
  obtain ⟨⟨b, s₂⟩, hcheck, hret⟩ := bind_eq_ok.mp hok
  cases hret
  exact ⟨eq_false_of_ne_true hu, t, ht, b, hcheck⟩

/-- **`mret`.** -/
theorem Represents.mret (h : Represents s v) (hcore : Core L s) (hset : Settled s.guest)
    (hfetch : v.Fetches Rv64.Privileged.mret.encode) (hok : guestMret L s = .ok s') :
    Answers s v s' := by
  obtain ⟨hu, t, ht, hcheck⟩ := guestMret_ok hok
  have hguest : s.returned.guest = { s.guest with
      userMode := true, csr := { s.guest.csr with mstatusMdt := false } } :=
    State.guest_setGuest _ _
  have hoff : s.guest.shadowPtActive = false := by
    by_contra hc
    rw [(hcore.priv.active (by simpa using hc)).1] at hu
    cases hu
  have hfile : ({ s.guest.csr with mstatusMdt := false } : GuestCsr).file =
      s.guest.csr.file.mret := GuestCsr.file_mret _
  have hreturned : Represents s.returned (v.setHart { v.hart.jump (v.hart.csrs .mepc) with
      userMode := true, csrs := v.hart.csrs.mret }) := by
    refine h.setHart ?_ (SameMem.refl _) rfl (by rw [hguest])
    rw [h.hart]
    refine (virtualHart_setGuest _ _).trans ?_
    rw [hfile]
    rfl
  have hmem : MemInv L s.returned.guest.shadowPageTable s.returned.store := by
    rw [hguest]
    exact hcore.mem
  have hoff' : s.returned.guest.shadowPtActive = false := by
    rw [hguest]
    exact hoff
  obtain ⟨hmode, hrep⟩ := hreturned.mretTranslation hmem hoff' ht
  obtain ⟨⟨root, active, hguest'⟩, -, htrace⟩ := mretTranslation_cases ht
  rw [hguest] at hmode hrep hguest'
  have hsatp : v.hart.csrs.satpMode = s.guest.csr.satpMode := by
    rw [h.hart]
    exact GuestCsr.file_satpMode _
  have hmachine : v.hart.userMode = false := by
    rw [h.hart]
    exact hu
  rw [← hsatp] at hmode
  have hstep := VmStep.mret (h.free hset) hfetch hmachine hmode
  refine Delivers.after (Represents.checked ?_ ?_ hcheck) hstep htrace
  · unfold VirtualHart.mret
    rw [hsatp]
    exact hrep
  · rw [hguest']
    exact hcore.priv.cause

/-- Only system instructions are emulated. -/
theorem emulateInstruction_opcode {guestAddr : Word} {u : UnpackedInstruction}
    (h : emulateInstruction L guestAddr u s = .ok s') : u.opcode = 0x73 := by
  unfold emulateInstruction at h
  by_contra hop
  rw [if_pos hop] at h
  cases h

/-- The `sfence.vma` case. -/
theorem emulateInstruction_fence {guestAddr : Word} {u : UnpackedInstruction}
    (h : emulateInstruction L guestAddr u s = .ok s') (hf3 : u.funct3 = 0) (hf7 : u.funct7 = 9) :
    u.rd = 0 ∧ ∃ t, flushShadowPagetable s = .ok t ∧ s' = t.setMepc (guestAddr + 4) := by
  unfold emulateInstruction at h
  rw [hf3, hf7] at h
  split at h
  · cases h
  rw [if_neg (by decide)] at h
  by_cases hrd : u.rd = 0
  · rw [if_pos ⟨rfl, hrd⟩] at h
    obtain ⟨t, ht, hret⟩ := bind_eq_ok.mp h
    cases hret
    exact ⟨hrd, t, ht, rfl⟩
  · rw [if_neg (fun hc => hrd hc.2), if_neg (fun hc => absurd hc.1 (by decide)),
      if_neg (fun hc => absurd hc.1 (by decide))] at h
    cases h

/-- An instruction is at most 32 bits long. -/
theorem dereferenceInstruction_lt (m : Mem) (a : Nat) : dereferenceInstruction m a < 2 ^ 32 := by
  rcases dereferenceInstruction_cases m a with ⟨heq, -⟩ | ⟨heq, -⟩
  · rw [heq]
    exact load_lt m a 4
  · rw [heq]
    exact lt_trans (load_lt m a 2) (by decide)

/-- The twelve bits of `sfence.vma` and `mret` where a CSR number would be. -/
theorem system_fields {csr : BitVec 12} {funct7 : BitVec 7} {rs2 : BitVec 5}
    (hhigh : csr.toNat / 2 ^ 5 = funct7.toNat) (hlow : csr.toNat % 2 ^ 5 = rs2.toNat) :
    csr = funct7 ++ rs2 := by
  refine BitVec.eq_of_toNat_eq ?_
  rw [Rv64.toNat_append_eq, ← hhigh, ← hlow]
  omega

/-- **Emulated instructions.** -/
theorem Represents.handleIllegalInstruction (h : Represents s v) (hcore : Core L s)
    (hset : Settled s.guest) (hok : handleIllegalInstruction L s = .ok s') : Answers s v s' := by
  unfold RiscvHypervisor.handleIllegalInstruction at hok
  dsimp only at hok
  split at hok
  · cases hok
  obtain ⟨host, hhost, hok⟩ := bind_eq_ok.mp hok
  have hfetch := h.fetches hcore hhost
  obtain ⟨csr, rs1, funct3, rd, hword, hunpack⟩ :=
    exists_system (dereferenceInstruction_lt _ _) (emulateInstruction_opcode hok)
  rw [hword] at hfetch
  rw [hunpack] at hok
  rcases emulateInstruction_cases hok with
    ⟨hf3, hf7, -⟩ | ⟨hinstr, hmret⟩ | ⟨-, rfl⟩ | ⟨hf3, hcsr⟩ | ⟨hf3, hcsr⟩
  · obtain ⟨hrd, t, ht, rfl⟩ := emulateInstruction_fence hok hf3 hf7
    have hf3' : funct3 = 0 := BitVec.eq_of_toNat_eq hf3
    have hrd' : rd = 0 := BitVec.eq_of_toNat_eq hrd
    have hcsr : csr = (0b0001001 : BitVec 7) ++ BitVec.ofNat 5 csr.toNat :=
      system_fields hf7 (BitVec.toNat_ofNat _ _).symm
    rw [hf3', hrd', hcsr] at hfetch
    exact h.sfence hcore hset hfetch ht
  · obtain ⟨hrd, hf3, hrs1, hlow, hhigh⟩ : rd = 0 ∧ funct3 = 0 ∧ rs1 = 0 ∧
        csr.toNat % 2 ^ 5 = 2 ∧ csr.toNat / 2 ^ 5 = 24 := by
      injection hinstr with _ hrd hf3 hrs1 hlow hhigh
      exact ⟨BitVec.eq_of_toNat_eq hrd, BitVec.eq_of_toNat_eq hf3, BitVec.eq_of_toNat_eq hrs1,
        hlow, hhigh⟩
    have hcsr : csr = 0b001100000010 :=
      (show csr = (24 : BitVec 7) ++ (2 : BitVec 5) from system_fields hhigh hlow).trans rfl
    rw [hrd, hf3, hrs1, hcsr] at hfetch
    exact h.mret hcore hset hfetch hmret
  · -- `wfi` does nothing at all
    exact h.answers_same rfl
  · have hf3' : funct3 = 1 := BitVec.eq_of_toNat_eq hf3
    rw [hf3'] at hfetch hcsr
    exact h.csrrw hcore hset hfetch hcsr
  · have hf3' : funct3 = 2 := BitVec.eq_of_toNat_eq hf3
    rw [hf3'] at hfetch hcsr
    exact h.csrrs hcore hset hfetch hcsr

end RiscvHypervisor
