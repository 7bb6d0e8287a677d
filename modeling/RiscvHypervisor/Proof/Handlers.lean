import RiscvHypervisor.Proof.Decoder
import RiscvHypervisor.Proof.GuestWalk
import RiscvHypervisor.Proof.Privilege

namespace RiscvHypervisor

open RadixForest Except

/-!
# The handlers keep the invariant

`Core` and `Settled` are kept by every handler that returns, and no handler fails with a panic that
is `Excluded`.  One lemma for each function of `vmem.c`, `guestprivilege.c` and `exchandlers.c` that
a trap can reach, to be put together for a trap as a whole in `exception_spec`.
-/

variable {L : Layout} {s s' : State}

/-! ### mret -/

/-- The shadow root that `guest_mret` installs is there. -/
theorem MemInv.newRoot {st : Store} (h : MemInv L 0 st) :
    ∃ p st', allocatePagepable L st = (p, st') ∧ p ≠ 0 ∧ MemInv L p st' := by
  obtain ⟨own, free, hvm⟩ := h.vm
  rcases hvm.newRoot_spec with ⟨-, hleft⟩ | ⟨p, st', free', heq, hp, -, hvm', -, hfreed⟩
  · exact absurd hleft (Nat.ne_of_gt hvm.pagesLeft_pos)
  · refine ⟨p, st', heq, hp, ⟨⟨_, free', hvm'⟩, ?_, fun h0 => absurd h0 hp⟩⟩
    intro c hc
    rw [hfreed, h.unfreed rfl] at hc
    cases hc

/-- The switch of translation, from a state that is in user mode already. -/
theorem mretTranslation_spec (h : Core L s) (hu : s.guest.userMode = true) :
    (mretTranslation L s).Post (fun e => e = .unsupportedPagetableMode) (Core L) := by
  unfold mretTranslation
  by_cases hnone : s.guest.csr.satpMode.setWidth 64 <<< SATP_MODE_SHIFT = SATP_MODE_NONE
  · simp only [hnone, if_true]
    exact post_ok.mpr h
  by_cases hsv39 : s.guest.csr.satpMode.setWidth 64 <<< SATP_MODE_SHIFT = SATP_MODE_SV39
  swap
  · simp only [hnone, hsv39, if_false]
    exact post_error.mpr rfl
  simp only [hsv39, if_true]
  by_cases hroot : s.guest.shadowPageTable = 0
  · -- the first switch allocates the root of the shadow table
    have hmem := h.mem
    rw [hroot] at hmem
    obtain ⟨p, st', heq, hp, hmem'⟩ := hmem.newRoot
    simp only [State.guest_setGuest, State.store_setGuest, hroot, if_true, heq]
    refine post_ok.mpr ⟨h.current, ?_, ?_⟩
    · rw [State.guest_vmemFence, State.guest_setSatp, State.guest_setGuest]
      exact hmem'.same (SameMem.fence st')
    · simp only [State.guest_vmemFence, State.guest_setSatp, State.guest_setGuest]
      exact ⟨rfl, fun _ => ⟨hu, hp⟩, h.priv.mdt, h.priv.cause, h.priv.count⟩
  · simp only [State.guest_setGuest, hroot, if_false]
    refine post_ok.mpr ⟨h.current, ?_, ?_⟩
    · rw [State.guest_vmemFence, State.guest_setSatp, State.guest_setGuest]
      exact h.mem.same (SameMem.fence s.store)
    · simp only [State.guest_vmemFence, State.guest_setSatp, State.guest_setGuest]
      exact ⟨rfl, fun _ => ⟨hu, hroot⟩, h.priv.mdt, h.priv.cause, h.priv.count⟩

/-- **mret.** -/
theorem guestMret_spec (h : Core L s) :
    (guestMret L s).Post (fun e => ¬ e.Excluded) (fun s' => Core L s' ∧ Settled s'.guest) := by
  unfold guestMret
  by_cases hu : s.guest.userMode = true
  · rw [if_pos hu]
    simp [Panic.Excluded]
  rw [if_neg hu]
  -- in machine mode the machine table is in use, so `satp` is still right before the switch
  have hact : s.guest.shadowPtActive = false := by
    by_contra hc
    exact hu (h.priv.active (by simpa using hc)).1
  simp only
  refine Post.bind (Q := Core L) ((mretTranslation_spec ?_ ?_).mono ?_ (fun _ hs => hs)) ?_
  · -- user mode without `mstatus.MDT`: the invariant asks nothing of this combination
    refine ⟨h.current, ?_, ?_⟩
    · simpa using h.mem
    · simp only [State.guest_setGuest, State.guest_setMepc]
      exact ⟨h.priv.satp_eq, fun hc => absurd hc (by simp [hact]), fun hc => absurd hc (by simp),
        h.priv.cause, h.priv.count⟩
  · simp
  · rintro e rfl
    simp [Panic.Excluded]
  · intro s₁ h₁
    obtain ⟨b, s₂, heq, hcore, hset, -⟩ := guestCheckDeferred_spec h₁
    rw [heq]
    exact post_ok.mpr ⟨hcore, hset⟩

/-! ### sfence.vma -/

/-- Emptying the shadow table. -/
theorem flushShadowPagetable_spec (h : Core L s) :
    ∃ st', flushShadowPagetable s = .ok { s with store := st' } ∧
      MemInv L s.guest.shadowPageTable st' ∧ SameGuestRam s.store st' ∧
      (s.guest.shadowPageTable = 0 ∧ st' = s.store ∨
        s.guest.shadowPageTable ≠ 0 ∧
          ∀ i, i < 512 → st'.entry s.guest.shadowPageTable i = 0) := by
  unfold flushShadowPagetable
  by_cases hroot : s.guest.shadowPageTable = 0
  · rw [if_pos hroot]
    exact ⟨s.store, rfl, h.mem, SameGuestRam.refl _, Or.inl ⟨hroot, rfl⟩⟩
  rw [if_neg hroot]
  obtain ⟨own, free, hvm⟩ := h.mem.vm
  -- below the root of the shadow table there are two levels of tables to give back
  have hpost := clearPagetable_spec 2 teardownDepth (by decide) (hvm.shadow_of_ne_zero hroot) hvm
  cases hclear : clearPagetable teardownDepth s.guest.shadowPageTable s.store with
  | error e => exact absurd (hpost.error hclear) id
  | ok st' =>
    obtain ⟨own', free', htrims, hzero⟩ := hpost.ok hclear
    refine ⟨st'.vmemFence, rfl, ⟨⟨own', free', htrims.inv.same (SameMem.fence st')⟩, ?_,
      fun h0 => absurd h0 hroot⟩, htrims.ram, Or.inr ⟨hroot, hzero⟩⟩
    intro c hc
    rcases htrims.freed c hc with hc | hc
    · exact h.mem.freed c hc
    · exact hc

/-! ### Virtual CSRs -/

/-- No CSR of the hypervisor has this number. -/
structure UnknownCsr (csrId : Nat) : Prop where
  mstatus : csrId ≠ CSR_mstatus
  mie : csrId ≠ CSR_mie
  mtvec : csrId ≠ CSR_mtvec
  satp : csrId ≠ CSR_satp
  pmp : isPmpCsr csrId ≠ true
  mepc : csrId ≠ CSR_mepc
  mscratch : csrId ≠ CSR_mscratch
  mcause : csrId ≠ CSR_mcause
  mtval : csrId ≠ CSR_mtval

/-- One case for each `case` of the two functions. -/
theorem csr_cases {P : Nat → Prop} (csrId : Nat) (mstatus : P CSR_mstatus) (mie : P CSR_mie)
    (mtvec : P CSR_mtvec) (satp : P CSR_satp) (pmp : ∀ id, isPmpCsr id = true → P id)
    (mepc : P CSR_mepc) (mscratch : P CSR_mscratch) (mcause : P CSR_mcause) (mtval : P CSR_mtval)
    (unknown : ∀ id, UnknownCsr id → P id) : P csrId := by
  by_cases h : UnknownCsr csrId
  · exact unknown csrId h
  · -- a number that is not unknown is one of the nine, or that of a protection register
    by_contra hP
    apply h
    refine ⟨?_, ?_, ?_, ?_, ?_, ?_, ?_, ?_, ?_⟩
    · intro hid
      exact hP (hid ▸ mstatus)
    · intro hid
      exact hP (hid ▸ mie)
    · intro hid
      exact hP (hid ▸ mtvec)
    · intro hid
      exact hP (hid ▸ satp)
    · intro hid
      exact hP (pmp csrId hid)
    · intro hid
      exact hP (hid ▸ mepc)
    · intro hid
      exact hP (hid ▸ mscratch)
    · intro hid
      exact hP (hid ▸ mcause)
    · intro hid
      exact hP (hid ▸ mtval)

/-- The protection registers have the largest numbers. -/
theorem isPmpCsr_ge {csrId : Nat} (h : isPmpCsr csrId = true) : CSR_pmpcfg0 ≤ csrId := by
  simp only [isPmpCsr, Bool.or_eq_true, Bool.and_eq_true, decide_eq_true_eq] at h
  rcases h with h | h
  · exact h.1
  · exact le_trans (by decide) h.1

/-- A write to a physical memory protection register is ignored. -/
theorem setVirtualCsr_pmp {csrId : Nat} (h : isPmpCsr csrId = true) (value : Word)
    (csr : GuestCsr) :
    setVirtualCsr csrId value csr = .ok csr := by
  have hge := isPmpCsr_ge h
  simp only [CSR_pmpcfg0] at hge
  unfold setVirtualCsr
  rw [if_neg (by simp only [CSR_mstatus]; omega), if_neg (by simp only [CSR_mie]; omega),
    if_neg (by simp only [CSR_mtvec]; omega), if_neg (by simp only [CSR_satp]; omega), if_pos h]

/-- And it reads as zero. -/
theorem getVirtualCsr_pmp {csrId : Nat} (h : isPmpCsr csrId = true) (csr : GuestCsr) :
    getVirtualCsr csrId csr = .ok 0 := by
  have hge := isPmpCsr_ge h
  simp only [CSR_pmpcfg0] at hge
  unfold getVirtualCsr
  rw [if_neg (by simp only [CSR_mstatus]; omega), if_neg (by simp only [CSR_mie]; omega),
    if_neg (by simp only [CSR_mtvec]; omega), if_neg (by simp only [CSR_satp]; omega), if_pos h]

/-- A CSR that the switch has no case for cannot be written, -/
theorem setVirtualCsr_unknown {csrId : Nat} (h : UnknownCsr csrId) (value : Word) (csr : GuestCsr) :
    setVirtualCsr csrId value csr = .error .setEmulatedCsr := by
  unfold setVirtualCsr
  rw [if_neg h.mstatus, if_neg h.mie, if_neg h.mtvec, if_neg h.satp, if_neg h.pmp, if_neg h.mepc,
    if_neg h.mscratch, if_neg h.mcause, if_neg h.mtval]

/-- and cannot be read. -/
theorem getVirtualCsr_unknown {csrId : Nat} (h : UnknownCsr csrId) (csr : GuestCsr) :
    getVirtualCsr csrId csr = .error .getEmulatedCsr := by
  unfold getVirtualCsr
  rw [if_neg h.mstatus, if_neg h.mie, if_neg h.mtvec, if_neg h.satp, if_neg h.pmp, if_neg h.mepc,
    if_neg h.mscratch, if_neg h.mcause, if_neg h.mtval]

/-- A write to `mie` that is accepted sets its three fields. -/
theorem setVirtualCsr_mie {value : Word} {csr csr' : GuestCsr}
    (h : setVirtualCsr CSR_mie value csr = .ok csr') : csr' = { csr with
      mieMsie := value &&& MIE_MSIE != 0
      mieMtie := value &&& MIE_MTIE != 0
      mieMeie := value &&& MIE_MEIE != 0 } := by
  change (if value &&& ~~~(MIE_MSIE ||| MIE_MTIE ||| MIE_MEIE) ≠ 0 then _ else _) = _ at h
  split at h
  · cases h
  · cases h
    rfl

/-- No write to a CSR clears `mstatus.MDT`. -/
theorem setVirtualCsr_mdt {csrId : Nat} {value : Word} {csr csr' : GuestCsr}
    (h : setVirtualCsr csrId value csr = .ok csr') (hmdt : csr.mstatusMdt = true) :
    csr'.mstatusMdt = true := by
  induction csrId using csr_cases with
  | mstatus =>
    -- the old flag is one operand of the disjunction that is written
    cases h
    simp [hmdt]
  | mie =>
    rw [setVirtualCsr_mie h]
    exact hmdt
  | pmp id hpmp =>
    rw [setVirtualCsr_pmp hpmp] at h
    cases h
    exact hmdt
  | unknown id hid =>
    rw [setVirtualCsr_unknown hid] at h
    cases h
  | _ =>
    cases h
    exact hmdt

/-- The virtual CSR functions panic for what they do not know, and for nothing else. -/
theorem setVirtualCsr_error {csrId : Nat} {value : Word} {csr : GuestCsr} {e : Panic}
    (h : setVirtualCsr csrId value csr = .error e) : ¬ e.Excluded := by
  induction csrId using csr_cases with
  | mie =>
    change (if value &&& ~~~(MIE_MSIE ||| MIE_MTIE ||| MIE_MEIE) ≠ 0 then _ else _) = _ at h
    split at h
    · cases h
      simp [Panic.Excluded]
    · cases h
  | pmp id hpmp =>
    rw [setVirtualCsr_pmp hpmp] at h
    cases h
  | unknown id hid =>
    rw [setVirtualCsr_unknown hid] at h
    cases h
    simp [Panic.Excluded]
  | _ => cases h

/-- No read of a CSR ends in a panic that the invariant excludes. -/
theorem getVirtualCsr_error {csrId : Nat} {csr : GuestCsr} {e : Panic}
    (h : getVirtualCsr csrId csr = .error e) : ¬ e.Excluded := by
  induction csrId using csr_cases with
  | pmp id hpmp =>
    rw [getVirtualCsr_pmp hpmp] at h
    cases h
  | unknown id hid =>
    rw [getVirtualCsr_unknown hid] at h
    cases h
    simp [Panic.Excluded]
  | _ => cases h

/-- Writing back the virtual CSRs keeps the invariant, up to the check for deferred exceptions. -/
theorem Core.setCsr (h : Core L s) {csrId : Nat} {value : Word} {csr : GuestCsr}
    (hset : setVirtualCsr csrId value s.guest.csr = .ok csr) :
    Core L (s.setGuest { s.guest with csr := csr }) := by
  refine ⟨h.current, ?_, ?_⟩
  · simpa using h.mem
  · rw [State.guest_setGuest]
    exact ⟨h.priv.satp_eq, h.priv.active, fun hu => setVirtualCsr_mdt hset (h.priv.mdt hu),
      h.priv.cause, h.priv.count⟩

/-! ### Finding the faulting instruction -/

/-- The walk of `resolve_guestmem_slice` ends within its three levels. -/
theorem resolveSliceLoop_spec (st : Store) (va len : Nat) :
    ∀ (fuel co : Nat) (entry : UnpackedPagetableEntry), co ≤ 3 + 9 * fuel →
      (resolveSliceLoop st va len (fuel + 1) co entry).Post (fun e => ¬ e.Excluded)
        (fun _ => True) := by
  -- The induction is on the fuel: each round takes nine bits off `co`, and the code stops below
  -- `PGSHIFT`.
  intro fuel
  induction fuel with
  | zero =>
    intro co entry hco
    have hstop : co + 9 ≤ PGSHIFT := by
      simp only [PGSHIFT]
      omega
    rw [resolveSliceLoop]
    simp only [hstop, if_true]
    repeat' split
    all_goals simp [Panic.Excluded]
  | succ fuel ih =>
    intro co entry hco
    rw [resolveSliceLoop]
    by_cases hstop : co + 9 ≤ PGSHIFT
    · simp only [hstop, if_true]
      repeat' split
      all_goals simp [Panic.Excluded]
    · simp only [hstop, if_false]
      repeat' split
      all_goals first | exact ih _ _ (by omega) | simp [Panic.Excluded]

/-- Finding the faulting instruction may panic, but in none of the excluded ways. -/
theorem resolveInstruction_spec (s : State) (addr : Word) :
    (resolveInstruction L s addr).Post (fun e => ¬ e.Excluded) (fun _ => True) := by
  unfold resolveInstruction
  refine Post.bind (Q := fun _ => True) ?_ (fun it _ => ?_)
  · -- the iterator: its walk starts at the root, with one unit of fuel for each level
    unfold beginIterGuestmem resolveGuestmemSlice
    simp only
    split
    · simp [Panic.Excluded]
    split
    · simp
    split
    · simp [Panic.Excluded]
    exact (resolveSliceLoop_spec _ _ _ 3 30 _ (by decide)).bind (fun _ _ => post_ok.mpr trivial)
  · -- what the handler checks of the chunk, whatever the length of the instruction is
    dsimp only
    generalize (if ByteMem.load s.store.mem it.host.address 2 &&& 3 = 3 then 4 else 2) = instrSize
    repeat' split
    all_goals simp [Panic.Excluded]

/-! ### Emulated instructions -/

/-- The end of both CSR instructions. -/
theorem Core.checkAt (h : Core L s) (pc : Word) :
    ((do let (_, s) ← guestCheckDeferred L (s.setMepc pc); return s) : Except Panic State).Post
      (fun e => ¬ e.Excluded) (fun s' => Core L s' ∧ Settled s'.guest) := by
  have h₁ : Core L (s.setMepc pc) := h.congr rfl rfl (SameMem.refl _) rfl rfl
  obtain ⟨b, s', heq, hcore, hset, -⟩ := guestCheckDeferred_spec h₁
  rw [heq]
  exact post_ok.mpr ⟨hcore, hset⟩

/-- The guest's registers are not part of the invariant. -/
theorem Core.setReg (h : Core L s) (n : Nat) (v : Word) : Core L (s.setReg n v) :=
  h.congr rfl rfl (SameMem.refl _) rfl rfl

/-- The rule of a read, for the proofs about the handlers. -/
theorem getVirtualCsr_post (csrId : Nat) (csr : GuestCsr) :
    (getVirtualCsr csrId csr).Post (fun e => ¬ e.Excluded) (fun _ => True) :=
  ⟨fun _ => trivial, getVirtualCsr_error⟩

/-- The rule of a write: the invariant is kept. -/
theorem Core.setVirtualCsr_post (h : Core L s) (csrId : Nat) (value : Word) :
    (setVirtualCsr csrId value s.guest.csr).Post (fun e => ¬ e.Excluded)
      (fun csr => Core L (s.setGuest { s.guest with csr := csr })) :=
  ⟨h.setCsr, setVirtualCsr_error⟩

/-- `csrrw` keeps the invariant. -/
theorem emulateCsrrw_spec (h : Core L s) (guestAddr : Word) (u : UnpackedInstruction) :
    (emulateCsrrw L guestAddr u s).Post (fun e => ¬ e.Excluded)
      (fun s' => Core L s' ∧ Settled s'.guest) := by
  unfold emulateCsrrw
  refine Post.bind (Q := fun _ => True) ?_ (fun oldValue _ => ?_)
  · split
    · exact getVirtualCsr_post _ _
    · exact post_ok.mpr trivial
  refine (h.setVirtualCsr_post _ _).bind (fun csr h₁ => ?_)
  split
  · exact (h₁.setReg _ _).checkAt _
  · exact h₁.checkAt _

/-- `csrrs` keeps the invariant, whether it writes or only reads. -/
theorem emulateCsrrs_spec (h : Core L s) (guestAddr : Word) (u : UnpackedInstruction) :
    (emulateCsrrs L guestAddr u s).Post (fun e => ¬ e.Excluded)
      (fun s' => Core L s' ∧ Settled s'.guest) := by
  unfold emulateCsrrs
  refine (getVirtualCsr_post _ _).bind (fun value _ => ?_)
  -- the destination register is written first, so that the rest is about another state
  have h₁ : Core L (if u.rd ≠ 0 then s.setReg (u.rd - 1) value else s) := by
    split
    · exact h.setReg _ _
    · exact h
  dsimp only
  generalize (if u.rd ≠ 0 then s.setReg (u.rd - 1) value else s) = s₁ at h₁ ⊢
  refine Post.bind (Q := fun csr => Core L (s₁.setGuest { s₁.guest with csr := csr })) ?_
    (fun csr h₂ => h₂.checkAt _)
  split
  · exact h₁.setVirtualCsr_post _ _
  · refine post_ok.mpr ⟨h₁.current, ?_, ?_⟩
    · simpa using h₁.mem
    · simpa using h₁.priv

/-- Every emulated instruction keeps the invariant. -/
theorem emulateInstruction_spec (h : Core L s) (hset : Settled s.guest) (guestAddr : Word)
    (u : UnpackedInstruction) :
    (emulateInstruction L guestAddr u s).Post (fun e => ¬ e.Excluded)
      (fun s' => Core L s' ∧ Settled s'.guest) := by
  unfold emulateInstruction
  split
  · simp [Panic.Excluded]
  split
  · -- ecall and ebreak, sfence.vma, mret, wfi
    split
    · simp [Panic.Excluded]
    split
    · -- only the store changes, and the mode and its table stay as they were
      obtain ⟨st', heq, hmem, -⟩ := flushShadowPagetable_spec h
      rw [heq]
      exact post_ok.mpr ⟨⟨h.current, hmem, h.priv⟩, hset⟩
    split
    · exact guestMret_spec h
    split
    · exact post_ok.mpr ⟨h, hset⟩
    · simp [Panic.Excluded]
  · exact emulateCsrrw_spec h _ _
  · exact emulateCsrrs_spec h _ _
  · simp [Panic.Excluded]

/-- **Illegal instructions.** -/
theorem handleIllegalInstruction_spec (h : Core L s) (hset : Settled s.guest) :
    (handleIllegalInstruction L s).Post (fun e => ¬ e.Excluded)
      (fun s' => Core L s' ∧ Settled s'.guest) := by
  unfold handleIllegalInstruction
  simp only
  split
  · simp [Panic.Excluded]
  · exact (resolveInstruction_spec s _).bind (fun host _ => emulateInstruction_spec h hset _ _)

/-! ### Page faults -/

/-- The decoder of loads has a panic of its own. -/
theorem parseSourceAddress_error {packed : Nat} {regs : SavedRegisters} {e : Panic}
    (h : parseSourceAddress packed regs = .error e) : ¬ e.Excluded := by
  unfold parseSourceAddress at h
  dsimp only at h
  -- every way out of the nested switches that is not a return ends in the same panic
  repeat' split at h
  all_goals cases h
  all_goals simp [Panic.Excluded]

/-- And so has the decoder of stores. -/
theorem parseDestinationAddress_error {packed : Nat} {regs : SavedRegisters} {e : Panic}
    (h : parseDestinationAddress packed regs = .error e) : ¬ e.Excluded := by
  rw [(parseDestinationAddress_spec packed regs).error h]
  simp [Panic.Excluded]

/-- Only reads, writes and fetches are decoded. -/
theorem decodeFault_spec (s : State) (acc : MempermIndex) :
    (decodeFault L acc s).Post (fun e => ¬ e.Excluded) (fun _ => IsAccess acc) := by
  unfold decodeFault
  split
  · exact (resolveInstruction_spec s _).bind (fun host _ =>
      ⟨fun _ => Or.inl rfl, parseSourceAddress_error⟩)
  · exact (resolveInstruction_spec s _).bind (fun host _ =>
      ⟨fun _ => Or.inr (Or.inl rfl), parseDestinationAddress_error⟩)
  · exact post_ok.mpr (Or.inr (Or.inr rfl))
  · simp [Panic.Excluded]

end RiscvHypervisor
