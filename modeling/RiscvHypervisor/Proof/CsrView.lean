import RiscvHypervisor.Spec.VirtualMachine

namespace RiscvHypervisor

open Except

/-!
# The CSRs of the virtual machine

`GuestCsr.file` reads the guest's CSRs off the context of its thread.  What `set_virtual_csr`, a
trap and `mret` do to the fields of the context is what the virtual machine does to its CSRs.
-/

/-- What the CSRs of the guest read as. -/
def GuestCsr.file (csr : GuestCsr) : CsrFile :=
  fun c => (getVirtualCsr c.number csr).toOption.getD 0

variable {csr csr' : GuestCsr} {number : Nat} {value : Word}

/-- Reading by number is reading the file. -/
theorem getVirtualCsr_number (c : Csr) (csr : GuestCsr) :
    getVirtualCsr c.number csr = .ok (csr.file c) := by
  cases c with
  | _ => rfl

/-- No two registers share a number. -/
theorem Csr.number_injective {c d : Csr} (h : c.number = d.number) : c = d := by
  revert c d
  intro c d
  cases c <;> cases d <;> intro h <;> first
    | rfl
    | exact absurd h (by decide)

/-- The range test of `virtcsr.c` finds the protection registers. -/
theorem isPmpCsr_iff : isPmpCsr number = true ↔ PmpNumber number := by
  unfold isPmpCsr PmpNumber
  rw [Bool.or_eq_true, Bool.and_eq_true, Bool.and_eq_true, decide_eq_true_eq, decide_eq_true_eq,
    decide_eq_true_eq, decide_eq_true_eq]
  rfl

/-- A CSR is one of the file or of the protection, or not there. -/
theorem csrNumber_cases (number : Nat) :
    (∃ c : Csr, c.number = number) ∨ isPmpCsr number = true ∨ UnknownCsr number := by
  induction number using csr_cases with
  | mstatus => exact Or.inl ⟨.mstatus, rfl⟩
  | mie => exact Or.inl ⟨.mie, rfl⟩
  | mtvec => exact Or.inl ⟨.mtvec, rfl⟩
  | satp => exact Or.inl ⟨.satp, rfl⟩
  | mepc => exact Or.inl ⟨.mepc, rfl⟩
  | mscratch => exact Or.inl ⟨.mscratch, rfl⟩
  | mcause => exact Or.inl ⟨.mcause, rfl⟩
  | mtval => exact Or.inl ⟨.mtval, rfl⟩
  | pmp id hpmp => exact Or.inr (Or.inl hpmp)
  | unknown id hid => exact Or.inr (Or.inr hid)

/-! ### Reading and writing -/

/-- **Reading.** -/
theorem GuestCsr.reads {old : Word} (h : getVirtualCsr number csr = .ok old) :
    csr.file.Reads number old := by
  rcases csrNumber_cases number with ⟨c, rfl⟩ | hpmp | hid
  · rw [getVirtualCsr_number] at h
    exact Or.inl ⟨c, rfl, (Except.ok.inj h).symm⟩
  · rw [getVirtualCsr_pmp hpmp] at h
    exact Or.inr ⟨isPmpCsr_iff.mp hpmp, (Except.ok.inj h).symm⟩
  · rw [getVirtualCsr_unknown hid] at h
    cases h

/-- The bits of `mstatus`, as it reads. -/
theorem GuestCsr.file_mstatus (csr : GuestCsr) : csr.file .mstatus =
    (2 <<< 32 ||| csr.mstatusMpp.setWidth 64 <<< 11 ||| (if csr.mstatusMie then MSTATUS_MIE else 0)
      ||| (if csr.mstatusMdt then MSTATUS_MDT else 0)) := rfl

/-- The sticky bit of what was there and of what is written. -/
theorem sticky_mdt (csr : GuestCsr) (value : Word) :
    (if csr.mstatusMdt || value &&& MSTATUS_MDT != 0 then MSTATUS_MDT else 0) =
      (csr.file .mstatus ||| value) &&& MSTATUS_MDT := by
  have hvalue : (if value &&& MSTATUS_MDT != 0 then MSTATUS_MDT else 0) = value &&& MSTATUS_MDT :=
    ite_and_twoPow value 42
  have hfile : csr.file .mstatus &&& MSTATUS_MDT = if csr.mstatusMdt then MSTATUS_MDT else 0 := by
    rw [csr.file_mstatus]
    generalize csr.mstatusMpp = mpp
    cases csr.mstatusMie <;> cases csr.mstatusMdt <;>
    · revert mpp
      decide
  have hor : (csr.file .mstatus ||| value) &&& MSTATUS_MDT =
      csr.file .mstatus &&& MSTATUS_MDT ||| value &&& MSTATUS_MDT := by
    rw [BitVec.and_comm, BitVec.and_or_distrib_left, BitVec.and_comm MSTATUS_MDT,
      BitVec.and_comm MSTATUS_MDT]
  rw [hor, hfile, ← hvalue]
  generalize (value &&& MSTATUS_MDT != 0) = written
  cases csr.mstatusMdt <;> cases written <;> decide

/-- What `set_virtual_csr` keeps of a value is what the architecture lets it keep. -/
theorem Csr.keep_eq (c : Csr) (csr : GuestCsr) (value : Word) :
    legalise c.number (csr.mstatusMdt || value &&& MSTATUS_MDT != 0) value =
      c.keep (csr.file c) value := by
  cases c with
  | mstatus =>
    rw [show Csr.mstatus.number = CSR_mstatus from rfl, legalise_mstatus, sticky_mdt]
    rfl
  | satp => exact legalise_satp _ value
  | _ => exact legalise_whole (by decide) (by decide) (by decide) _ value

/-- **Writing.** -/
theorem GuestCsr.writes (h : setVirtualCsr number value csr = .ok csr') :
    csr.file.Writes number value csr'.file := by
  rcases csrNumber_cases number with ⟨c, rfl⟩ | hpmp | hid
  · have haccepts : c.Accepts value := by
      rintro rfl
      by_contra hbits
      change (if value &&& ~~~(MIE_MSIE ||| MIE_MTIE ||| MIE_MEIE) ≠ 0 then _ else _) = _ at h
      rw [if_pos hbits] at h
      cases h
    have hwritable : Writable c.number value := by
      refine ⟨fun hunknown => ?_, fun hmie => haccepts (Csr.number_injective hmie)⟩
      rw [setVirtualCsr_unknown hunknown] at h
      cases h
    obtain ⟨csr'', hset, hself⟩ := getVirtualCsr_write csr hwritable
    rw [h] at hset
    cases hset
    refine Or.inl ⟨c, rfl, haccepts, ?_⟩
    funext d
    by_cases hd : d = c
    · rw [hd, Function.update_self, ← c.keep_eq]
      rw [getVirtualCsr_number] at hself
      exact Except.ok.inj hself
    · rw [Function.update_of_ne hd]
      have hother := getVirtualCsr_write_of_ne h (fun hc => hd (Csr.number_injective hc))
      rw [getVirtualCsr_number, getVirtualCsr_number] at hother
      exact Except.ok.inj hother
  · rw [setVirtualCsr_pmp hpmp] at h
    cases h
    exact Or.inr ⟨isPmpCsr_iff.mp hpmp, rfl⟩
  · rw [setVirtualCsr_unknown hid] at h
    cases h

/-! ### Fields -/

theorem GuestCsr.file_satpMode (csr : GuestCsr) : csr.file.satpMode = csr.satpMode :=
  (satp_fields csr.satpMode csr.satpPpn).2

theorem GuestCsr.file_satpPpn (csr : GuestCsr) : csr.file.satpPpn = csr.satpPpn :=
  (satp_fields csr.satpMode csr.satpPpn).1

/-- Interrupts are on when `guest_check_deferred` would deliver one. -/
theorem GuestCsr.enabled_iff (csr : GuestCsr) :
    csr.file.Enabled ↔ csr.mstatusMie = true ∧ csr.mstatusMdt = false := by
  unfold CsrFile.Enabled
  rw [csr.file_mstatus]
  generalize csr.mstatusMpp = mpp
  cases csr.mstatusMie <;> cases csr.mstatusMdt <;>
  · revert mpp
    decide

/-! ### Traps and `mret` -/

/-- Setting and clearing `mstatus.MDT`. -/
theorem mstatus_mdt : ∀ (mpp : BitVec 2) (mie mdt : Bool),
    let mstatus (mdt : Bool) : Word := 2 <<< 32 ||| mpp.setWidth 64 <<< 11 |||
      (if mie then MSTATUS_MIE else 0) ||| (if mdt then MSTATUS_MDT else 0)
    mstatus true = mstatus mdt ||| MSTATUS_MDT ∧
      mstatus false = mstatus mdt &&& ~~~MSTATUS_MDT := by
  decide

/-- The CSRs after `guest_exception`. -/
theorem GuestCsr.file_trap (csr : GuestCsr) (pc mcause mtval : Word) :
    GuestCsr.file { csr with
        mstatusMdt := true, mepc := pc, mcause := mcause, mtval := mtval } =
      csr.file.trap pc mcause mtval := by
  funext c
  cases c with
  | mstatus => exact (mstatus_mdt csr.mstatusMpp csr.mstatusMie csr.mstatusMdt).1
  | _ => rfl

/-- The CSRs after `guest_mret`. -/
theorem GuestCsr.file_mret (csr : GuestCsr) :
    ({ csr with mstatusMdt := false } : GuestCsr).file = csr.file.mret := by
  funext c
  cases c with
  | mstatus => exact (mstatus_mdt csr.mstatusMpp csr.mstatusMie csr.mstatusMdt).2
  | _ => rfl

end RiscvHypervisor
