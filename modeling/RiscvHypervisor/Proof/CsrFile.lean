import RiscvHypervisor.Proof.Handlers

namespace RiscvHypervisor

open Except

/-!
# The virtual CSR file

The two switches of `virtcsr.c` against what they are for: a set of registers, each of which
remembers what was last written to it, as far as its fields go.

* `setVirtualCsr_getVirtualCsr` — writing to a CSR what it reads as changes nothing;
* `getVirtualCsr_write` / `getVirtualCsr_write_of_ne` — what one write does to the CSR it names and
  to the others;
* `csr_file_warl` — what every CSR reads as after any sequence of writes.
-/

/-! ### Writing back what was read -/

/-- The fields of `mstatus` are where `set_virtual_csr` looks for them. -/
theorem mstatus_fields : ∀ (mpp : BitVec 2) (mie mdt : Bool),
    let value : Word := 2 <<< 32 ||| mpp.setWidth 64 <<< 11 ||| (if mie then MSTATUS_MIE else 0) |||
      (if mdt then MSTATUS_MDT else 0)
    value.extractLsb' 11 2 = mpp ∧ (value &&& MSTATUS_MIE != 0) = mie ∧
      (value &&& MSTATUS_MDT != 0) = mdt := by
  decide

/-- So are those of `mie`, and it has no others. -/
theorem mie_fields : ∀ msie mtie meie : Bool,
    let value : Word := (if msie then MIE_MSIE else 0) ||| (if mtie then MIE_MTIE else 0) |||
      (if meie then MIE_MEIE else 0)
    value &&& ~~~(MIE_MSIE ||| MIE_MTIE ||| MIE_MEIE) = 0 ∧ (value &&& MIE_MSIE != 0) = msie ∧
      (value &&& MIE_MTIE != 0) = mtie ∧ (value &&& MIE_MEIE != 0) = meie := by
  decide

/-- And those of `satp`. -/
theorem satp_fields (mode : BitVec 4) (ppn : BitVec 44) :
    let value : Word := mode.setWidth 64 <<< 60 ||| ppn.setWidth 64
    value.extractLsb' 0 44 = ppn ∧ value.extractLsb' 60 4 = mode := by
  dsimp only
  constructor
  · ext i hi
    have h64 : i < 64 := by omega
    have h60 : i < 60 := by omega
    simp [BitVec.getElem_extractLsb', h64, h60, hi]
  · ext i hi
    have h64 : 60 + i < 64 := by omega
    have hppn : ppn.getLsbD (60 + i) = false := BitVec.getLsbD_of_ge _ _ (by omega)
    simp [BitVec.getElem_extractLsb', h64, hppn, BitVec.getLsbD_eq_getElem hi]

/-- Writing to a CSR what it reads as changes nothing. -/
theorem setVirtualCsr_getVirtualCsr {csrId : Nat} {value : Word} {csr : GuestCsr}
    (h : getVirtualCsr csrId csr = .ok value) : setVirtualCsr csrId value csr = .ok csr := by
  induction csrId using csr_cases with
  | mstatus =>
    obtain ⟨hmpp, hmie, hmdt⟩ := mstatus_fields csr.mstatusMpp csr.mstatusMie csr.mstatusMdt
    have hkeep : (if csr.mstatusMdt = true then true else csr.mstatusMdt) = csr.mstatusMdt := by
      cases csr.mstatusMdt <;> rfl
    cases h
    unfold setVirtualCsr
    rw [if_pos rfl, hmpp, hmie, hmdt, hkeep]
  | mie =>
    obtain ⟨hother, hmsie, hmtie, hmeie⟩ := mie_fields csr.mieMsie csr.mieMtie csr.mieMeie
    cases h
    unfold setVirtualCsr
    rw [if_neg (by decide), if_pos rfl, if_neg (not_not_intro hother), hmsie, hmtie, hmeie]
  | satp =>
    obtain ⟨hppn, hmode⟩ := satp_fields csr.satpMode csr.satpPpn
    cases h
    unfold setVirtualCsr
    rw [if_neg (by decide), if_neg (by decide), if_neg (by decide), if_pos rfl, hppn, hmode]
  | pmp id hpmp => exact setVirtualCsr_pmp hpmp value csr
  | unknown id hid =>
    rw [getVirtualCsr_unknown hid] at h
    cases h
  | _ =>
    cases h
    rfl

/-- What can be written can be read. -/
theorem getVirtualCsr_of_setVirtualCsr {csrId : Nat} {value : Word} {csr csr' : GuestCsr}
    (h : setVirtualCsr csrId value csr = .ok csr') : ∃ old, getVirtualCsr csrId csr = .ok old := by
  induction csrId using csr_cases with
  | pmp id hpmp => exact ⟨0, getVirtualCsr_pmp hpmp csr⟩
  | unknown id hid =>
    rw [setVirtualCsr_unknown hid] at h
    cases h
  | _ => exact ⟨_, rfl⟩

/-! ### One write -/

/-- The bits of `mie` that the hypervisor knows. -/
def MIE_BITS : Word := MIE_MSIE ||| MIE_MTIE ||| MIE_MEIE

/-- A write that `set_virtual_csr` accepts: to a CSR it emulates and, for `mie`, with no bit set
    that it does not know. -/
structure Writable (csrId : Nat) (value : Word) : Prop where
  emulated : ¬ UnknownCsr csrId
  mie : csrId = CSR_mie → value &&& ~~~MIE_BITS = 0

/-- What a CSR keeps of `value`.  `mdt` is what has become of the sticky bit of `mstatus`. -/
def legalise (csrId : Nat) (mdt : Bool) (value : Word) : Word :=
  if csrId = CSR_mstatus then
    2 <<< 32 ||| value &&& (MSTATUS_MPP_MASK ||| MSTATUS_MIE) ||| (if mdt then MSTATUS_MDT else 0)
  else if csrId = CSR_satp then value &&& ~~~((0xFFFF : Word) <<< 44)
  else if isPmpCsr csrId then 0
  else value

/-- `mstatus` has three fields, and `MDT` is never cleared. -/
theorem legalise_mstatus (mdt : Bool) (value : Word) :
    legalise CSR_mstatus mdt value =
      2 <<< 32 ||| value &&& (MSTATUS_MPP_MASK ||| MSTATUS_MIE) |||
        (if mdt then MSTATUS_MDT else 0) := if_pos rfl

/-- `satp` has no ASID. -/
theorem legalise_satp (mdt : Bool) (value : Word) :
    legalise CSR_satp mdt value = value &&& ~~~((0xFFFF : Word) <<< 44) := by
  unfold legalise
  rw [if_neg (by decide), if_pos rfl]

/-- The protection registers are zero. -/
theorem legalise_pmp {csrId : Nat} (h : isPmpCsr csrId = true) (mdt : Bool) (value : Word) :
    legalise csrId mdt value = 0 := by
  have hge := isPmpCsr_ge h
  simp only [CSR_pmpcfg0] at hge
  unfold legalise
  rw [if_neg (by simp only [CSR_mstatus]; omega), if_neg (by simp only [CSR_satp]; omega), if_pos h]

/-- Every other register keeps all its bits. -/
theorem legalise_whole {csrId : Nat} (hmstatus : csrId ≠ CSR_mstatus) (hsatp : csrId ≠ CSR_satp)
    (hpmp : isPmpCsr csrId ≠ true) (mdt : Bool) (value : Word) :
    legalise csrId mdt value = value := by
  unfold legalise
  rw [if_neg hmstatus, if_neg hsatp, if_neg hpmp]

/-- A flag that is read, kept as a `bool` and put back. -/
theorem ite_and_twoPow (value : Word) (i : Nat) :
    (if value &&& BitVec.twoPow 64 i != 0 then BitVec.twoPow 64 i else 0) =
      value &&& BitVec.twoPow 64 i := by
  have hbit : value &&& BitVec.twoPow 64 i = BitVec.twoPow 64 i ∨
      value &&& BitVec.twoPow 64 i = 0 := by
    rw [BitVec.and_twoPow]
    split
    · exact Or.inl rfl
    · exact Or.inr rfl
  rcases hbit with h | h
  · rw [h]
    by_cases h0 : BitVec.twoPow 64 i = 0
    · rw [h0]
      rfl
    · rw [if_pos (bne_iff_ne.mpr h0)]
  · rw [h]
    rfl

/-- `mstatus.MPP` is read, kept and put back. -/
theorem mpp_put_back (value : Word) :
    (value.extractLsb' 11 2).setWidth 64 <<< 11 = value &&& MSTATUS_MPP_MASK := by
  have hmask : ∀ i : Fin 64, MSTATUS_MPP_MASK.getLsbD i = decide (11 ≤ i.1 ∧ i.1 < 13) := by decide
  apply BitVec.eq_of_getLsbD_eq
  intro i hi
  rw [BitVec.getLsbD_and, hmask ⟨i, hi⟩]
  simp only [BitVec.getLsbD_shiftLeft, BitVec.getLsbD_setWidth, BitVec.getLsbD_extractLsb']
  by_cases h : 11 ≤ i ∧ i < 13
  · rw [Nat.add_sub_cancel' h.1]
    have h2 : i - 11 < 2 := by omega
    have h64 : i - 11 < 64 := by omega
    simp [h, hi, h2, h64]
  · rw [decide_eq_false h, Bool.and_false, Bool.and_assoc]
    have hout : ¬ i < 11 → ¬ i - 11 < 2 := by omega
    by_cases h11 : i < 11
    · simp [h11]
    · simp [hout h11]

/-- The fields of `mstatus`, put together again. -/
theorem mstatus_put_back (value : Word) (mdt : Bool) :
    (2 <<< 32 ||| (value.extractLsb' 11 2).setWidth 64 <<< 11 |||
      (if value &&& MSTATUS_MIE != 0 then MSTATUS_MIE else 0) |||
      (if mdt then MSTATUS_MDT else 0)) = legalise CSR_mstatus mdt value := by
  have hmie : (if value &&& MSTATUS_MIE != 0 then MSTATUS_MIE else 0) = value &&& MSTATUS_MIE :=
    ite_and_twoPow value 3
  rw [legalise_mstatus, hmie, mpp_put_back, BitVec.and_or_distrib_left, ← BitVec.or_assoc]

/-- The fields of `mie`, -/
theorem mie_put_back {value : Word} (h : value &&& ~~~MIE_BITS = 0) :
    ((if value &&& MIE_MSIE != 0 then MIE_MSIE else 0) |||
      (if value &&& MIE_MTIE != 0 then MIE_MTIE else 0) |||
      (if value &&& MIE_MEIE != 0 then MIE_MEIE else 0)) = value := by
  have hmsie : (if value &&& MIE_MSIE != 0 then MIE_MSIE else 0) = value &&& MIE_MSIE :=
    ite_and_twoPow value 3
  have hmtie : (if value &&& MIE_MTIE != 0 then MIE_MTIE else 0) = value &&& MIE_MTIE :=
    ite_and_twoPow value 7
  have hmeie : (if value &&& MIE_MEIE != 0 then MIE_MEIE else 0) = value &&& MIE_MEIE :=
    ite_and_twoPow value 11
  rw [hmsie, hmtie, hmeie, ← BitVec.and_or_distrib_left, ← BitVec.and_or_distrib_left]
  -- the bits that are not known are none of the value's
  calc value &&& MIE_BITS = value &&& MIE_BITS ||| value &&& ~~~MIE_BITS := by
        rw [h]
        exact BitVec.or_zero.symm
    _ = value := by
        rw [← BitVec.and_or_distrib_left, BitVec.or_not_self, BitVec.and_allOnes]

/-- and those of `satp`. -/
theorem satp_put_back (value : Word) :
    ((value.extractLsb' 60 4).setWidth 64 <<< 60 ||| (value.extractLsb' 0 44).setWidth 64) =
      value &&& ~~~((0xFFFF : Word) <<< 44) := by
  have hmask : ∀ i : Fin 64, (~~~((0xFFFF : Word) <<< 44)).getLsbD i =
      decide (60 ≤ i.1 ∨ i.1 < 44) := by decide
  apply BitVec.eq_of_getLsbD_eq
  intro i hi
  rw [BitVec.getLsbD_and, hmask ⟨i, hi⟩]
  simp only [BitVec.getLsbD_or, BitVec.getLsbD_shiftLeft, BitVec.getLsbD_setWidth,
    BitVec.getLsbD_extractLsb']
  by_cases h60 : 60 ≤ i
  · rw [Nat.add_sub_cancel' h60]
    have h44 : ¬ i < 44 := by omega
    have h4 : i - 60 < 4 := by omega
    have h64 : i - 60 < 64 := by omega
    have hlt : ¬ i < 60 := by omega
    simp [h60, hi, h44, h4, h64, hlt]
  · have hlt : i < 60 := by omega
    by_cases h44 : i < 44
    · simp [hi, hlt, h44]
    · simp [h60, hlt, h44]

/-- The CSR that was written reads as what it keeps of the value. -/
theorem getVirtualCsr_write {csrId : Nat} {value : Word} (csr : GuestCsr)
    (h : Writable csrId value) :
    ∃ csr', setVirtualCsr csrId value csr = .ok csr' ∧ getVirtualCsr csrId csr' =
      .ok (legalise csrId (csr.mstatusMdt || value &&& MSTATUS_MDT != 0) value) := by
  induction csrId using csr_cases with
  | mstatus =>
    have hmdt : (csr.mstatusMdt || value &&& MSTATUS_MDT != 0) =
        if value &&& MSTATUS_MDT != 0 then true else csr.mstatusMdt := by
      cases csr.mstatusMdt <;> cases value &&& MSTATUS_MDT != 0 <;> rfl
    refine ⟨_, rfl, ?_⟩
    rw [← mstatus_put_back, hmdt]
    rfl
  | mie =>
    have hmie : value &&& ~~~MIE_BITS = 0 := h.mie rfl
    refine ⟨{ csr with
      mieMsie := value &&& MIE_MSIE != 0
      mieMtie := value &&& MIE_MTIE != 0
      mieMeie := value &&& MIE_MEIE != 0 }, ?_, ?_⟩
    · unfold setVirtualCsr
      rw [if_neg (by decide), if_pos rfl]
      exact if_neg (not_not_intro hmie)
    · rw [legalise_whole (by decide) (by decide) (by decide)]
      exact congrArg Except.ok (mie_put_back hmie)
  | satp =>
    refine ⟨_, rfl, ?_⟩
    rw [legalise_satp, ← satp_put_back]
    rfl
  | pmp id hpmp =>
    refine ⟨csr, setVirtualCsr_pmp hpmp value csr, ?_⟩
    rw [getVirtualCsr_pmp hpmp, legalise_pmp hpmp]
  | unknown id hid => exact absurd hid h.emulated
  | _ =>
    refine ⟨_, rfl, ?_⟩
    rw [legalise_whole (by decide) (by decide) (by decide)]
    rfl

/-- The others read as before. -/
theorem getVirtualCsr_write_of_ne {csrId other : Nat} {value : Word} {csr csr' : GuestCsr}
    (h : setVirtualCsr csrId value csr = .ok csr') (hne : other ≠ csrId) :
    getVirtualCsr other csr' = getVirtualCsr other csr := by
  induction csrId using csr_cases with
  | mie =>
    rw [setVirtualCsr_mie h]
    simp only [getVirtualCsr, if_neg hne]
  | pmp id hpmp =>
    rw [setVirtualCsr_pmp hpmp] at h
    cases h
    rfl
  | unknown id hid =>
    rw [setVirtualCsr_unknown hid] at h
    cases h
  | _ =>
    cases h
    simp only [getVirtualCsr, if_neg hne]

/-- The sticky bit of `mstatus` is set by a write that sets it, and by no other. -/
theorem setVirtualCsr_mstatusMdt {csrId : Nat} {value : Word} {csr csr' : GuestCsr}
    (h : setVirtualCsr csrId value csr = .ok csr') : csr'.mstatusMdt =
      if csrId = CSR_mstatus then csr.mstatusMdt || value &&& MSTATUS_MDT != 0
      else csr.mstatusMdt := by
  by_cases hid : csrId = CSR_mstatus
  · subst hid
    cases h
    rw [if_pos rfl]
    show (if value &&& MSTATUS_MDT != 0 then true else csr.mstatusMdt) = _
    cases csr.mstatusMdt <;> cases value &&& MSTATUS_MDT != 0 <;> rfl
  · -- the bit is part of what `mstatus` reads as, which a write to another CSR leaves alone
    have hread := Except.ok.inj (getVirtualCsr_write_of_ne h (Ne.symm hid))
    have hafter := (mstatus_fields csr'.mstatusMpp csr'.mstatusMie csr'.mstatusMdt).2.2
    have hbefore := (mstatus_fields csr.mstatusMpp csr.mstatusMie csr.mstatusMdt).2.2
    rw [if_neg hid, ← hafter, ← hbefore]
    exact congrArg (fun v => v &&& MSTATUS_MDT != 0) hread

/-! ### Sequences of writes -/

/-- A call of `set_virtual_csr`, on the context of the current guest thread. -/
def writeCsr (g : GuestThreadContext) (write : Nat × Word) : Except Panic GuestThreadContext := do
  let csr ← setVirtualCsr write.1 write.2 g.csr
  return { g with csr := csr }

/-- Such calls one after the other. -/
def writeCsrs (g : GuestThreadContext) (writes : List (Nat × Word)) :
    Except Panic GuestThreadContext := writes.foldlM writeCsr g

/-- The values that were written to a CSR, in their order. -/
def written (csrId : Nat) (writes : List (Nat × Word)) : List Word :=
  (writes.filter (fun write => write.1 = csrId)).map Prod.snd

/-- Whether a list of values has one with the sticky bit. -/
def anyMdt (values : List Word) : Bool := values.any (fun value => value &&& MSTATUS_MDT != 0)

/-- A write changes the CSRs and nothing else of the context. -/
theorem writeCsr_eq_ok {g g' : GuestThreadContext} {write : Nat × Word} :
    writeCsr g write = .ok g' ↔
      ∃ csr, setVirtualCsr write.1 write.2 g.csr = .ok csr ∧ g' = { g with csr := csr } := by
  unfold writeCsr
  rw [bind_eq_ok]
  constructor
  · rintro ⟨csr, hset, hg⟩
    cases hg
    exact ⟨csr, hset, rfl⟩
  · rintro ⟨csr, hset, rfl⟩
    exact ⟨csr, hset, rfl⟩

/-- A sequence of writes is extended at its end, -/
theorem writeCsrs_snoc {g g' g'' : GuestThreadContext} {writes : List (Nat × Word)}
    {write : Nat × Word} (h : writeCsrs g writes = .ok g') (hlast : writeCsr g' write = .ok g'') :
    writeCsrs g (writes ++ [write]) = .ok g'' := by
  unfold writeCsrs at h ⊢
  rw [List.foldlM_append, h]
  show List.foldlM writeCsr g' [write] = _
  rw [List.foldlM_cons, hlast]
  rfl

/-- where the value joins those of its own register -/
theorem written_snoc_self (csrId : Nat) (value : Word) (writes : List (Nat × Word)) :
    written csrId (writes ++ [(csrId, value)]) = written csrId writes ++ [value] := by
  simp [written]

/-- and of no other. -/
theorem written_snoc_of_ne {csrId other : Nat} (hne : other ≠ csrId) (value : Word)
    (writes : List (Nat × Word)) :
    written other (writes ++ [(csrId, value)]) = written other writes := by
  simp [written, hne.symm]

/-- The sticky bit matters to `mstatus` only. -/
theorem legalise_congr {csrId : Nat} {mdt mdt' : Bool} (h : csrId = CSR_mstatus → mdt = mdt')
    (value : Word) : legalise csrId mdt value = legalise csrId mdt' value := by
  by_cases hid : csrId = CSR_mstatus
  · rw [h hid]
  · unfold legalise
    rw [if_neg hid, if_neg hid]

/-- What a CSR reads as after `writes`, if it read as `initial` and the sticky bit was `mdt`. -/
def readsAs (csrId : Nat) (initial : Except Panic Word) (mdt : Bool)
    (writes : List (Nat × Word)) : Except Panic Word :=
  match (written csrId writes).getLast? with
  | none => initial
  | some value => .ok (legalise csrId (mdt || anyMdt (written csrId writes)) value)

/-- The state of the file after a run: the sticky bit is kept along, because the next write to
    `mstatus` depends on it. -/
theorem writeCsrs_spec (g : GuestThreadContext) (writes : List (Nat × Word))
    (hwrites : ∀ write ∈ writes, Writable write.1 write.2) :
    ∃ g', writeCsrs g writes = .ok g' ∧ g' = { g with csr := g'.csr } ∧
      g'.csr.mstatusMdt = (g.csr.mstatusMdt || anyMdt (written CSR_mstatus writes)) ∧
      ∀ csrId, getVirtualCsr csrId g'.csr =
        readsAs csrId (getVirtualCsr csrId g.csr) g.csr.mstatusMdt writes := by
  -- The induction is from the end: the last write decides what its CSR reads as.
  induction writes using List.reverseRecOn with
  | nil =>
    refine ⟨g, rfl, rfl, ?_, fun csrId => rfl⟩
    exact (Bool.or_false _).symm
  | append_singleton writes write ih =>
    obtain ⟨id, value⟩ := write
    obtain ⟨g₁, hrun, hframe, hmdt, hread⟩ :=
      ih (fun w hw => hwrites w (List.mem_append_left _ hw))
    have hlast : Writable id value := hwrites (id, value) (by simp)
    obtain ⟨csr, hset, hself⟩ := getVirtualCsr_write g₁.csr hlast
    refine ⟨{ g₁ with csr := csr }, writeCsrs_snoc hrun (writeCsr_eq_ok.mpr ⟨csr, hset, rfl⟩),
      ?_, ?_, ?_⟩
    · rw [hframe]
    · show csr.mstatusMdt = _
      rw [setVirtualCsr_mstatusMdt hset, hmdt]
      by_cases hid : id = CSR_mstatus
      · subst hid
        rw [if_pos rfl, written_snoc_self]
        simp [anyMdt, Bool.or_assoc]
      · rw [if_neg hid, written_snoc_of_ne (Ne.symm hid)]
    · intro csrId
      show getVirtualCsr csrId csr = _
      unfold readsAs
      by_cases hid : csrId = id
      · subst hid
        rw [hself, written_snoc_self, List.getLast?_concat]
        refine congrArg Except.ok (legalise_congr (fun hmstatus => ?_) value)
        subst hmstatus
        rw [hmdt]
        simp [anyMdt, Bool.or_assoc]
      · rw [getVirtualCsr_write_of_ne hset hid, written_snoc_of_ne hid]
        exact hread csrId

/-- **The CSR file.**  Any sequence of writes to emulated CSRs is accepted and changes nothing of
    the guest's context but its CSRs, each of which then reads as what it keeps of the value last
    written to it, or as it did if there is none.  Each further write changes what one CSR reads as
    at most, and none does when it writes what was read. -/
theorem csr_file_warl (g : GuestThreadContext) (writes : List (Nat × Word))
    (hwrites : ∀ write ∈ writes, Writable write.1 write.2) :
    ∃ g', writeCsrs g writes = .ok g' ∧ g' = { g with csr := g'.csr } ∧
      (∀ csrId, getVirtualCsr csrId g'.csr =
        readsAs csrId (getVirtualCsr csrId g.csr) g.csr.mstatusMdt writes) ∧
      (∀ csrId value, Writable csrId value →
        ∃ g'', writeCsr g' (csrId, value) = .ok g'' ∧ g'' = { g' with csr := g''.csr } ∧
          ∀ other, other ≠ csrId → getVirtualCsr other g''.csr = getVirtualCsr other g'.csr) ∧
      (∀ csrId value, getVirtualCsr csrId g'.csr = .ok value →
        writeCsr g' (csrId, value) = .ok g') := by
  obtain ⟨g', hrun, hframe, -, hread⟩ := writeCsrs_spec g writes hwrites
  refine ⟨g', hrun, hframe, hread, ?_, ?_⟩
  · intro csrId value hvalue
    obtain ⟨csr, hset, -⟩ := getVirtualCsr_write g'.csr hvalue
    exact ⟨{ g' with csr := csr }, writeCsr_eq_ok.mpr ⟨csr, hset, rfl⟩, rfl,
      fun other hne => getVirtualCsr_write_of_ne hset hne⟩
  · intro csrId value hvalue
    exact writeCsr_eq_ok.mpr ⟨g'.csr, setVirtualCsr_getVirtualCsr hvalue, rfl⟩

/-- `mstatus` is written with `MDT` and `MIE`, then with `MPP` only, and `mie` in between: the first
    still reads with `MDT`. -/
theorem csr_file_warl_sticky :
    ∃ g', writeCsrs {} [(CSR_mstatus, MSTATUS_MDT ||| MSTATUS_MIE), (CSR_mie, MIE_MTIE),
        (CSR_mstatus, MSTATUS_MPP_MASK)] = .ok g' ∧
      getVirtualCsr CSR_mstatus g'.csr = .ok (2 <<< 32 ||| MSTATUS_MPP_MASK ||| MSTATUS_MDT) ∧
      getVirtualCsr CSR_mie g'.csr = .ok MIE_MTIE := by
  obtain ⟨g', hrun, -, hread, -⟩ := csr_file_warl {}
    [(CSR_mstatus, MSTATUS_MDT ||| MSTATUS_MIE), (CSR_mie, MIE_MTIE),
      (CSR_mstatus, MSTATUS_MPP_MASK)] (by
    intro write hwrite
    simp only [List.mem_cons, List.not_mem_nil, or_false] at hwrite
    rcases hwrite with rfl | rfl | rfl
    · exact ⟨fun h => h.mstatus rfl, fun h => absurd h (by decide)⟩
    · exact ⟨fun h => h.mie rfl, fun _ => by decide⟩
    · exact ⟨fun h => h.mstatus rfl, fun h => absurd h (by decide)⟩)
  refine ⟨g', hrun, ?_, ?_⟩
  · rw [hread]
    decide
  · rw [hread]
    decide

end RiscvHypervisor
