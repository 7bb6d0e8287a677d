import RiscvHypervisor.Proof.Decoder

namespace RiscvHypervisor

open ByteMem Except

/-!
# What the load decoder accepts

`parseSourceAddress` reads every load back (`parseSourceAddress_load`).  Here is the other half: it
accepts nothing else.

* `parseSourceAddress_spec` — what the fields of an accepted word are;
* `LoadWord.exists_encode_long`, `LoadWord.exists_encode_short` — such a word is the encoding of a
  load;
* `load_encode_injective` — of one load;
* `load_decoder_exact` — the decoder on what lies in memory, and against the store decoder.

Two things keep it from being the decoder of the architecture.  `C.LWSP` never gets its sign flag,
and `C.LWSP` and `C.LDSP` without a destination, which are reserved, are taken for loads.
-/

/-- The words that reach one of the `return`s of `parseSourceAddress`. -/
structure LoadWord (w : Nat) : Prop where
  long : w &&& 3 = 3 → (unpackInstruction w).opcode = 0b0000011 ∧ (unpackInstruction w).funct3 < 7
  short : w &&& 3 ≠ 3 →
    ((unpackCompressedInstruction w).opcode = 0 ∨ (unpackCompressedInstruction w).opcode = 2) ∧
    ((unpackCompressedInstruction w).funct4 >>> 1 = 2 ∨
      (unpackCompressedInstruction w).funct4 >>> 1 = 3)

/-- What the decoder of loads accepts is a `LoadWord`. -/
theorem parseSourceAddress_spec (w : Nat) (regs : SavedRegisters) :
    (parseSourceAddress w regs).Post (fun e => e = .extractSourceAddress)
      (fun _ => LoadWord w) := by
  unfold parseSourceAddress
  by_cases hlow : w &&& 3 = 3
  · rw [if_pos hlow]
    dsimp only
    by_cases hop : (unpackInstruction w).opcode = 0b0000011
    · rw [if_pos hop]
      split
      -- `funct3` has a width for 0 to 6 only
      case h_8 => exact post_error.mpr rfl
      all_goals
        next hfunct3 =>
        exact post_ok.mpr ⟨fun _ => ⟨hop, by omega⟩, fun hne => absurd hlow hne⟩
    · rw [if_neg hop]
      exact post_error.mpr rfl
  · rw [if_neg hlow]
    dsimp only
    split
    · next hop =>
      split
      · next hfunct3 =>
        exact post_ok.mpr ⟨fun h => absurd h hlow, fun _ => ⟨.inl hop, .inl hfunct3⟩⟩
      · next hfunct3 =>
        exact post_ok.mpr ⟨fun h => absurd h hlow, fun _ => ⟨.inl hop, .inr hfunct3⟩⟩
      · exact post_error.mpr rfl
    · next hop =>
      split
      · next hfunct3 =>
        exact post_ok.mpr ⟨fun h => absurd h hlow, fun _ => ⟨.inr hop, .inl hfunct3⟩⟩
      · next hfunct3 =>
        exact post_ok.mpr ⟨fun h => absurd h hlow, fun _ => ⟨.inr hop, .inr hfunct3⟩⟩
      · exact post_error.mpr rfl
    · exact post_error.mpr rfl

/-! ### Every word has the fields of its format -/

/-- Every word is of the `I` format. -/
theorem exists_iType {w : Nat} (hw : w < 2 ^ 32) : ∃ imm rs1 funct3 rd opcode,
    w = (Rv64.iType imm rs1 funct3 rd opcode).toNat := by
  refine ⟨BitVec.ofNat 12 (w / 2 ^ 20), BitVec.ofNat 5 (w / 2 ^ 15), BitVec.ofNat 3 (w / 2 ^ 12),
    BitVec.ofNat 5 (w / 2 ^ 7), BitVec.ofNat 7 w, ?_⟩
  have h12 : w / 2 ^ 12 = w / 2 ^ 7 / 2 ^ 5 := by omega
  have h15 : w / 2 ^ 15 = w / 2 ^ 12 / 2 ^ 3 := by omega
  have h20 : w / 2 ^ 20 = w / 2 ^ 15 / 2 ^ 5 := by omega
  rw [Rv64.toNat_iType]
  simp only [BitVec.toNat_ofNat]
  omega

/-- Every half-word is of the `CI` format. -/
theorem exists_ciType {w : Nat} (hw : w < 2 ^ 16) : ∃ funct3 high rd low op,
    w = (Rv64.ciType funct3 high rd low op).toNat := by
  refine ⟨BitVec.ofNat 3 (w / 2 ^ 13), BitVec.ofNat 1 (w / 2 ^ 12), BitVec.ofNat 5 (w / 2 ^ 7),
    BitVec.ofNat 5 (w / 2 ^ 2), BitVec.ofNat 2 w, ?_⟩
  rw [Rv64.toNat_ciType]
  simp only [BitVec.toNat_ofNat]
  omega

/-- The offset bits of `C.LWSP` take every value. -/
theorem exists_loadStackWordOffset (high : BitVec 1) (low : BitVec 5) : ∃ uimm : BitVec 6,
    uimm.extractLsb' 3 1 = high ∧ uimm.extractLsb' 0 3 ++ uimm.extractLsb' 4 2 = low := by
  refine ⟨low.extractLsb' 0 2 ++ high ++ low.extractLsb' 2 3, ?_⟩
  revert high low
  decide

/-- The offset bits of `C.LDSP` take every value. -/
theorem exists_loadStackDoubleOffset (high : BitVec 1) (low : BitVec 5) : ∃ uimm : BitVec 6,
    uimm.extractLsb' 2 1 = high ∧ uimm.extractLsb' 0 2 ++ uimm.extractLsb' 3 3 = low := by
  refine ⟨low.extractLsb' 0 3 ++ high ++ low.extractLsb' 3 2, ?_⟩
  revert high low
  decide

/-- Every `funct3` below 7 is that of a load. -/
theorem exists_loadOp {funct3 : BitVec 3} (h : funct3.toNat < 7) :
    ∃ op : Rv64.LoadOp, op.funct3 = funct3 := by
  have hcases : funct3 = 0 ∨ funct3 = 1 ∨ funct3 = 2 ∨ funct3 = 3 ∨ funct3 = 4 ∨ funct3 = 5 ∨
      funct3 = 6 := by
    revert h
    revert funct3
    decide
  rcases hcases with rfl | rfl | rfl | rfl | rfl | rfl | rfl
  · exact ⟨.lb, rfl⟩
  · exact ⟨.lh, rfl⟩
  · exact ⟨.lw, rfl⟩
  · exact ⟨.ld, rfl⟩
  · exact ⟨.lbu, rfl⟩
  · exact ⟨.lhu, rfl⟩
  · exact ⟨.lwu, rfl⟩

/-! ### An accepted word is the encoding of a load -/

/-- A `LoadWord` of 32 bits is the encoding of a load, -/
theorem LoadWord.exists_encode_long {w : Nat} (h : LoadWord w) (hlow : w &&& 3 = 3)
    (hw : w < 2 ^ 32) : ∃ i : Rv64.Load, i.encode = w := by
  obtain ⟨imm, rs1, funct3, rd, opcode, rfl⟩ := exists_iType hw
  obtain ⟨hop, hfunct3⟩ := h.long hlow
  rw [unpackInstruction_iType] at hop hfunct3
  obtain ⟨op, rfl⟩ := exists_loadOp hfunct3
  have hopcode : opcode = 0b0000011 := BitVec.eq_of_toNat_eq hop
  exact ⟨.base op rd rs1 imm, by rw [hopcode]; rfl⟩

/-- and so is one of 16 bits. -/
theorem LoadWord.exists_encode_short {w : Nat} (h : LoadWord w) (hlow : w &&& 3 ≠ 3)
    (hw : w < 2 ^ 16) : ∃ i : Rv64.Load, i.encode = w := by
  obtain ⟨hop, hfunct3⟩ := h.short hlow
  rcases hop with hop | hop
  · -- `C.LW` and `C.LD`
    obtain ⟨funct3, high, rs1, low, r, op, rfl⟩ := exists_cType hw
    rw [unpackCompressedInstruction_cType] at hop hfunct3
    rw [shiftRight_one_of_funct4 (high_lt high)] at hfunct3
    have hop' : op = 0b00 := BitVec.eq_of_toNat_eq hop
    rcases hfunct3 with hfunct3 | hfunct3
    · have hfunct3' : funct3 = 0b010 := BitVec.eq_of_toNat_eq hfunct3
      obtain ⟨uimm, rfl, rfl⟩ := exists_wordOffset high low
      exact ⟨.clw r rs1 uimm, by rw [hop', hfunct3']; rfl⟩
    · have hfunct3' : funct3 = 0b011 := BitVec.eq_of_toNat_eq hfunct3
      obtain ⟨uimm, rfl, rfl⟩ := exists_doubleOffset high low
      exact ⟨.cld r rs1 uimm, by rw [hop', hfunct3']; rfl⟩
  · -- `C.LWSP` and `C.LDSP`: the highest bit of the field is apart from the others
    obtain ⟨funct3, high, rd, low, op, rfl⟩ := exists_ciType hw
    rw [unpackCompressedInstruction_ciType] at hop hfunct3
    rw [shiftRight_one_of_funct4 high.isLt] at hfunct3
    have hop' : op = 0b10 := BitVec.eq_of_toNat_eq hop
    rcases hfunct3 with hfunct3 | hfunct3
    · have hfunct3' : funct3 = 0b010 := BitVec.eq_of_toNat_eq hfunct3
      obtain ⟨uimm, rfl, rfl⟩ := exists_loadStackWordOffset high low
      exact ⟨.clwsp rd uimm, by rw [hop', hfunct3']; rfl⟩
    · have hfunct3' : funct3 = 0b011 := BitVec.eq_of_toNat_eq hfunct3
      obtain ⟨uimm, rfl, rfl⟩ := exists_loadStackDoubleOffset high low
      exact ⟨.cldsp rd uimm, by rw [hop', hfunct3']; rfl⟩

/-! ### Different loads have different encodings -/

section

variable {funct3 funct3' high high' rs1 rs1' r r' : BitVec 3} {low low' op op' : BitVec 2}

/-- An encoding of types CL and CS determines its fields. -/
theorem cType_eq (h : (Rv64.cType funct3 high rs1 low r op).toNat =
      (Rv64.cType funct3' high' rs1' low' r' op').toNat) :
    funct3 = funct3' ∧ high = high' ∧ rs1 = rs1' ∧ low = low' ∧ r = r' ∧ op = op' := by
  rw [Rv64.toNat_cType, Rv64.toNat_cType] at h
  refine ⟨?_, ?_, ?_, ?_, ?_, ?_⟩
  all_goals
    apply BitVec.eq_of_toNat_eq
    omega

/-- So does one of type CI. -/
theorem ciType_eq {high high' : BitVec 1} {rd rd' low low' : BitVec 5}
    (h : (Rv64.ciType funct3 high rd low op).toNat =
      (Rv64.ciType funct3' high' rd' low' op').toNat) :
    funct3 = funct3' ∧ high = high' ∧ rd = rd' ∧ low = low' ∧ op = op' := by
  rw [Rv64.toNat_ciType, Rv64.toNat_ciType] at h
  refine ⟨?_, ?_, ?_, ?_, ?_⟩
  all_goals
    apply BitVec.eq_of_toNat_eq
    omega

/-- The two compressed formats of loads differ in their two low bits. -/
theorem cType_ne_ciType {high' : BitVec 1} {rd low' : BitVec 5} (hop : op ≠ op') :
    (Rv64.cType funct3 high rs1 low r op).toNat ≠
      (Rv64.ciType funct3' high' rd low' op').toNat := by
  rw [Rv64.toNat_cType, Rv64.toNat_ciType]
  intro h
  apply hop
  apply BitVec.eq_of_toNat_eq
  omega

end

/-- An encoding of type I determines its fields as well. -/
theorem iType_eq {imm imm' : BitVec 12} {rs1 rs1' rd rd' : BitVec 5} {funct3 funct3' : BitVec 3}
    {opcode opcode' : BitVec 7}
    (h : (Rv64.iType imm rs1 funct3 rd opcode).toNat =
      (Rv64.iType imm' rs1' funct3' rd' opcode').toNat) :
    imm = imm' ∧ rs1 = rs1' ∧ funct3 = funct3' ∧ rd = rd' := by
  rw [Rv64.toNat_iType, Rv64.toNat_iType] at h
  refine ⟨?_, ?_, ?_, ?_⟩
  all_goals
    apply BitVec.eq_of_toNat_eq
    omega

/-- Loads of different kinds have different `funct3`. -/
theorem loadOp_eq_of_funct3 {op op' : Rv64.LoadOp} (h : op.funct3 = op'.funct3) : op = op' := by
  cases op <;> cases op' <;> first | rfl | exact absurd h (by decide)

/-- The fields of an offset determine it. -/
theorem wordOffset_eq {uimm uimm' : BitVec 5} (hhigh : uimm.extractLsb' 1 3 = uimm'.extractLsb' 1 3)
    (hlow : uimm.extractLsb' 0 1 ++ uimm.extractLsb' 4 1 =
      uimm'.extractLsb' 0 1 ++ uimm'.extractLsb' 4 1) : uimm = uimm' := by
  revert uimm uimm'
  decide

/-- The two parts of the offset of `C.LD` make up all of it. -/
theorem doubleOffset_eq {uimm uimm' : BitVec 5}
    (hhigh : uimm.extractLsb' 0 3 = uimm'.extractLsb' 0 3)
    (hlow : uimm.extractLsb' 3 2 = uimm'.extractLsb' 3 2) : uimm = uimm' := by
  revert uimm uimm'
  decide

/-- So do those of `C.LWSP`, -/
theorem loadStackWordOffset_eq {uimm uimm' : BitVec 6}
    (hhigh : uimm.extractLsb' 3 1 = uimm'.extractLsb' 3 1)
    (hlow : uimm.extractLsb' 0 3 ++ uimm.extractLsb' 4 2 =
      uimm'.extractLsb' 0 3 ++ uimm'.extractLsb' 4 2) : uimm = uimm' := by
  have himm := stackImmWord_ci uimm
  rw [hhigh, hlow, stackImmWord_ci uimm'] at himm
  apply BitVec.eq_of_toNat_eq
  omega

/-- and those of `C.LDSP`. -/
theorem loadStackDoubleOffset_eq {uimm uimm' : BitVec 6}
    (hhigh : uimm.extractLsb' 2 1 = uimm'.extractLsb' 2 1)
    (hlow : uimm.extractLsb' 0 2 ++ uimm.extractLsb' 3 3 =
      uimm'.extractLsb' 0 2 ++ uimm'.extractLsb' 3 3) : uimm = uimm' := by
  have himm := stackImmDouble_ci uimm
  rw [hhigh, hlow, stackImmDouble_ci uimm'] at himm
  apply BitVec.eq_of_toNat_eq
  omega

/-- Loads of one encoding are of one length. -/
theorem size_eq_of_encode {i j : Rv64.Load} (h : i.encode = j.encode) : i.size = j.size := by
  rcases load_size_encode i with ⟨hi, hlow⟩ | ⟨hi, hlow⟩
  all_goals
    rw [h] at hlow
    rcases load_size_encode j with ⟨hj, hlow'⟩ | ⟨hj, hlow'⟩
    all_goals omega

/-- **One reading.**  No word encodes two loads. -/
theorem load_encode_injective {i j : Rv64.Load} (h : i.encode = j.encode) : i = j := by
  have hsize := size_eq_of_encode h
  -- of the pairs of different kinds, some differ in length and some in the two low bits; the two
  -- of one format differ in `funct3`
  cases i with
  | base op rd rs1 imm =>
    cases j with
    | base op' rd' rs1' imm' =>
      obtain ⟨rfl, rfl, hop, rfl⟩ := iType_eq h
      rw [loadOp_eq_of_funct3 hop]
    | _ => cases hsize
  | clw rd rs1 uimm =>
    cases j with
    | base op' rd' rs1' imm' => cases hsize
    | clw rd' rs1' uimm' =>
      obtain ⟨-, hhigh, rfl, hlow, rfl, -⟩ := cType_eq h
      rw [wordOffset_eq hhigh hlow]
    | cld rd' rs1' uimm' => exact absurd (cType_eq h).1 (by decide)
    | clwsp rd' uimm' => exact absurd h (cType_ne_ciType (by decide))
    | cldsp rd' uimm' => exact absurd h (cType_ne_ciType (by decide))
  | cld rd rs1 uimm =>
    cases j with
    | base op' rd' rs1' imm' => cases hsize
    | clw rd' rs1' uimm' => exact absurd (cType_eq h).1 (by decide)
    | cld rd' rs1' uimm' =>
      obtain ⟨-, hhigh, rfl, hlow, rfl, -⟩ := cType_eq h
      rw [doubleOffset_eq hhigh hlow]
    | clwsp rd' uimm' => exact absurd h (cType_ne_ciType (by decide))
    | cldsp rd' uimm' => exact absurd h (cType_ne_ciType (by decide))
  | clwsp rd uimm =>
    cases j with
    | base op' rd' rs1' imm' => cases hsize
    | clw rd' rs1' uimm' => exact absurd h.symm (cType_ne_ciType (by decide))
    | cld rd' rs1' uimm' => exact absurd h.symm (cType_ne_ciType (by decide))
    | clwsp rd' uimm' =>
      obtain ⟨-, hhigh, rfl, hlow, -⟩ := ciType_eq h
      rw [loadStackWordOffset_eq hhigh hlow]
    | cldsp rd' uimm' => exact absurd (ciType_eq h).1 (by decide)
  | cldsp rd uimm =>
    cases j with
    | base op' rd' rs1' imm' => cases hsize
    | clw rd' rs1' uimm' => exact absurd h.symm (cType_ne_ciType (by decide))
    | cld rd' rs1' uimm' => exact absurd h.symm (cType_ne_ciType (by decide))
    | clwsp rd' uimm' => exact absurd (ciType_eq h).1 (by decide)
    | cldsp rd' uimm' =>
      obtain ⟨-, hhigh, rfl, hlow, -⟩ := ciType_eq h
      rw [loadStackDoubleOffset_eq hhigh hlow]

/-! ### From memory -/

/-- The load at `ptr`. -/
def LoadAt (m : Mem) (ptr : Nat) (i : Rv64.Load) : Prop := load m ptr i.size = i.encode

/-- Reading the instruction at `ptr` gives its encoding, whatever follows it in memory. -/
theorem LoadAt.dereference {m : Mem} {ptr : Nat} {i : Rv64.Load} (h : LoadAt m ptr i) :
    dereferenceInstruction m ptr = i.encode :=
  dereferenceInstruction_eq h (load_size_encode i)

/-- What the decoder accepts lies in memory as a load. -/
theorem LoadWord.exists_loadAt {m : Mem} {ptr : Nat}
    (h : LoadWord (dereferenceInstruction m ptr)) : ∃ i, LoadAt m ptr i := by
  rcases dereferenceInstruction_cases m ptr with ⟨heq, hlow⟩ | ⟨heq, hlow⟩
  · rw [heq] at h
    obtain ⟨i, hi⟩ := h.exists_encode_long ((and_three _).trans hlow) (load_lt m ptr 4)
    refine ⟨i, ?_⟩
    rw [← hi] at hlow
    rcases load_size_encode i with ⟨hsize, -⟩ | ⟨-, hne⟩
    · show load m ptr i.size = i.encode
      rw [hsize, hi]
    · exact absurd hlow hne
  · rw [heq] at h
    obtain ⟨i, hi⟩ := h.exists_encode_short (fun hc => hlow ((and_three _).symm.trans hc))
      (load_lt m ptr 2)
    refine ⟨i, ?_⟩
    rw [← hi] at hlow
    rcases load_size_encode i with ⟨-, hthree⟩ | ⟨hsize, -⟩
    · exact absurd hthree hlow
    · show load m ptr i.size = i.encode
      rw [hsize, hi]

/-- The decoder panics for want of a load only. -/
theorem parseSourceAddress_refused {m : Mem} {ptr : Nat} {regs : SavedRegisters} {e : Panic}
    (h : parseSourceAddress (dereferenceInstruction m ptr) regs = .error e) :
    e = .extractSourceAddress ∧ ∀ i, ¬ LoadAt m ptr i := by
  refine ⟨(parseSourceAddress_spec _ regs).error h, fun i hi => ?_⟩
  rw [hi.dereference, parseSourceAddress_load] at h
  cases h

/-- The store decoder panics for want of a store only. -/
theorem parseDestinationAddress_refused {m : Mem} {ptr : Nat} {regs : SavedRegisters} {e : Panic}
    (h : parseDestinationAddress (dereferenceInstruction m ptr) regs = .error e) :
    e = .extractDestinationAddress ∧ ∀ i : Rv64.Store, load m ptr i.size ≠ i.encode := by
  refine ⟨(parseDestinationAddress_spec _ regs).error h, fun i hi => ?_⟩
  rw [dereferenceInstruction_eq hi (store_size_encode i), parseDestinationAddress_store] at h
  cases h

/-- A word is not taken for a load and for a store. -/
theorem LoadWord.not_storeWord {w : Nat} (h : LoadWord w) : ¬ StoreWord w := by
  intro h'
  by_cases hlow : w &&& 3 = 3
  · -- the opcodes differ
    have hload := (h.long hlow).1
    rw [(h'.long hlow).1] at hload
    cases hload
  · -- loads have `funct3` 2 or 3 there, stores 6 or 7
    have hload := (h.short hlow).2
    have hstore := (h'.short hlow).2
    omega

/-- A load of the architecture lies at `ptr`, and no other. -/
def TheLoadAt (m : Mem) (ptr : Nat) (i : Rv64.Load) : Prop :=
  LoadAt m ptr i ∧ ¬ i.Reserved ∧ ∀ j, LoadAt m ptr j → j = i

/-- What is decoded from a reserved word is a load of `x0`. -/
theorem access_reserved {i : Rv64.Load} (h : i.Reserved) (x : Nat → Word) :
    (i.access x).reg = 0 ∧ signFlag i = false := by
  cases i with
  | clwsp rd uimm => exact ⟨congrArg BitVec.toNat h, rfl⟩
  | cldsp rd uimm => exact ⟨congrArg BitVec.toNat h, rfl⟩
  | _ => exact absurd h id

/-- **The load decoder is exact, but for `C.LWSP`.**  Either a load lies at `ptr`, just one, and the
    decoder returns its address, width, register and length, and its signedness where that matters
    unless it is `C.LWSP`, while the store decoder refuses it; or one of the reserved words lies
    there, and is taken for a load of `x0`; or neither, and the decoder panics. -/
theorem load_decoder_exact (m : Mem) (ptr : Nat) (regs : SavedRegisters) :
    (∃ i signed, TheLoadAt m ptr i ∧
        parseSourceAddress (dereferenceInstruction m ptr) regs =
          .ok ⟨(i.access (readReg regs)).address, accessWidth (i.access (readReg regs)).width,
            (i.access (readReg regs)).reg, i.size, signed⟩ ∧
        ((i.access (readReg regs)).width ≠ .double →
          (signed = (i.access (readReg regs)).signed ↔ ∀ rd uimm, i ≠ .clwsp rd uimm)) ∧
        parseDestinationAddress (dereferenceInstruction m ptr) regs =
          .error .extractDestinationAddress) ∨
      (∃ i : Rv64.Load, i.Reserved ∧ LoadAt m ptr i ∧
        parseSourceAddress (dereferenceInstruction m ptr) regs =
          .ok ⟨(i.access (readReg regs)).address, accessWidth (i.access (readReg regs)).width, 0,
            i.size, false⟩) ∨
      (∀ i, ¬ LoadAt m ptr i) ∧
        parseSourceAddress (dereferenceInstruction m ptr) regs = .error .extractSourceAddress := by
  cases hres : parseSourceAddress (dereferenceInstruction m ptr) regs with
  | error e =>
    obtain ⟨rfl, hnone⟩ := parseSourceAddress_refused hres
    exact .inr (.inr ⟨hnone, rfl⟩)
  | ok d =>
    have hword := (parseSourceAddress_spec (dereferenceInstruction m ptr) regs).ok hres
    obtain ⟨i, hi⟩ := hword.exists_loadAt
    have hdecode := parseSourceAddress_load i regs
    rw [← hi.dereference, hres] at hdecode
    by_cases hreserved : i.Reserved
    · obtain ⟨hreg, hflag⟩ := access_reserved hreserved (readReg regs)
      rw [hreg, hflag] at hdecode
      exact .inr (.inl ⟨i, hreserved, hi, hdecode⟩)
    refine .inl ⟨i, signFlag i, ⟨hi, hreserved, fun j hj => ?_⟩, hdecode,
      signFlag_iff i (readReg regs), ?_⟩
    · exact load_encode_injective (hj.dereference.symm.trans hi.dereference)
    · have hspec := parseDestinationAddress_spec (dereferenceInstruction m ptr) regs
      cases hres' : parseDestinationAddress (dereferenceInstruction m ptr) regs with
      | error e => rw [hspec.error hres']
      | ok d' => exact absurd (hspec.ok hres') hword.not_storeWord

end RiscvHypervisor
