import RiscvHypervisor.Proof.AddressRange
import RiscvHypervisor.Proof.GuestTable
import RiscvHypervisor.Proof.GuestView
import RiscvHypervisor.Proof.LoadDecoder

namespace RiscvHypervisor

open ByteMem RadixForest Except FreeChain

/-!
# When the hypervisor panics

Every `panic` of the hypervisor comes after a message.  `Diagnosis` has one case for each message
that a trap of the guest's can end with, and what then holds of the state in which the trap was
handled; `panic_diagnosis` is that nothing else ends in a panic.

Three of the messages say less, or something else, than what has happened:

* a page fault is propagated although the guest has mapped the address, if by a page of 4 KiB
  ("No RWX bits at the third-level guest pagetable entry" comes before);
* a fault is called unknown when the table in use grants the access at its first byte, as it does
  when the access crosses into the next page;
* an access is "below RAM" also when there is a device, but no register for such an access.

The messages without a case are never printed for a trap of the guest's: "Null page table",
"Non-guest page", "No RWX bits at the third-level pagetable entry", "Virtual memory iterator out of
range", "Failed to resolve instruction actual address", "Odd instruction address", "Unmatched gu and
hm lower bits", "Invalid page fault type" and "TODO: Guest machine/thread switch".  Traps of the
hypervisor's own are not in the model.  There is one lemma for each function that can panic, from
`resolveInstruction` up to `exception`.
-/

variable {L : Layout} {s s' t t' : State} {stale : Nat → Nat} {e : Panic}

/-! ### Traps -/

/-- The access that a page fault or an access fault is about. -/
def faultType (mcause : Word) : Option MempermIndex :=
  if mcause = 12 then some .x
  else if mcause = 5 ∨ mcause = 13 then some .r
  else if mcause = 7 ∨ mcause = 15 then some .w
  else none

/-- The traps for which the handler reads the instruction at `mepc`. -/
def ReadsInstruction (t : State) : Prop :=
  t.hart.mcause = 2 ∨ faultType t.hart.mcause = some .r ∨ faultType t.hart.mcause = some .w

/-- The trap is of the instruction `u`, which the hart has refused. -/
def Refused (L : Layout) (t : State) (u : UnpackedInstruction) : Prop :=
  t.hart.mcause = 2 ∧ ∃ host, resolveInstruction L t t.hart.mepc = .ok host ∧
    unpackInstruction (dereferenceInstruction t.store.mem host) = u

/-- The trap is of the access `access` to the guest-machine address `gm`, where the guest's own
    table has it. -/
structure Faulted (L : Layout) (stale : Nat → Nat) (t : State) (acc : MempermIndex)
    (access : DecodedAccess) (gm : Nat) : Prop where
  cause : faultType t.hart.mcause = some acc
  decoded : decodeFault L acc t = .ok access
  found : ∃ t', faultToGm L stale access.address.toNat t = .ok (gm, t')
  bare : t.guest.shadowPtActive = false → gm = access.address.toNat
  paged : t.guest.shadowPtActive = true →
    WellFormedWalk (guestRead t.store) t.guest.csr.satpPpn access.address.toNat →
      sv39Resolve (guestRead t.store) t.guest.csr.satpPpn access.address.toNat = some gm

/-- The instructions the hypervisor emulates. -/
def Emulated (u : UnpackedInstruction) : Prop :=
  u.opcode = 0x73 ∧ (u.funct3 = 1 ∨ u.funct3 = 2 ∨ u.funct3 = 0 ∧ u.funct7 = 9 ∧ u.rd = 0 ∨
    u = mretInstruction ∨ u = wfiInstruction)

/-- The state in which the cause of a trap is looked at: an access fault has been reported. -/
def State.reported (t : State) : State := t.print (accessFaultMessage t.hart.mcause)

/-- The pool has fewer than `n` pages to give. -/
def PoolBelow (n : Nat) (st : Store) : Prop :=
  ∃ free, Linked st.load64 st.freeListTop free ∧ pagesLeft st free < n

/-- **Messages.**  What holds of the state `t` in which the trap was handled when a message
    comes. -/
inductive Diagnosis (L : Layout) (stale : Nat → Nat) (t : State) : Panic → Prop where
  /-- "Guest illegal instruction not in memory range" -/
  | illegalNotInRange (cause : t.hart.mcause = 2)
      (range : t.hart.mepc < 0x80000000 ∨ 0x8080000000 < t.hart.mepc) :
      Diagnosis L stale t .illegalNotInRange
  /-- "Unmapped page": of the instruction -/
  | unmappedPage (reads : ReadsInstruction t)
      (unmapped : Sv39.walk t.store.load64 t.hart.mepc.toNat 2 (activeRoot L t.guest) = none) :
      Diagnosis L stale t .unmappedPage
  /-- "Multi-page instruction": four bytes long, at the last two bytes of a page -/
  | multiPageInstruction (reads : ReadsInstruction t) {l : Sv39.Leaf}
      (mapped : Sv39.walk t.store.load64 t.hart.mepc.toNat 2 (activeRoot L t.guest) = some l)
      (last : t.hart.mepc.toNat % 4096 = 4094)
      (long : load t.store.mem (l.translate t.hart.mepc.toNat) 2 % 4 = 3) :
      Diagnosis L stale t .multiPageInstruction
  /-- "Extract source address": the instruction is no load -/
  | extractSourceAddress (cause : faultType t.hart.mcause = some .r) {host : Nat}
      (fetched : resolveInstruction L t t.hart.mepc = .ok host)
      (unknown : ∀ i, ¬ LoadAt t.store.mem host i) : Diagnosis L stale t .extractSourceAddress
  /-- "Extract destination address": it is no store -/
  | extractDestinationAddress (cause : faultType t.hart.mcause = some .w) {host : Nat}
      (fetched : resolveInstruction L t t.hart.mepc = .ok host)
      (unknown : ∀ i : Rv64.Store, load t.store.mem host i.size ≠ i.encode) :
      Diagnosis L stale t .extractDestinationAddress
  /-- "Propagate the page fault to GM": by the guest's own table the address is not mapped for user
      mode, or it is, by a page of 4 KiB -/
  | propagateFault {acc : MempermIndex} {access : DecodedAccess}
      (cause : faultType t.hart.mcause = some acc) (decoded : decodeFault L acc t = .ok access)
      (paged : t.guest.shadowPtActive = true)
      (unmapped : WellFormedWalk (guestRead t.store) t.guest.csr.satpPpn access.address.toNat →
        sv39Resolve (guestRead t.store) t.guest.csr.satpPpn access.address.toNat = none ∨
          UserSmallPage (guestRead t.store) t.guest.csr.satpPpn access.address.toNat) :
      Diagnosis L stale t .propagateFault
  /-- "Failed to allocate a page" -/
  | pageAlloc {acc : MempermIndex} (cause : faultType t.hart.mcause = some acc)
      (pool : PoolBelow 3 t.store) : Diagnosis L stale t .pageAlloc
  /-- "Failed to allocate a shadow table page" -/
  | shadowTableAlloc {acc : MempermIndex} (cause : faultType t.hart.mcause = some acc)
      (paged : t.guest.shadowPtActive = true) (pool : PoolBelow 5 t.store) :
      Diagnosis L stale t .shadowTableAlloc
  /-- "Guest … below RAM": and there is no device register for such an access, or only one that
      cannot be read, or written -/
  | accessTooLow {acc : MempermIndex} {access : DecodedAccess} {gm : Nat}
      (fault : Faulted L stale t acc access gm) (low : gm < RAM_START)
      (rejected : ∀ d : DeviceRegister, d.address = gm → d.width = access.width →
        (acc = .r → d = .plicPriority ∨ d = .plicThreshold) ∧
          (acc = .w → d = .mtime ∨ d = .uartLsr)) :
      Diagnosis L stale t (.accessTooLow acc)
  /-- "Guest … beyond Sv39" -/
  | accessTooHigh {acc : MempermIndex} {access : DecodedAccess} {gm : Nat}
      (fault : Faulted L stale t acc access gm)
      (high : BeyondRange t.guest access.address.toNat gm) :
      Diagnosis L stale t (.accessTooHigh acc)
  /-- "Guest instruction page fault", "Guest unknown … page fault": the table in use grants the
      access, as far as its first byte goes -/
  | faultNotChanged {acc : MempermIndex} {access : DecodedAccess} {gm : Nat}
      (fault : Faulted L stale t acc access gm)
      (granted : grants t.store (activeRoot L t.guest) access.address.toNat acc = true) :
      Diagnosis L stale t (.faultNotChanged acc)
  /-- "Guest ecall/ebreak": executed as an illegal instruction -/
  | guestEcallEbreak {u : UnpackedInstruction} (refused : Refused L t u)
      (instr : u.opcode = 0x73 ∧ u.funct3 = 0 ∧ u.funct7 = 0) :
      Diagnosis L stale t .guestEcallEbreak
  /-- "Guest illegal instruction" -/
  | illegalInstruction {u : UnpackedInstruction} (refused : Refused L t u)
      (unknown : ¬ Emulated u) : Diagnosis L stale t .illegalInstruction
  /-- "mret from user mode" -/
  | mretFromUser (refused : Refused L t mretInstruction) (user : t.guest.userMode = true) :
      Diagnosis L stale t .mretFromUser
  /-- "Unsupported pagetable mode" -/
  | unsupportedPagetableMode (refused : Refused L t mretInstruction)
      (machine : t.guest.userMode = false)
      (mode : t.guest.csr.satpMode ≠ 0 ∧ t.guest.csr.satpMode ≠ 8) :
      Diagnosis L stale t .unsupportedPagetableMode
  /-- "Get emulated csr" -/
  | getEmulatedCsr {u : UnpackedInstruction} (refused : Refused L t u)
      (reads : u.funct3 = 1 ∧ u.rd ≠ 0 ∨ u.funct3 = 2) (unknown : UnknownCsr u.csrId) :
      Diagnosis L stale t .getEmulatedCsr
  /-- "Set emulated csr" -/
  | setEmulatedCsr {u : UnpackedInstruction} (refused : Refused L t u)
      (writes : u.funct3 = 1 ∧ u.rd = 0) (unknown : UnknownCsr u.csrId) :
      Diagnosis L stale t .setEmulatedCsr
  /-- "Unhandled mie fields": the source register has bits there -/
  | unhandledMieFields {u : UnpackedInstruction} (refused : Refused L t u)
      (writes : u.funct3 = 1 ∨ u.funct3 = 2) (csr : u.csrId = CSR_mie)
      (fields : readReg t.host.activeRegs u.rs1 &&& ~~~(MIE_MSIE ||| MIE_MTIE ||| MIE_MEIE) ≠ 0) :
      Diagnosis L stale t .unhandledMieFields
  /-- "GM exception": an `ecall` of the guest's machine mode -/
  | gmException (cause : t.hart.mcause = 8) (machine : t.guest.userMode = false) :
      Diagnosis L stale t .gmException
  /-- "Unhandled guest-caused exception" -/
  | unhandledException (exception : t.hart.mcause &&& MCAUSE_ASYNC_BIT = 0)
      (other : t.hart.mcause ≠ 2 ∧ t.hart.mcause ≠ 8 ∧ faultType t.hart.mcause = none) :
      Diagnosis L stale t .unhandledException

/-! ### The instruction -/

section

variable {root : Nat} {st : Store} {own : Owner Tree} {free : List Nat}

/-- On the hypervisor's tables the walk of `resolve_guestmem_slice` can only fail at an entry that
    is not valid.  `d` is 1 for the machine table, which has no tables of the lowest level, and 0
    for the shadow table. -/
theorem VmInv.resolveSliceLoop_error (h : VmInv L root st own free ∅) {va len d : Nat} {x : Tree} :
    ∀ (hh fuel : Nat) {k : Nat} {entry : UnpackedPagetableEntry},
      own entry.address = some ⟨x, hh, k⟩ → hh + d + 1 < fuel →
      hasAny entry.permissions (permbit .v) = true → hasAny entry.permissions permRWX = false →
      resolveSliceLoop st va len fuel (12 + 9 * (hh + d)) entry = .error e → e = .unmappedPage := by
  intro hh
  induction hh with
  | zero =>
    intro fuel k entry hown hfuel hv hl herr
    obtain ⟨fuel, rfl⟩ : ∃ n, fuel = n + 2 := ⟨fuel - 2, by omega⟩
    rw [Nat.zero_add, resolveSliceLoop_table hv hl] at herr
    have hfits := h.entry_fits hown (Sv39.vpn_lt va d)
    rcases h.forest.leaf hown (Sv39.vpn_lt va d) with hz | hleaf
    · -- an empty entry is the one panic that is left
      change st.load64 (entry.address + 8 * Sv39.vpn va d) = 0 at hz
      rw [hz, resolveSliceLoop_invalid (by decide)] at herr
      cases herr
      rfl
    · -- a leaf is the guest's, so that the walk would have returned
      obtain ⟨hv', hl', hu⟩ := leafOk_isLeaf hleaf
      change st.load64 (entry.address + 8 * Sv39.vpn va d) < 2 ^ 54 at hfits
      change (st.load64 (entry.address + 8 * Sv39.vpn va d)).testBit Sv39.bitU = true at hu
      rw [resolveSliceLoop_leaf 0 hfits hv' hl', if_pos hu] at herr
      cases herr
  | succ hh ih =>
    intro fuel k entry hown hfuel hv hl herr
    obtain ⟨fuel, rfl⟩ : ∃ n, fuel = n + 2 := ⟨fuel - 2, by omega⟩
    have hvpn := Sv39.vpn_lt va (hh + 1 + d)
    rw [resolveSliceLoop_table hv hl] at herr
    rcases h.forest.inner hown hvpn with hz | ⟨c, hchild, hc, -⟩
    · change st.load64 (entry.address + 8 * Sv39.vpn va (hh + 1 + d)) = 0 at hz
      rw [hz, resolveSliceLoop_invalid (by decide)] at herr
      cases herr
      rfl
    · obtain ⟨hv', hl', hlt, haddr⟩ := ptChild_eq_some hchild
      change (st.load64 (entry.address + 8 * Sv39.vpn va (hh + 1 + d))).testBit 0 = true at hv'
      change Sv39.isLeaf (st.load64 (entry.address + 8 * Sv39.vpn va (hh + 1 + d))) = false at hl'
      change (unpackPtEntry (st.load64 (entry.address + 8 * Sv39.vpn va (hh + 1 + d)))).address = c
        at haddr
      rw [show 12 + 9 * (hh + 1 + d) - 9 = 12 + 9 * (hh + d) by omega] at herr
      rw [← haddr] at hc
      refine ih (fuel + 1) hc (by omega) ?_ ?_ herr
      · rw [hasAny_unpack]
        exact hv'
      · rw [hasAny_unpack_permRWX]
        exact hl'

end

/-- A leaf of the table in use is the guest's. -/
theorem Core.walk_user (h : Core L s) {va : Nat} {l : Sv39.Leaf}
    (hl : Sv39.walk s.store.load64 va 2 (activeRoot L s.guest) = some l) :
    l.pte.testBit Sv39.bitU = true := by
  obtain ⟨own, free, hvm⟩ := h.mem.vm
  unfold activeRoot at hl
  split at hl
  · rename_i hact
    obtain ⟨-, hmaps, -⟩ := (walk_shadow hvm (h.priv.active hact).2 va l).mp hl
    exact (leafOk_isLeaf (hmaps.leafOk hvm)).2.2
  · obtain ⟨-, hmaps, -⟩ := (walk_machine hvm va l).mp hl
    exact (leafOk_isLeaf (hmaps.leafOk hvm)).2.2

/-- Looking for an instruction fails with "Unmapped page", when it is not mapped. -/
theorem Core.beginIterGuestmem_error (h : Core L s) {pc : Word} {mask : Nat}
    (herr : beginIterGuestmem L s ⟨pc, 4, s.host.currentGuest⟩ mask = .error e) :
    e = .unmappedPage ∧
      Sv39.walk s.store.load64 pc.toNat 2 (activeRoot L s.guest) = none := by
  obtain ⟨own, free, hvm⟩ := h.mem.vm
  have hbyte : GuestSlice.byteAddr ⟨pc, 4, s.host.currentGuest⟩ (0 : Word).toNat = pc.toNat := by
    unfold GuestSlice.byteAddr
    simp
  have hroot := hvm.table_ne_zero (hvm.activeRoot_own h)
  have hv : hasAny (permbit .v) (permbit .v) = true := by decide
  have hl : hasAny (permbit .v) permRWX = false := by decide
  constructor
  · unfold beginIterGuestmem resolveGuestmemSlice at herr
    dsimp only at herr
    rw [h.activePt_eq, if_neg hroot, if_neg (by decide), if_neg (by decide)] at herr
    rcases bind_eq_error.mp herr with hloop | ⟨host, -, hret⟩
    · by_cases hact : s.guest.shadowPtActive = true
      · rw [show activeRoot L s.guest = s.guest.shadowPageTable from if_pos hact] at hloop
        exact hvm.resolveSliceLoop_error (d := 0) 2 4
          (hvm.shadow_of_ne_zero (h.priv.active hact).2) (by decide) hv hl hloop
      · rw [show activeRoot L s.guest = L.machineRoot 0 from if_neg hact] at hloop
        exact hvm.resolveSliceLoop_error (d := 1) 1 4 hvm.machine (by decide) hv hl hloop
    · cases hret
  · cases hwalk : Sv39.walk s.store.load64 pc.toNat 2 (activeRoot L s.guest) with
    | none => rfl
    | some l =>
      unfold beginIterGuestmem at herr
      rw [(resolveGuestmemSlice_eq_ok ?first (h.fitsAt rfl _)).mpr
        ⟨l, ?found, h.walk_user hwalk, rfl⟩] at herr
      case first => exact show (0 : Word).toNat < (4 : Word).toNat by decide
      case found =>
        dsimp only
        rw [hbyte, h.activePt_eq]
        exact hwalk
      cases herr

/-- An instruction that is not found is not mapped, or goes on in the next page.  `pc` is even, so
    that there are two bytes of it in its page. -/
theorem Core.resolveInstruction_error (h : Core L s) {pc : Word} (heven : pc.toNat % 2 = 0)
    (herr : resolveInstruction L s pc = .error e) :
    e = .unmappedPage ∧ Sv39.walk s.store.load64 pc.toNat 2 (activeRoot L s.guest) = none ∨
      e = .multiPageInstruction ∧ ∃ l,
        Sv39.walk s.store.load64 pc.toNat 2 (activeRoot L s.guest) = some l ∧
        pc.toNat % 4096 = 4094 ∧ load s.store.mem (l.translate pc.toNat) 2 % 4 = 3 := by
  unfold resolveInstruction at herr
  rcases bind_eq_error.mp herr with hit | ⟨it, hit, hlength⟩
  · exact Or.inl (h.beginIterGuestmem_error hit)
  right
  unfold beginIterGuestmem at hit
  rw [resolveGuestmemSlice_eq_ok (show (0 : Word).toNat < (4 : Word).toNat by decide)
    (h.fitsAt rfl _)] at hit
  obtain ⟨l, hl, -, rfl⟩ := hit
  have hbyte : GuestSlice.byteAddr ⟨pc, 4, s.host.currentGuest⟩ (0 : Word).toNat = pc.toNat := by
    unfold GuestSlice.byteAddr
    simp
  have hlevel := Sv39.walk_level_le hl
  -- the rest of the page is that of its last 4 KiB, unless it is longer
  have hrest : ∀ n, n ≤ 4 → (leafChunk l pc.toNat 4).byteLength < n →
      4096 < pc.toNat % 4096 + n := by
    intro n hn hlt
    unfold leafChunk at hlt
    have hsize : Sv39.pageSize l.level = 4096 ∨ Sv39.pageSize l.level = 4096 * 512 ∨
        Sv39.pageSize l.level = 4096 * (512 * 512) := by
      obtain h | h | h : l.level = 0 ∨ l.level = 1 ∨ l.level = 2 := by omega
      · rw [h]
        exact Or.inl rfl
      · rw [h]
        exact Or.inr (Or.inl rfl)
      · rw [h]
        exact Or.inr (Or.inr rfl)
    dsimp only at hlt
    rcases hsize with hs | hs | hs
    all_goals
      rw [hs] at hlt
      omega
  dsimp only at hl hlength
  rw [hbyte, show (4 : Word).toNat - (0 : Word).toNat = 4 by decide] at hlength
  rw [hbyte, h.activePt_eq] at hl
  rw [if_neg (by decide)] at hlength
  split at hlength
  · -- there would be a single byte of it
    rename_i hlt
    have hlate := hrest 2 (by decide) hlt
    omega
  by_cases hlt : (leafChunk l pc.toNat 4).byteLength <
      if load s.store.mem (l.translate pc.toNat) 2 &&& 3 = 3 then 4 else 2
  · have herr := (if_pos hlt).symm.trans hlength
    cases herr
    refine ⟨rfl, l, hl, ?_⟩
    split at hlt
    · rename_i hlong
      have hlate := hrest 4 (Nat.le_refl 4) hlt
      rw [and_three] at hlong
      exact ⟨by omega, hlong⟩
    · have hlate := hrest 2 (by decide) hlt
      omega
  · have hok := (if_neg hlt).symm.trans hlength
    cases hok

/-! ### Page faults -/

theorem ReadsInstruction.diagnosis (reads : ReadsInstruction t) (h : Core L t)
    (herr : resolveInstruction L t t.hart.mepc = .error e) : Diagnosis L stale t e := by
  rcases h.resolveInstruction_error t.hart.mepc_even herr with
    ⟨rfl, hwalk⟩ | ⟨rfl, l, hwalk, hlast, hlong⟩
  · exact .unmappedPage reads hwalk
  · exact .multiPageInstruction reads hwalk hlast hlong

/-- The types of access that faults are about. -/
theorem faultType_cases {mcause : Word} {acc : MempermIndex} (h : faultType mcause = some acc) :
    acc = .x ∨ acc = .r ∨ acc = .w := by
  unfold faultType at h
  split at h
  · exact Or.inl (Option.some.inj h).symm
  split at h
  · exact Or.inr (Or.inl (Option.some.inj h).symm)
  split at h
  · exact Or.inr (Or.inr (Option.some.inj h).symm)
  · cases h

/-- The faulting access is decoded, or its instruction is out of reach or of another kind. -/
theorem decodeFault_diagnosis (h : Core L t) {acc : MempermIndex}
    (cause : faultType t.hart.mcause = some acc) (herr : decodeFault L acc t = .error e) :
    Diagnosis L stale t e := by
  rcases faultType_cases cause with rfl | rfl | rfl
  · cases herr
  · rcases bind_eq_error.mp herr with hres | ⟨host, hhost, hparse⟩
    · exact ReadsInstruction.diagnosis (Or.inr (Or.inl cause)) h hres
    · obtain ⟨rfl, hnone⟩ := parseSourceAddress_refused hparse
      exact .extractSourceAddress cause hhost hnone
  · rcases bind_eq_error.mp herr with hres | ⟨host, hhost, hparse⟩
    · exact ReadsInstruction.diagnosis (Or.inr (Or.inr cause)) h hres
    · obtain ⟨rfl, hnone⟩ := parseDestinationAddress_refused hparse
      exact .extractDestinationAddress cause hhost hnone

/-- A message about the pool. -/
theorem VmInv.poolBelow {root : Nat} {st : Store} {own : Owner Tree} {free : List Nat}
    (h : VmInv L root st own free ∅) {n : Nat} (hleft : pagesLeft st free < n) : PoolBelow n st :=
  ⟨free, h.alloc.chain, hleft⟩

theorem PoolBelow.mono {m n : Nat} {st : Store} (h : PoolBelow m st) (hle : m ≤ n) :
    PoolBelow n st := by
  obtain ⟨free, hchain, hleft⟩ := h
  exact ⟨free, hchain, Nat.lt_of_lt_of_le hleft hle⟩

/-- The first translation fails if the guest has not mapped the address, or for want of a page. -/
theorem faultToGm_diagnosis (h : Core L t) {acc : MempermIndex} {access : DecodedAccess}
    (cause : faultType t.hart.mcause = some acc) (decoded : decodeFault L acc t = .ok access)
    (herr : faultToGm L stale access.address.toNat t = .error e) : Diagnosis L stale t e := by
  obtain ⟨own, free, hvm⟩ := h.mem.vm
  unfold faultToGm at herr
  split at herr
  · cases herr
  rename_i hact
  have hact : t.guest.shadowPtActive = true := by simpa using hact
  rw [h.current] at herr
  have hspec := tryResolveGuToGm_spec hvm stale t.guest.csr.satpPpn access.address.toNat
  rcases bind_eq_error.mp herr with hres | ⟨⟨gm, st⟩, hres, hgm⟩
  · obtain ⟨rfl, hleft⟩ := hspec.error hres
    exact .pageAlloc cause ((hvm.poolBelow hleft).mono (by decide))
  · cases gm with
    | some gm => cases hgm
    | none =>
      cases hgm
      obtain ⟨-, -, -, -, -, hwalk⟩ := hspec.ok hres
      exact .propagateFault cause decoded hact
        (fun wf => wf.sv39Resolve_of_not_resolveGu (hwalk wf.walkInRam).symm)

/-- In guest RAM the last step fails for want of a page. -/
theorem finishFault_error (h : Core L t) {acc : MempermIndex} {access : DecodedAccess} {gm : Nat}
    {own : Owner Tree} {free : List Nat} {st : Store} {result : PageFaultHandlerResult}
    (hvm : VmInv L t.guest.shadowPageTable st own free ∅) (hram : InGuestRam gm)
    (hmod : gm % 4096 = access.address.toNat % 4096) (hacc : IsAccess acc)
    (hresult : result = .success ∨ result = .notChanged)
    (herr : finishFault L acc access gm result (some (gm + GUEST_MEMORY_OFFSET))
      { t with store := st } = .error e) :
    t.guest.shadowPtActive = true ∧ e = .shadowTableAlloc ∧ pagesLeft st free < 2 := by
  rw [finishFault_ram hresult] at herr
  split at herr
  swap
  · cases herr
  rename_i hact
  have hlow : access.address.toNat % 4096 = (gm + GUEST_MEMORY_OFFSET) % 4096 := by
    rw [add_guestMemoryOffset_mod, hmod]
  rcases bind_eq_error.mp herr with hupdate | ⟨r, -, hret⟩
  swap
  · cases hret
  by_cases hva : access.address.toNat < 2 ^ 39
  · exact ⟨hact, (updateShadowPt_spec hvm (h.priv.active hact).2 hva hlow
      (Nat.add_le_add_right hram.1 _) hram.host_lt hacc).error hupdate⟩
  · rw [updateShadowPt_tooHigh (Nat.le_of_not_lt hva) hlow] at hupdate
    cases hupdate

/-- Outside of guest RAM no page is needed. -/
theorem finishFault_outside {acc : MempermIndex} {access : DecodedAccess} {gm : Nat}
    (hram : ¬ InGuestRam gm) (st : Store) : ∃ r,
      (ensureGuestMachineMapped L 0 gm st >>= fun r =>
        finishFault L acc access gm r.1 r.2.1 { t with store := r.2.2 }) = .ok r := by
  by_cases hlo : RAM_START ≤ gm
  · rw [ensureGuestMachineMapped_tooHigh (Nat.le_of_not_lt (fun hhi => hram ⟨hlo, hhi⟩))]
    exact ⟨_, rfl⟩
  · rw [ensureGuestMachineMapped_tooLow (Nat.lt_of_not_le hlo)]
    exact ⟨_, rfl⟩

theorem handlePageFault_diagnosis (h : Core L t) {acc : MempermIndex}
    (cause : faultType t.hart.mcause = some acc) (herr : handlePageFault L stale acc t = .error e) :
    Diagnosis L stale t e := by
  obtain ⟨own, free, hvm⟩ := h.mem.vm
  unfold handlePageFault at herr
  rcases bind_eq_error.mp herr with hdecode | ⟨access, decoded, hrest⟩
  · exact decodeFault_diagnosis h cause hdecode
  rcases bind_eq_error.mp hrest with hgm | ⟨⟨gm, t₁⟩, hgm, hmap⟩
  · exact faultToGm_diagnosis h cause decoded hgm
  have hacc : IsAccess acc := (decodeFault_spec t acc).ok decoded
  obtain ⟨st₁, own₁, free₁, rfl, hb₁, -, hmod, -⟩ :=
    (faultToGm_spec h hvm stale access.address.isLt).ok hgm
  have hleft₁ := hb₁.left
  change (ensureGuestMachineMapped L t.host.currentGuest.machine gm st₁ >>= fun r =>
    finishFault L acc access gm r.1 r.2.1 { t with store := r.2.2 }) = .error e at hmap
  rw [h.current] at hmap
  by_cases hram : InGuestRam gm
  swap
  · obtain ⟨r, hr⟩ := finishFault_outside hram st₁
    rw [hr] at hmap
    cases hmap
  -- of the pages that are there, the walk of the guest's table takes two at most, the machine table
  -- one and the shadow table two
  have hspec := ensureGuestMachineMapped_spec hb₁.inv hram.1 hram.2
  rcases bind_eq_error.mp hmap with hens | ⟨⟨res, hm, st₂⟩, hens, hfinish⟩
  · obtain ⟨rfl, hleft⟩ := hspec.error hens
    exact .pageAlloc cause (hvm.poolBelow (by omega))
  · obtain ⟨hresult, hhm, own₂, free₂, -, hb₂, -⟩ := hspec.ok hens
    dsimp only at hresult hhm hb₂
    subst hhm
    have hleft₂ := hb₂.left
    obtain ⟨hact, rfl, hleft⟩ := finishFault_error h hb₂.inv hram hmod hacc hresult hfinish
    exact .shadowTableAlloc cause hact (hvm.poolBelow (by omega))

/-- An access that is not emulated is to no device register, or to one that cannot be read, or
    written. -/
theorem emulateDevice_rejected {acc : MempermIndex} {access : DecodedAccess} {gm : Nat}
    {result : PageFaultHandlerResult} (hresult : result ≠ .success)
    (hdev : emulateDevice acc access gm t = (result, t')) (d : DeviceRegister)
    (haddress : d.address = gm) (hwidth : d.width = access.width) :
    (acc = .r → d = .plicPriority ∨ d = .plicThreshold) ∧
      (acc = .w → d = .mtime ∨ d = .uartLsr) := by
  constructor
  · rintro rfl
    rcases emulateDevice_load access gm t with ⟨-, s', hload, -⟩ | ⟨-, hnone, -⟩
    · rw [hload] at hdev
      cases hdev
      exact absurd rfl hresult
    · cases d with
      | plicPriority => exact Or.inl rfl
      | plicThreshold => exact Or.inr rfl
      | _ => exact absurd ⟨haddress, hwidth, rfl⟩ (hnone _ _)
  · rintro rfl
    rcases emulateDevice_store access gm t with ⟨-, s', hstore, -⟩ | ⟨-, hnone, -⟩
    · rw [hstore] at hdev
      cases hdev
      exact absurd rfl hresult
    · cases d with
      | mtime => exact Or.inl rfl
      | uartLsr => exact Or.inr rfl
      | _ => exact absurd ⟨haddress, hwidth, rfl⟩ (hnone _ _)

/-- A fault that is handled, but not with success, is reported for what it is. -/
theorem handleAccessFault_diagnosis (h : Core L t) {acc : MempermIndex}
    (cause : faultType t.hart.mcause = some acc)
    (herr : handleAccessFault L stale acc t = .error e) : Diagnosis L stale t e := by
  unfold handleAccessFault at herr
  rcases bind_eq_error.mp herr with hfault | ⟨⟨result, va, t'⟩, hfault, hreport⟩
  · exact handlePageFault_diagnosis h cause hfault
  obtain ⟨own, free, hvm⟩ := h.mem.vm
  obtain ⟨access, gm, st₁, decoded, rfl, hgm, hcases⟩ := handlePageFault_cases hfault
  obtain ⟨st, own₁, free₁, heq, hb₁, hsame₁, hmod, -, hres⟩ :=
    (faultToGm_spec h hvm stale access.address.isLt).ok hgm
  have hfaulted : Faulted L stale t acc access gm :=
    { cause := cause
      decoded := decoded
      found := ⟨_, hgm⟩
      bare := fun hact => (faultToGm_inactive hact hgm).2
      paged := fun hact wf => wf.sv39Resolve_of_resolveGu (hres hact wf.walkInRam) }
  obtain rfl : st₁ = st := congrArg State.store heq
  have hacc : IsAccess acc := (decodeFault_spec t acc).ok decoded
  rcases hcases with ⟨hlow, hdev⟩ | ⟨hhigh, rfl, -⟩ | ⟨hram, res, hm, st₂, hens, -, hfinish⟩
  · have hresult := emulateDevice_result acc access gm { t with store := st₁ }
    rw [hdev] at hresult
    rcases hresult with rfl | rfl
    · cases hreport
    · cases hreport
      exact .accessTooLow hfaulted hlow (emulateDevice_rejected (by decide) hdev)
  · cases hreport
    exact .accessTooHigh hfaulted (Or.inl hhigh)
  · rw [h.current] at hens
    obtain ⟨-, -, hrange⟩ := finishFault_range h hb₁.inv hram hmod hacc hens hfinish
    obtain ⟨-, -, hgranted⟩ := finishFault_progress h hvm hb₁ hsame₁
      (fun hact => faultToGm_inactive hact hgm) hram hmod hacc hens hfinish
    rcases hrange with ⟨hact, hva, rfl, -⟩ | ⟨-, rfl | rfl⟩
    · cases hreport
      exact .accessTooHigh hfaulted (Or.inr ⟨hact, hram.1, hva⟩)
    · cases hreport
    · cases hreport
      exact .faultNotChanged hfaulted (hgranted rfl)

/-! ### Emulated instructions -/

theorem guestException_error {mcause : Word} (herr : guestException L mcause t = .error e) :
    e = .gmException ∧ t.guest.userMode = false := by
  unfold guestException at herr
  split at herr
  · rename_i huser
    cases herr
    exact ⟨rfl, by simpa using huser⟩
  · cases herr

theorem guestCheckDeferred_error (herr : guestCheckDeferred L t = .error e) : e = .gmException := by
  unfold guestCheckDeferred at herr
  split at herr
  · cases herr
  split at herr
  · rcases bind_eq_error.mp herr with htrap | ⟨s', -, hret⟩
    · exact (guestException_error htrap).1
    · cases hret
  · cases herr

/-- The check for a deferred exception, at the end of an instruction. -/
theorem checkDeferred_error
    (herr : (do let (_, s) ← guestCheckDeferred L t; return s : Except Panic State) = .error e) :
    e = .gmException := by
  rcases bind_eq_error.mp herr with hcheck | ⟨r, -, hret⟩
  · exact guestCheckDeferred_error hcheck
  · cases hret

/-- The switch of the translation fails for a mode the hypervisor does not know. -/
theorem mretTranslation_error (herr : mretTranslation L t = .error e) :
    e = .unsupportedPagetableMode ∧ t.guest.csr.satpMode ≠ 0 ∧ t.guest.csr.satpMode ≠ 8 := by
  unfold mretTranslation at herr
  dsimp only at herr
  split at herr
  · cases herr
  rename_i hnone
  split at herr
  · cases herr
  rename_i hsv39
  cases herr
  refine ⟨rfl, fun hmode => hnone ?_, fun hmode => hsv39 ?_⟩
  · rw [hmode]
    decide
  · rw [hmode]
    decide

/-- `mret`, which delivers no deferred exception that the guest is not ready for. -/
theorem guestMret_diagnosis (h : Core L t) (refused : Refused L t mretInstruction)
    (herr : guestMret L t = .error e) : Diagnosis L stale t e := by
  have hexcluded := (guestMret_spec h).error herr
  unfold guestMret at herr
  split at herr
  · rename_i huser
    cases herr
    exact .mretFromUser refused huser
  rename_i huser
  rcases bind_eq_error.mp herr with hswitch | ⟨s', -, hcheck⟩
  · obtain ⟨rfl, hmode⟩ := mretTranslation_error hswitch
    simp only [State.guest_setGuest, State.guest_setMepc] at hmode
    exact .unsupportedPagetableMode refused (eq_false_of_ne_true huser) hmode
  · exact absurd (Or.inl (checkDeferred_error hcheck)) hexcluded

/-- A CSR cannot be written if it is not known, or for bits of `mie`. -/
theorem setVirtualCsr_refused {csrId : Nat} {value : Word} {csr : GuestCsr}
    (herr : setVirtualCsr csrId value csr = .error e) :
    e = .setEmulatedCsr ∧ UnknownCsr csrId ∨ e = .unhandledMieFields ∧ csrId = CSR_mie ∧
      value &&& ~~~(MIE_MSIE ||| MIE_MTIE ||| MIE_MEIE) ≠ 0 := by
  induction csrId using csr_cases with
  | mie =>
    change (if value &&& ~~~(MIE_MSIE ||| MIE_MTIE ||| MIE_MEIE) ≠ 0 then _ else _) = _ at herr
    split at herr
    · rename_i hfields
      cases herr
      exact Or.inr ⟨rfl, rfl, hfields⟩
    · cases herr
  | pmp id hpmp =>
    rw [setVirtualCsr_pmp hpmp] at herr
    cases herr
  | unknown id hid =>
    rw [setVirtualCsr_unknown hid] at herr
    cases herr
    exact Or.inl ⟨rfl, hid⟩
  | _ => cases herr

theorem getVirtualCsr_refused {csrId : Nat} {csr : GuestCsr}
    (herr : getVirtualCsr csrId csr = .error e) : e = .getEmulatedCsr ∧ UnknownCsr csrId := by
  induction csrId using csr_cases with
  | pmp id hpmp =>
    rw [getVirtualCsr_pmp hpmp] at herr
    cases herr
  | unknown id hid =>
    rw [getVirtualCsr_unknown hid] at herr
    cases herr
    exact ⟨rfl, hid⟩
  | _ => cases herr

/-- A bit of `mie` that the hypervisor does not know comes from the source register. -/
theorem mie_fields_of_source {csr : GuestCsr} {value x : Word}
    (hvalue : getVirtualCsr CSR_mie csr = .ok value)
    (hfields : (value ||| x) &&& ~~~(MIE_MSIE ||| MIE_MTIE ||| MIE_MEIE) ≠ 0) :
    x ≠ value ∧ x &&& ~~~(MIE_MSIE ||| MIE_MTIE ||| MIE_MEIE) ≠ 0 := by
  have hknown : value &&& ~~~(MIE_MSIE ||| MIE_MTIE ||| MIE_MEIE) = 0 := by
    change Except.ok _ = Except.ok value at hvalue
    rw [← Except.ok.inj hvalue]
    cases csr.mieMsie <;> cases csr.mieMtie <;> cases csr.mieMeie <;> decide
  rw [BitVec.and_or_distrib_right, hknown] at hfields
  change 0#64 ||| _ ≠ _ at hfields
  rw [BitVec.zero_or] at hfields
  refine ⟨?_, hfields⟩
  rintro rfl
  exact hfields hknown

theorem emulateCsrrw_diagnosis (h : Core L t) {u : UnpackedInstruction} (refused : Refused L t u)
    (hf3 : u.funct3 = 1) {guestAddr : Word} (herr : emulateCsrrw L guestAddr u t = .error e) :
    Diagnosis L stale t e := by
  have hexcluded := (emulateCsrrw_spec h guestAddr u).error herr
  unfold emulateCsrrw at herr
  rcases bind_eq_error.mp herr with hold | ⟨old, hold, hrest⟩
  · split at hold
    · rename_i hrd
      obtain ⟨rfl, hunknown⟩ := getVirtualCsr_refused hold
      exact .getEmulatedCsr refused (Or.inl ⟨hf3, hrd⟩) hunknown
    · cases hold
  rcases bind_eq_error.mp hrest with hwrite | ⟨csr, -, hcheck⟩
  · rcases setVirtualCsr_refused hwrite with ⟨rfl, hunknown⟩ | ⟨rfl, hmie, hfields⟩
    · refine .setEmulatedCsr refused ⟨hf3, ?_⟩ hunknown
      -- an unknown CSR with a destination register has been refused before
      by_contra hrd
      rw [if_pos hrd] at hold
      have hget := getVirtualCsr_unknown hunknown t.guest.csr
      exact absurd (hold.symm.trans hget) (by simp)
    · exact .unhandledMieFields refused (Or.inl hf3) hmie hfields
  · exact absurd (Or.inl (checkDeferred_error hcheck)) hexcluded

theorem emulateCsrrs_diagnosis (h : Core L t) {u : UnpackedInstruction} (refused : Refused L t u)
    (hf3 : u.funct3 = 2) {guestAddr : Word} (herr : emulateCsrrs L guestAddr u t = .error e) :
    Diagnosis L stale t e := by
  have hexcluded := (emulateCsrrs_spec h guestAddr u).error herr
  unfold emulateCsrrs at herr
  rcases bind_eq_error.mp herr with hvalue | ⟨value, hvalue, hrest⟩
  · obtain ⟨rfl, hunknown⟩ := getVirtualCsr_refused hvalue
    exact .getEmulatedCsr refused (Or.inr hf3) hunknown
  dsimp only at hrest
  rcases bind_eq_error.mp hrest with hwrite | ⟨csr, -, hcheck⟩
  · split at hwrite
    swap
    · cases hwrite
    rename_i hrs1
    rcases setVirtualCsr_refused hwrite with ⟨rfl, hunknown⟩ | ⟨rfl, hmie, hfields⟩
    · have hget := getVirtualCsr_unknown hunknown t.guest.csr
      exact absurd (hvalue.symm.trans hget) (by simp)
    · rw [hmie] at hvalue
      obtain ⟨hne, hfields⟩ := mie_fields_of_source hvalue hfields
      refine .unhandledMieFields refused (Or.inr hf3) hmie ?_
      rw [readReg_of_ne_zero hrs1]
      split at hfields
      swap
      · exact hfields
      rename_i hrd
      rw [if_pos hrd] at hne
      -- the source register has not been written as the destination
      change Function.update t.host.activeRegs (u.rd - 1) value (u.rs1 - 1) ≠ value at hne
      change Function.update t.host.activeRegs (u.rd - 1) value (u.rs1 - 1) &&& _ ≠ 0 at hfields
      have hother : u.rs1 - 1 ≠ u.rd - 1 := by
        intro hc
        rw [hc, Function.update_self] at hne
        exact hne rfl
      rw [Function.update_of_ne hother] at hfields
      exact hfields
  · exact absurd (Or.inl (checkDeferred_error hcheck)) hexcluded

/-- Of the instructions that are refused only `ecall` and `ebreak` are told apart. -/
theorem emulateInstruction_diagnosis (h : Core L t) {u : UnpackedInstruction}
    (refused : Refused L t u) {guestAddr : Word}
    (herr : emulateInstruction L guestAddr u t = .error e) : Diagnosis L stale t e := by
  obtain ⟨opcode, rd, funct3, rs1, rs2, funct7⟩ := u
  unfold emulateInstruction at herr
  dsimp only at herr
  by_cases hop : opcode = 0x73
  swap
  · rw [if_pos hop] at herr
    cases herr
    exact .illegalInstruction refused (fun hc => hop hc.1)
  subst hop
  rw [if_neg (not_not_intro rfl)] at herr
  split at herr
  -- `funct3 = 0`: what is none of the four has the message of an unknown instruction
  · by_cases hecall : funct7 = 0
    · rw [if_pos hecall] at herr
      cases herr
      exact .guestEcallEbreak refused ⟨rfl, rfl, hecall⟩
    rw [if_neg hecall] at herr
    by_cases hfence : funct7 = 9 ∧ rd = 0
    · rw [if_pos hfence] at herr
      obtain ⟨s', hflush, -⟩ := flushShadowPagetable_spec h
      rw [hflush] at herr
      cases herr
    rw [if_neg hfence] at herr
    by_cases hmret : funct7 = 24 ∧ rs2 = 2 ∧ rs1 = 0 ∧ rd = 0
    · rw [if_pos hmret] at herr
      obtain ⟨rfl, rfl, rfl, rfl⟩ := hmret
      exact guestMret_diagnosis h refused herr
    rw [if_neg hmret] at herr
    by_cases hwfi : funct7 = 8 ∧ rs2 = 5 ∧ rs1 = 0 ∧ rd = 0
    · rw [if_pos hwfi] at herr
      cases herr
    rw [if_neg hwfi] at herr
    cases herr
    refine .illegalInstruction refused ?_
    rintro ⟨-, hc | hc | hc | hc | hc⟩
    · cases hc
    · cases hc
    · exact hfence hc.2
    · cases hc
      exact hmret ⟨rfl, rfl, rfl, rfl⟩
    · cases hc
      exact hwfi ⟨rfl, rfl, rfl, rfl⟩
  · exact emulateCsrrw_diagnosis h refused rfl herr
  · exact emulateCsrrs_diagnosis h refused rfl herr
  · -- `csrrc` and the immediate forms are not emulated
    rename_i hf0 hf1 hf2
    cases herr
    refine .illegalInstruction refused ?_
    rintro ⟨-, hc | hc | hc | hc | hc⟩
    · exact hf1 hc
    · exact hf2 hc
    · exact hf0 hc.1
    · cases hc
      exact hf0 rfl
    · cases hc
      exact hf0 rfl

theorem handleIllegalInstruction_diagnosis (h : Core L t) (cause : t.hart.mcause = 2)
    (herr : handleIllegalInstruction L t = .error e) : Diagnosis L stale t e := by
  unfold handleIllegalInstruction at herr
  dsimp only at herr
  split at herr
  · rename_i hrange
    cases herr
    exact .illegalNotInRange cause hrange
  rcases bind_eq_error.mp herr with hres | ⟨host, hhost, herr⟩
  · exact ReadsInstruction.diagnosis (Or.inl cause) h hres
  · exact emulateInstruction_diagnosis h ⟨cause, host, hhost, rfl⟩ herr

/-! ### Traps as a whole -/

/-- Only access faults are reported. -/
theorem reported_eq (h5 : t.hart.mcause ≠ 5) (h7 : t.hart.mcause ≠ 7) : t.reported = t := by
  have hsilent : accessFaultMessage t.hart.mcause = [] := by
    unfold accessFaultMessage
    rw [if_neg h5, if_neg h7]
  unfold State.reported State.print
  rw [hsilent, printStringSlice_nil]

theorem handleGuestException_diagnosis (h : Core L t)
    (hsync : t.hart.mcause &&& MCAUSE_ASYNC_BIT = 0)
    (herr : handleGuestException L stale t.hart.mcause t = .error e) :
    Diagnosis L stale t.reported e := by
  have hreported : Core L t.reported := h.print _
  have hmcause : t.reported.hart.mcause = t.hart.mcause := rfl
  unfold handleGuestException at herr
  split at herr
  · rename_i cause
    rw [reported_eq (by rw [cause]; decide) (by rw [cause]; decide)]
    exact handleIllegalInstruction_diagnosis h cause herr
  rename_i hillegal
  split at herr
  · rename_i cause
    obtain ⟨rfl, huser⟩ := guestException_error herr
    rw [reported_eq (by rw [cause]; decide) (by rw [cause]; decide)]
    exact .gmException cause huser
  rename_i hecall
  split at herr
  · rename_i cause
    rw [reported_eq (by rw [cause]; decide) (by rw [cause]; decide)]
    exact handleAccessFault_diagnosis h (if_pos cause) herr
  rename_i hfetch
  -- loads and stores are handled in the state with the report
  change (if t.hart.mcause = 5 ∨ t.hart.mcause = 13 then handleAccessFault L stale .r t.reported
    else if t.hart.mcause = 7 ∨ t.hart.mcause = 15 then handleAccessFault L stale .w t.reported
    else .error .unhandledException) = .error e at herr
  by_cases hload : t.hart.mcause = 5 ∨ t.hart.mcause = 13
  · rw [if_pos hload] at herr
    refine handleAccessFault_diagnosis hreported ?_ herr
    rw [hmcause]
    exact (if_neg hfetch).trans (if_pos hload)
  rw [if_neg hload] at herr
  by_cases hstore : t.hart.mcause = 7 ∨ t.hart.mcause = 15
  · rw [if_pos hstore] at herr
    refine handleAccessFault_diagnosis hreported ?_ herr
    rw [hmcause]
    exact (if_neg hfetch).trans ((if_neg hload).trans (if_pos hstore))
  rw [if_neg hstore] at herr
  cases herr
  rw [reported_eq (fun hc => hload (Or.inl hc)) (fun hc => hstore (Or.inl hc))]
  refine .unhandledException hsync ⟨hillegal, hecall, ?_⟩
  unfold faultType
  rw [if_neg hfetch, if_neg hload, if_neg hstore]

/-- An interrupt is always handled, and a trap from the guest is not taken for one of the
    hypervisor's own. -/
theorem dispatch_diagnosis (h : Inv L t)
    (huser : t.hart.mstatus &&& MSTATUS_MPP_MASK = MSTATUS_MPP_U)
    (herr : dispatch L stale t = .error e) : Diagnosis L stale t.reported e := by
  unfold dispatch at herr
  dsimp only at herr
  split at herr
  · obtain ⟨s', hok, -⟩ := handleInterrupt_spec h.core h.settled h.target t.hart.mcause
    rw [hok] at herr
    cases herr
  rename_i hsync
  rw [if_neg (not_not_intro huser)] at herr
  exact handleGuestException_diagnosis h.core (not_not.mp hsync) herr

/-- The hart enters a trap with the privilege it comes from in `mstatus.MPP`. -/
theorem mpp_trapEntry (s : State) (mcause mtval : Word) :
    (s.trapEntry mcause mtval).hart.mstatus &&& MSTATUS_MPP_MASK = MSTATUS_MPP_U := by
  show ((s.hart.mstatus &&& ~~~MSTATUS_MPP_MASK) ||| MSTATUS_MPP_U) &&& MSTATUS_MPP_MASK = _
  rw [BitVec.and_or_distrib_right, BitVec.and_assoc,
    show ~~~MSTATUS_MPP_MASK &&& MSTATUS_MPP_MASK = 0#64 by decide, BitVec.and_zero]
  decide

end RiscvHypervisor
