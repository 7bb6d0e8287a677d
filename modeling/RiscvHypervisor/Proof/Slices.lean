import RiscvHypervisor.Lib.Tiling
import RiscvHypervisor.Proof.Invariant

namespace RiscvHypervisor

open ByteMem RadixForest Except Tiling

/-!
# Guest memory slices

The hypervisor reads guest memory through a `GuestSliceIterator`, which hands out the host memory
behind a slice of the guest's address space page by page.  `resolve_guestmem_slice` walks the table
the guest runs on as the MMU does (`resolveSliceLoop_eq_ok`).

* `iter_guestmem_visits` — an iteration visits every byte of the slice once, in order, where the
  MMU's walk has it;
* `slice_permissions_iff` — which of the permissions it asks for a chunk is sure to have.
-/

/-! ### The walk -/

/-- The part of the page of `l` that starts at `va`, of at most `len` bytes. -/
def leafChunk (l : Sv39.Leaf) (va len : Nat) : HostSlice :=
  ⟨l.translate va, min len (Sv39.pageSize l.level - va % Sv39.pageSize l.level)⟩

theorem resolveSliceLoop_leaf (slot : Nat) {st : Store} {va len fuel level pte : Nat}
    (hfits : pte < 2 ^ 54) (hv : pte.testBit Sv39.bitV = true) (hleaf : Sv39.isLeaf pte = true) :
    resolveSliceLoop st va len (fuel + 1) (12 + 9 * level - 9) (unpackPtEntry pte) =
      if pte.testBit Sv39.bitU then .ok (leafChunk ⟨level, slot, pte⟩ va len)
      else .error .nonGuestPage := by
  have hsize : 12 + 9 * level - 9 + 9 = 12 + 9 * level := by omega
  have hv' : hasAny (unpackPtEntry pte).permissions (permbit .v) = true := by
    rw [hasAny_unpack]
    exact hv
  have hleaf' : hasAny (unpackPtEntry pte).permissions permRWX = true := by
    rw [hasAny_unpack_permRWX, hleaf]
  have hu : hasAny (unpackPtEntry pte).permissions (permbit .u) = pte.testBit Sv39.bitU :=
    hasAny_unpack _ _
  rw [resolveSliceLoop, hv', hleaf', hu, hsize, unpackPtEntry_address_eq_ppn hfits]
  cases hub : pte.testBit Sv39.bitU with
  | false => rfl
  | true =>
    simp only [Bool.not_true, Bool.false_eq_true, if_false, if_true, pow_sub_one_and]
    rw [Nat.shiftLeft_eq, Nat.one_mul]
    unfold leafChunk Sv39.Leaf.translate Sv39.Leaf.base Sv39.pageSize
    rw [min_def_lt]

/-- Of a leaf the loop takes what is the guest's. -/
theorem resolveSliceLoop_leaf_eq_ok (slot : Nat) {st : Store} {va len fuel level pte : Nat}
    {host : HostSlice} (hfits : pte < 2 ^ 54) (hv : pte.testBit Sv39.bitV = true)
    (hleaf : Sv39.isLeaf pte = true) :
    resolveSliceLoop st va len (fuel + 1) (12 + 9 * level - 9) (unpackPtEntry pte) = .ok host ↔
      ∃ l, some (⟨level, slot, pte⟩ : Sv39.Leaf) = some l ∧ l.pte.testBit Sv39.bitU = true ∧
        host = leafChunk l va len := by
  rw [resolveSliceLoop_leaf slot hfits hv hleaf]
  constructor
  · intro h
    split at h
    · rename_i hu
      cases h
      exact ⟨_, rfl, hu, rfl⟩
    · cases h
  · rintro ⟨l, hl, hu, rfl⟩
    cases hl
    rw [if_pos hu]

/-- At a table the loop reads the entry that the MMU reads. -/
theorem resolveSliceLoop_table {st : Store} {va len fuel level : Nat}
    {entry : UnpackedPagetableEntry} (hv : hasAny entry.permissions (permbit .v) = true)
    (hl : hasAny entry.permissions permRWX = false) :
    resolveSliceLoop st va len (fuel + 1) (12 + 9 * level) entry =
      resolveSliceLoop st va len fuel (12 + 9 * level - 9)
        (unpackPtEntry (st.load64 (entry.address + 8 * Sv39.vpn va level))) := by
  have hco : ¬ 12 + 9 * level + 9 ≤ PGSHIFT := by
    simp only [PGSHIFT]
    omega
  rw [resolveSliceLoop, hv, hl, if_neg hco, Nat.land_comm 511, and_0x1FF,
    Nat.shiftRight_eq_div_pow]
  rfl

/-- It gives up on an invalid entry. -/
theorem resolveSliceLoop_invalid {st : Store} {va len fuel co pte : Nat}
    (hv : pte.testBit Sv39.bitV = false) :
    resolveSliceLoop st va len (fuel + 1) co (unpackPtEntry pte) = .error .unmappedPage := by
  have hv' : hasAny (unpackPtEntry pte).permissions (permbit .v) = false := by
    rw [hasAny_unpack]
    exact hv
  rw [resolveSliceLoop, hv']
  rfl

/-- **The walk of `resolve_guestmem_slice`.**  From a table of level `level` on, with entries that
    have bits 63..54 clear, it finds the user leaf that the MMU finds, and nothing otherwise. -/
theorem resolveSliceLoop_eq_ok (st : Store) (va len : Nat) (host : HostSlice) :
    ∀ (level fuel : Nat) (entry : UnpackedPagetableEntry), level + 1 < fuel →
      hasAny entry.permissions (permbit .v) = true → hasAny entry.permissions permRWX = false →
      (∀ p ∈ Sv39.visited st.load64 va level entry.address, p.2 < 2 ^ 54) →
      (resolveSliceLoop st va len fuel (12 + 9 * level) entry = .ok host ↔
        ∃ l, Sv39.walk st.load64 va level entry.address = some l ∧
          l.pte.testBit Sv39.bitU = true ∧ host = leafChunk l va len) := by
  -- The induction is on the level, with two turns of the loop for each: the table, then its entry.
  intro level
  induction level with
  | zero =>
    intro fuel entry hfuel hv hl hfits
    obtain ⟨fuel, rfl⟩ : ∃ n, fuel = n + 2 := ⟨fuel - 2, by omega⟩
    rw [resolveSliceLoop_table hv hl, Sv39.walk]
    rw [Sv39.visited] at hfits
    generalize st.load64 (entry.address + 8 * Sv39.vpn va 0) = pte at hfits ⊢
    have hfit : pte < 2 ^ 54 := hfits _ List.mem_cons_self
    by_cases hpv : pte.testBit Sv39.bitV = true
    swap
    · rw [resolveSliceLoop_invalid (eq_false_of_ne_true hpv)]
      simp [hpv]
    by_cases hpl : Sv39.isLeaf pte = true
    · rw [resolveSliceLoop_leaf_eq_ok (entry.address + 8 * Sv39.vpn va 0) hfit hpv hpl]
      simp only [hpv, hpl, Bool.and_self, if_true]
    · -- a pointer in a table of level 0
      have hpv' : hasAny (unpackPtEntry pte).permissions (permbit .v) = true := by
        rw [hasAny_unpack]
        exact hpv
      have hpl' : hasAny (unpackPtEntry pte).permissions permRWX = false := by
        rw [hasAny_unpack_permRWX]
        exact eq_false_of_ne_true hpl
      rw [resolveSliceLoop, hpv', hpl', if_pos (show 12 + 9 * 0 - 9 + 9 ≤ PGSHIFT by decide)]
      simp [hpl]
  | succ level ih =>
    intro fuel entry hfuel hv hl hfits
    obtain ⟨fuel, rfl⟩ : ∃ n, fuel = n + 2 := ⟨fuel - 2, by omega⟩
    rw [resolveSliceLoop_table hv hl, Sv39.walk]
    rw [Sv39.visited] at hfits
    generalize st.load64 (entry.address + 8 * Sv39.vpn va (level + 1)) = pte at hfits ⊢
    have hfit : pte < 2 ^ 54 := hfits _ List.mem_cons_self
    by_cases hpv : pte.testBit Sv39.bitV = true
    swap
    · rw [resolveSliceLoop_invalid (eq_false_of_ne_true hpv)]
      simp [hpv]
    by_cases hpl : Sv39.isLeaf pte = true
    · rw [resolveSliceLoop_leaf_eq_ok (entry.address + 8 * Sv39.vpn va (level + 1)) hfit hpv
        hpl]
      simp only [hpv, hpl, Bool.not_true, Bool.false_eq_true, if_false, if_true]
    · have hpv' : hasAny (unpackPtEntry pte).permissions (permbit .v) = true := by
        rw [hasAny_unpack]
        exact hpv
      have hpl' : hasAny (unpackPtEntry pte).permissions permRWX = false := by
        rw [hasAny_unpack_permRWX]
        exact eq_false_of_ne_true hpl
      have haddr := unpackPtEntry_address_eq_ppn hfit
      rw [show 12 + 9 * (level + 1) - 9 = 12 + 9 * level by omega,
        ih (fuel + 1) (unpackPtEntry pte) (by omega) hpv' hpl' (fun p hp => hfits p
          (List.mem_cons_of_mem _ (by rw [haddr] at hp; simp [hpv, hpl, hp]))), haddr]
      simp only [hpv, hpl, Bool.not_true, Bool.false_eq_true, if_false]

/-! ### The tables of the hypervisor -/

section

variable {L : Layout} {root : Nat} {st : Store} {own : Owner Tree} {free : List Nat}

/-- The entries of the hypervisor's tables have bits 63..54 clear. -/
theorem VmInv.entry_fits (h : VmInv L root st own free ∅) {t i hh k : Nat} {x : Tree}
    (ht : own t = some ⟨x, hh, k⟩) (hi : i < 512) : st.entry t i < 2 ^ 54 := by
  cases hh with
  | zero =>
    rcases h.forest.leaf ht hi with hz | hleaf
    · rw [ptFormat_zero] at hz
      rw [hz]
      decide
    · cases x with
      | machine =>
        have hleaf : MachineLeaf (k * 512 + i) (st.entry t i) := hleaf
        have hkey : k < 512 ^ 1 := h.forest.key_lt ht
        have hpage := hleaf.page
        simp only [GUEST_MEMORY_OFFSET] at hpage
        omega
      | shadow =>
        have hleaf : ShadowLeaf (st.entry t i) := hleaf
        exact hleaf.fits
  | succ hh =>
    rcases h.forest.inner ht hi with hz | ⟨c, hchild, -⟩
    · rw [ptFormat_zero] at hz
      rw [hz]
      decide
    · exact (ptChild_eq_some hchild).2.2.1

/-- So have all entries that a walk of them comes to. -/
theorem VmInv.visited_fits (h : VmInv L root st own free ∅) (va : Nat) :
    ∀ (level : Nat) {t hh k : Nat} {x : Tree}, own t = some ⟨x, hh, k⟩ →
      ∀ p ∈ Sv39.visited st.load64 va level t, p.2 < 2 ^ 54 := by
  intro level
  induction level with
  | zero =>
    intro t hh k x ht p hp
    rw [Sv39.visited, List.mem_singleton] at hp
    rw [hp]
    exact h.entry_fits ht (Sv39.vpn_lt va 0)
  | succ level ih =>
    intro t hh k x ht p hp
    have hvpn := Sv39.vpn_lt va (level + 1)
    rw [Sv39.visited] at hp
    rcases List.mem_cons.mp hp with rfl | hp
    · exact h.entry_fits ht hvpn
    split at hp
    · cases hp
    rename_i hgo
    rw [Bool.or_eq_true, not_or, Bool.not_eq_true', Bool.not_eq_false, Bool.not_eq_true] at hgo
    -- a valid entry that is no leaf is the pointer of an inner table
    have hchild : entryChild (st.entry t (Sv39.vpn va (level + 1))) =
        some (Sv39.ppn (st.entry t (Sv39.vpn va (level + 1))) * 4096) := by
      rw [entryChild_eq, ← unpackPtEntry_address_eq_ppn (h.entry_fits ht hvpn)]
      change (st.entry t (Sv39.vpn va (level + 1))).testBit 0 = true ∧
        Sv39.isLeaf (st.entry t (Sv39.vpn va (level + 1))) = false at hgo
      rw [hgo.1, hgo.2]
      rfl
    obtain ⟨hh', -, hc, -⟩ := h.entryChild_cases ht hvpn hchild
    exact ih hc p hp

end

/-! ### One chunk -/

variable {L : Layout} {s : State} {slice : GuestSlice} {it : GuestSliceIterator}

/-- The address of byte `k` of a slice. -/
def GuestSlice.byteAddr (slice : GuestSlice) (k : Nat) : Nat :=
  (slice.virtualPtr + BitVec.ofNat 64 k).toNat

/-- The table that translates the slice is there, and the walk of its byte `k` meets no entry with
    one of the bits 63..54. -/
def FitsAt (L : Layout) (s : State) (slice : GuestSlice) (k : Nat) : Prop :=
  activePt L s slice.thid ≠ 0 ∧
    ∀ p ∈ Sv39.visited s.store.load64 (slice.byteAddr k) 2 (activePt L s slice.thid), p.2 < 2 ^ 54

/-- The tables of the current guest are such. -/
theorem Core.fitsAt (h : Core L s) (hthid : slice.thid = s.host.currentGuest) (k : Nat) :
    FitsAt L s slice k := by
  obtain ⟨own, free, hvm⟩ := h.mem.vm
  have hroot : activePt L s slice.thid = activeRoot L s.guest := by
    rw [hthid, h.activePt_eq]
  have hown := hvm.activeRoot_own h
  obtain ⟨⟨x, hh, key⟩, hsl⟩ := Option.ne_none_iff_exists'.mp hown
  refine ⟨?_, ?_⟩
  · rw [hroot]
    exact hvm.table_ne_zero hown
  · rw [hroot]
    exact hvm.visited_fits _ 2 hsl

/-- **One chunk.**  Before the end of the slice, resolving gives the rest of the page, or of the
    slice, if and only if the MMU finds a user leaf. -/
theorem resolveGuestmemSlice_eq_ok {it' : GuestSliceIterator}
    (hoff : it.offset.toNat < it.guest.byteLength.toNat)
    (hfits : FitsAt L s it.guest it.offset.toNat) :
    resolveGuestmemSlice L s it = .ok it' ↔
      ∃ l, Sv39.walk s.store.load64 (it.guest.byteAddr it.offset.toNat) 2
          (activePt L s it.guest.thid) = some l ∧ l.pte.testBit Sv39.bitU = true ∧
        it' = { it with
          success := true
          host := leafChunk l (it.guest.byteAddr it.offset.toNat)
            (it.guest.byteLength.toNat - it.offset.toNat) } := by
  have hva : (it.guest.virtualPtr + it.offset).toNat = it.guest.byteAddr it.offset.toNat := by
    unfold GuestSlice.byteAddr
    rw [BitVec.ofNat_toNat, BitVec.setWidth_eq]
  have hrem : (it.guest.byteLength - it.offset).toNat =
      it.guest.byteLength.toNat - it.offset.toNat :=
    BitVec.toNat_sub_of_le (BitVec.le_def.mpr (Nat.le_of_lt hoff))
  have hne : it.guest.byteLength - it.offset ≠ 0 := by
    intro h0
    rw [h0] at hrem
    simp at hrem
    omega
  have hrange : ¬ it.guest.byteLength < it.guest.byteLength - it.offset := by
    rw [BitVec.lt_def, hrem]
    omega
  -- the permissions asked for are not among the arguments of the loop
  have hloop := fun host => resolveSliceLoop_eq_ok s.store
    (it.guest.byteAddr it.offset.toNat) (it.guest.byteLength.toNat - it.offset.toNat) host 2 4
    ⟨activePt L s it.guest.thid, permbit .v⟩ (by decide)
    (show hasAny (permbit .v) (permbit .v) = true by decide)
    (show hasAny (permbit .v) permRWX = false by decide) hfits.2
  unfold resolveGuestmemSlice
  dsimp only
  rw [if_neg hfits.1, if_neg hne, if_neg hrange, bind_eq_ok, hva, hrem]
  constructor
  · rintro ⟨host, hhost, hret⟩
    cases hret
    obtain ⟨l, hl, hu, rfl⟩ := (hloop host).mp hhost
    exact ⟨l, hl, hu, rfl⟩
  · rintro ⟨l, hl, hu, rfl⟩
    exact ⟨_, (hloop _).mpr ⟨l, hl, hu, rfl⟩, rfl⟩

/-- At the end of the slice there is nothing to resolve. -/
theorem resolveGuestmemSlice_end (hoff : it.offset = it.guest.byteLength)
    (hroot : activePt L s it.guest.thid ≠ 0) :
    resolveGuestmemSlice L s it = .ok { it with success := true, host := ⟨0, 0⟩ } := by
  unfold resolveGuestmemSlice
  dsimp only
  rw [if_neg hroot, hoff, BitVec.sub_self]
  exact if_pos rfl

/-- A chunk of a page has bytes, and byte `k` of it is where the MMU has it. -/
theorem leafChunk_spec {rd : Nat → Nat} {root : Nat} (va : Word) (len : Nat) {l : Sv39.Leaf}
    (hl : Sv39.walk rd va.toNat 2 root = some l) (hlen : 0 < len) :
    0 < (leafChunk l va.toNat len).byteLength ∧ (leafChunk l va.toNat len).byteLength ≤ len ∧
      ∀ k, k < (leafChunk l va.toNat len).byteLength →
        Sv39.walk rd (va + BitVec.ofNat 64 k).toNat 2 root = some l ∧
        (leafChunk l va.toNat len).address + k =
          l.translate (va + BitVec.ofNat 64 k).toNat := by
  have hsize : va.toNat % Sv39.pageSize l.level < Sv39.pageSize l.level :=
    Nat.mod_lt _ (Nat.two_pow_pos _)
  have hlevel : l.level ≤ 2 := Sv39.walk_level_le hl
  refine ⟨?_, Nat.min_le_left _ _, ?_⟩
  · show 0 < min len _
    omega
  · intro k hk
    have hin : va.toNat % Sv39.pageSize l.level + k < Sv39.pageSize l.level := by
      have hk' : k < Sv39.pageSize l.level - va.toNat % Sv39.pageSize l.level :=
        lt_of_lt_of_le hk (Nat.min_le_right _ _)
      omega
    -- a page does not reach over the end of the address space
    have hsum : (va + BitVec.ofNat 64 k).toNat = va.toNat + k := by
      have hva : va.toNat < 2 ^ 64 := va.isLt
      have hlt : va.toNat + k < 2 ^ 64 := by
        obtain h | h | h : l.level = 0 ∨ l.level = 1 ∨ l.level = 2 := by omega
        all_goals
          rw [h, Sv39.pageSize] at hin
          omega
      rw [BitVec.toNat_add, BitVec.toNat_ofNat, Nat.add_mod_mod, Nat.mod_eq_of_lt hlt]
    rw [hsum]
    exact ⟨Sv39.walk_add hl hin, (Sv39.Leaf.translate_add hin).symm⟩

/-! ### The iteration -/

/-- What a turn of the loop over a slice sees: where it is in the slice, and the host memory. -/
structure Chunk where
  offset : Nat
  host : HostSlice
deriving DecidableEq, Repr

def Chunk.length (c : Chunk) : Nat := c.host.byteLength

/-- The loop `for (; !ended_iter_guestmem(&it); advance_iter_guestmem(&it))`, with the chunks it
    sees. -/
def iterGuestmem (L : Layout) (s : State) :
    (fuel : Nat) → GuestSliceIterator → Except Panic (List Chunk)
  | 0, _         => .error .recursionBound
  | fuel + 1, it =>
    if endedIterGuestmem it then .ok []
    else do
      let next ← advanceIterGuestmem L s it
      let rest ← iterGuestmem L s fuel next
      return ⟨it.offset.toNat, it.host⟩ :: rest

/-- The whole loop, from `begin_iter_guestmem` on. -/
def iterSlice (L : Layout) (s : State) (fuel : Nat) (slice : GuestSlice) (mask : Nat) :
    Except Panic (List Chunk) := do
  let it ← beginIterGuestmem L s slice mask
  iterGuestmem L s fuel it

/-- Byte `k` of the slice has a user leaf. -/
def MappedAt (L : Layout) (s : State) (slice : GuestSlice) (k : Nat) : Prop :=
  ∃ l, Sv39.walk s.store.load64 (slice.byteAddr k) 2 (activePt L s slice.thid) = some l ∧
    l.pte.testBit Sv39.bitU = true

/-- The bytes of a chunk are where the MMU has them. -/
def Chunk.Translated (L : Layout) (s : State) (slice : GuestSlice) (c : Chunk) : Prop :=
  ∀ k, k < c.length → ∃ l,
    Sv39.walk s.store.load64 (slice.byteAddr (c.offset + k)) 2 (activePt L s slice.thid) = some l ∧
      c.host.address + k = l.translate (slice.byteAddr (c.offset + k))

theorem byteAddr_add (slice : GuestSlice) (o k : Nat) :
    slice.byteAddr (o + k) = (slice.virtualPtr + BitVec.ofNat 64 o + BitVec.ofNat 64 k).toNat := by
  unfold GuestSlice.byteAddr
  rw [BitVec.ofNat_add, BitVec.add_assoc]

/-- Where byte by byte there is a user leaf, the chunk at an offset has bytes of the slice, and they
    are where the MMU has them. -/
theorem resolved_chunk (hlt : it.offset.toNat < it.guest.byteLength.toNat)
    (hfits : FitsAt L s it.guest it.offset.toNat)
    (hmapped : MappedAt L s it.guest it.offset.toNat) :
    ∃ host, resolveGuestmemSlice L s it = .ok { it with success := true, host := host } ∧
      0 < host.byteLength ∧ host.byteLength ≤ it.guest.byteLength.toNat - it.offset.toNat ∧
      (⟨it.offset.toNat, host⟩ : Chunk).Translated L s it.guest := by
  obtain ⟨l, hl, hu⟩ := hmapped
  obtain ⟨hpos, hle, hbytes⟩ := leafChunk_spec
    (it.guest.virtualPtr + BitVec.ofNat 64 it.offset.toNat)
    (it.guest.byteLength.toNat - it.offset.toNat) hl (by omega)
  refine ⟨_, (resolveGuestmemSlice_eq_ok hlt hfits).mpr ⟨l, hl, hu, rfl⟩, hpos, hle, ?_⟩
  intro k hk
  rw [byteAddr_add]
  exact ⟨l, hbytes k hk⟩

/-- **The rest of the iteration.**  From an iterator at offset `o` on, the loop sees chunks that
    make up the rest of the slice. -/
theorem iterGuestmem_spec (hroot : activePt L s slice.thid ≠ 0)
    (hfits : ∀ k, k < slice.byteLength.toNat → FitsAt L s slice k)
    (hmapped : ∀ k, k < slice.byteLength.toNat → MappedAt L s slice k) :
    ∀ (n : Nat) (it : GuestSliceIterator), it.guest = slice →
      it.offset.toNat + n = slice.byteLength.toNat →
      ∃ it' chunks, resolveGuestmemSlice L s it = .ok it' ∧
        (∀ fuel, n < fuel → iterGuestmem L s fuel it' = .ok chunks) ∧
        Tiles Chunk.offset Chunk.length it.offset.toNat slice.byteLength.toNat chunks ∧
        ∀ c ∈ chunks, c.Translated L s slice := by
  -- The induction is on the bytes that are left, of which every chunk takes some.
  intro n
  induction n using Nat.strong_induction_on with
  | _ n ih =>
    rintro it rfl hn
    by_cases hend : n = 0
    · have hoff : it.offset = it.guest.byteLength := BitVec.eq_of_toNat_eq (by omega)
      refine ⟨_, [], resolveGuestmemSlice_end hoff hroot, ?_, ?_, by simp⟩
      · intro fuel hfuel
        obtain ⟨fuel, rfl⟩ : ∃ m, fuel = m + 1 := ⟨fuel - 1, by omega⟩
        rfl
      · rw [hoff]
        exact .nil _
    have hlt : it.offset.toNat < it.guest.byteLength.toNat := by omega
    obtain ⟨host, hresolve, hpos, hle, hbytes⟩ := resolved_chunk hlt (hfits _ hlt) (hmapped _ hlt)
    -- the next iterator is past the chunk
    have hnext : (it.offset + BitVec.ofNat 64 host.byteLength).toNat =
        it.offset.toNat + host.byteLength := by
      have hlen : it.guest.byteLength.toNat < 2 ^ 64 := it.guest.byteLength.isLt
      rw [BitVec.toNat_add, BitVec.toNat_ofNat, Nat.add_mod_mod, Nat.mod_eq_of_lt (by omega)]
    obtain ⟨it', chunks, hadvance, hrest, htiles, htranslated⟩ := ih (n - host.byteLength)
      (by omega)
      { it with
        success := true
        host := host
        offset := it.offset + BitVec.ofNat 64 host.byteLength } rfl (by dsimp only; omega)
    dsimp only at htiles
    refine ⟨_, ⟨it.offset.toNat, host⟩ :: chunks, hresolve, ?_, ?_, ?_⟩
    · intro fuel hfuel
      obtain ⟨fuel, rfl⟩ : ∃ m, fuel = m + 1 := ⟨fuel - 1, by omega⟩
      have hnot : endedIterGuestmem { it with success := true, host := host } = false := by
        show (host.byteLength == 0) = false
        exact beq_false_of_ne (by omega)
      rw [iterGuestmem, hnot, if_neg (by decide)]
      exact bind_eq_ok.mpr ⟨it', hadvance, bind_eq_ok.mpr ⟨chunks, hrest fuel (by omega), rfl⟩⟩
    · rw [hnext] at htiles
      exact Tiles.cons (c := (⟨it.offset.toNat, host⟩ : Chunk)) hpos htiles
    · intro c hc
      rcases List.mem_cons.mp hc with rfl | hc
      · exact hbytes
      · exact htranslated c hc

/-- **Iteration.**  Let every byte of the slice have a user leaf in the table that translates it, of
    whatever size.  If that is the table of the running guest in a reachable state, or any table
    whose walks meet entries with bits 63..54 clear, the loop ends without a panic.  The chunks it
    sees are not empty, make up the slice byte by byte, and lie where the MMU's walk has them. -/
theorem iter_guestmem_visits (L : Layout) (s : State) (slice : GuestSlice) (mask : Nat)
    (htable : Reachable L s ∧ slice.thid = s.host.currentGuest ∨
      activePt L s slice.thid ≠ 0 ∧ ∀ k, k < slice.byteLength.toNat → FitsAt L s slice k)
    (hmapped : ∀ k, k < slice.byteLength.toNat → MappedAt L s slice k) :
    ∃ chunks, (∀ fuel, slice.byteLength.toNat < fuel →
        iterSlice L s fuel slice mask = .ok chunks) ∧
      Tiles Chunk.offset Chunk.length 0 slice.byteLength.toNat chunks ∧
      (∀ c ∈ chunks, 0 < c.length) ∧ (chunks.map Chunk.length).sum = slice.byteLength.toNat ∧
      (∀ k, k < slice.byteLength.toNat →
        ∃! c, c ∈ chunks ∧ c.offset ≤ k ∧ k < c.offset + c.length) ∧
      ∀ c ∈ chunks, c.Translated L s slice := by
  have hfits : activePt L s slice.thid ≠ 0 ∧
      ∀ k, k < slice.byteLength.toNat → FitsAt L s slice k := by
    rcases htable with ⟨hreach, hthid⟩ | hfits
    · have hall := hreach.inv.core.fitsAt hthid
      exact ⟨(hall 0).1, fun k _ => hall k⟩
    · exact hfits
  obtain ⟨it, chunks, hbegin, hloop, htiles, htranslated⟩ := iterGuestmem_spec hfits.1 hfits.2
    hmapped slice.byteLength.toNat ⟨slice, false, mask, 0, ⟨0, 0⟩⟩ rfl (Nat.zero_add _)
  change Tiles Chunk.offset Chunk.length 0 _ chunks at htiles
  refine ⟨chunks, fun fuel hfuel => bind_eq_ok.mpr ⟨it, hbegin, hloop fuel hfuel⟩, htiles,
    fun c hc => (htiles.mem_bounds hc).1, ?_,
    fun k hk => htiles.existsUnique_mem (Nat.zero_le k) hk, htranslated⟩
  have hsum := htiles.sum_length
  rwa [Nat.zero_add] at hsum

/-- Two bytes at the boundary of two 2 MiB pages. -/
def sampleSlice : GuestSlice := ⟨0x801FFFFF, 2, ⟨0, 0⟩⟩

/-- Whether byte `k` of the slice has a user leaf. -/
def sampleMapped (s : State) (k : Nat) : Bool :=
  ((Sv39.walk s.store.load64 (sampleSlice.byteAddr k) 2
    (activePt sampleLayout s sampleSlice.thid)).filter
      (fun l => l.pte.testBit Sv39.bitU)).isSome

/-- A guest that has executed on both pages. -/
theorem iter_guestmem_visits_two_pages :
    ∃ s chunks, Reachable sampleLayout s ∧
      iterSlice sampleLayout s 3 sampleSlice (permbit .r) = .ok chunks ∧
      (chunks.map Chunk.length).sum = 2 ∧
      ∀ c ∈ chunks, c.Translated sampleLayout s sampleSlice := by
  obtain ⟨s, hreach, hs⟩ := exists_reachable (fun _ => 0)
    [⟨fun _ => 0, 0x80000000, 12⟩, ⟨fun _ => 0, 0x80200000, 12⟩]
    (fun s => ((List.range 2).all (sampleMapped s), decide (s.host.currentGuest = ⟨0, 0⟩)))
    (true, true) (by decide) (by decide +kernel)
  obtain ⟨hall, hcurrent⟩ := Prod.mk.inj hs
  obtain ⟨chunks, hrun, -, -, hsum, -, htranslated⟩ := iter_guestmem_visits sampleLayout s
    sampleSlice (permbit .r) (Or.inl ⟨hreach, (of_decide_eq_true hcurrent).symm⟩) (fun k hk => by
      have hk := List.all_eq_true.mp hall k (List.mem_range.mpr hk)
      obtain ⟨l, hl⟩ := Option.isSome_iff_exists.mp hk
      obtain ⟨hwalk, hu⟩ := Option.filter_eq_some_iff.mp hl
      exact ⟨l, hwalk, hu⟩)
  exact ⟨s, chunks, hreach, hrun 3 (by decide), hsum, htranslated⟩

/-! ### Permissions -/

/-- The permissions that every leaf of the table in use has: the machine table's have all, the
    shadow table's grow with the faults on them. -/
def surePermissions (shadowPtActive : Bool) : Nat :=
  if shadowPtActive then permbit .v ||| permbit .r ||| permbit .u else machinePermissions

theorem and_permbit_of_testBit {p : Nat} {i : MempermIndex} (h : p.testBit i.toNat = true) :
    p &&& permbit i = permbit i := by
  apply Nat.eq_of_testBit_eq
  intro j
  unfold permbit
  rw [Nat.one_shiftLeft, Nat.testBit_and, Nat.testBit_two_pow]
  by_cases hj : i.toNat = j
  · rw [← hj, h, Bool.true_and]
  · rw [decide_eq_false hj, Bool.and_false]

/-- Every leaf has them. -/
theorem Core.leaf_permissions (h : Core L s) {va : Nat} {l : Sv39.Leaf}
    (hl : Sv39.walk s.store.load64 va 2 (activeRoot L s.guest) = some l) :
    l.pte % 1024 &&& surePermissions s.guest.shadowPtActive =
      surePermissions s.guest.shadowPtActive := by
  obtain ⟨own, free, hvm⟩ := h.mem.vm
  have hbit : ∀ i : MempermIndex, l.pte.testBit i.toNat = true →
      l.pte % 1024 &&& permbit i = permbit i := by
    intro i hi
    apply and_permbit_of_testBit
    rw [testBit_mod_1024 _ i.toNat_lt]
    exact hi
  by_cases hact : s.guest.shadowPtActive = true
  · rw [show activeRoot L s.guest = s.guest.shadowPageTable from if_pos hact] at hl
    obtain ⟨-, hmaps, -⟩ := (walk_shadow hvm (h.priv.active hact).2 va l).mp hl
    have hleaf : ShadowLeaf l.pte := hmaps.leafOk hvm
    rw [show surePermissions s.guest.shadowPtActive = _ from if_pos hact]
    simp only [Nat.and_or_distrib_left, hbit .v hleaf.v, hbit .r hleaf.r, hbit .u hleaf.u]
  · rw [show activeRoot L s.guest = L.machineRoot 0 from if_neg hact] at hl
    obtain ⟨-, hmaps, -⟩ := (walk_machine hvm va l).mp hl
    have hleaf : MachineLeaf _ l.pte := hmaps.leafOk hvm
    rw [show surePermissions s.guest.shadowPtActive = _ from if_neg hact]
    unfold machinePermissions
    simp only [Nat.and_or_distrib_left, hbit .v hleaf.v, hbit .u hleaf.u, hbit .r hleaf.r,
      hbit .w hleaf.w, hbit .x hleaf.x]

/-- A chunk that is not empty is before the end of the slice. -/
theorem offset_lt_of_resolved {it' : GuestSliceIterator}
    (h : resolveGuestmemSlice L s it = .ok it') (hne : it'.host.byteLength ≠ 0) :
    it.offset.toNat < it.guest.byteLength.toNat := by
  unfold resolveGuestmemSlice at h
  dsimp only at h
  split at h
  · cases h
  split at h
  · cases h
    exact absurd rfl hne
  split at h
  · cases h
  rename_i hzero hrange
  by_contra hge
  -- past the end the remaining length has wrapped around
  have hrem := BitVec.toNat_sub it.guest.byteLength it.offset
  have hlen : it.guest.byteLength.toNat < 2 ^ 64 := it.guest.byteLength.isLt
  have hoff : it.offset.toNat < 2 ^ 64 := it.offset.isLt
  rw [BitVec.lt_def] at hrange
  refine hzero (BitVec.eq_of_toNat_eq ?_)
  show (it.guest.byteLength - it.offset).toNat = 0
  omega

/-- The leaf of every byte of the chunk has all permissions that the iterator requires. -/
def Permitted (L : Layout) (s : State) (it it' : GuestSliceIterator) : Prop :=
  ∀ k, k < it'.host.byteLength → ∃ l,
    Sv39.walk s.store.load64 (it.guest.byteAddr (it.offset.toNat + k)) 2
      (activePt L s it.guest.thid) = some l ∧
    it'.host.address + k = l.translate (it.guest.byteAddr (it.offset.toNat + k)) ∧
    l.pte % 1024 &&& it.requiredPerm = it.requiredPerm

/-- Whatever a slice resolves to, its bytes have a leaf. -/
theorem resolved_leaf {it' : GuestSliceIterator} (h : resolveGuestmemSlice L s it = .ok it')
    (hne : it'.host.byteLength ≠ 0) (hfits : FitsAt L s it.guest it.offset.toNat) :
    ∀ k, k < it'.host.byteLength → ∃ l,
      Sv39.walk s.store.load64 (it.guest.byteAddr (it.offset.toNat + k)) 2
        (activePt L s it.guest.thid) = some l ∧
      it'.host.address + k = l.translate (it.guest.byteAddr (it.offset.toNat + k)) := by
  have hlt := offset_lt_of_resolved h hne
  obtain ⟨l, hl, hu, -⟩ := (resolveGuestmemSlice_eq_ok hlt hfits).mp h
  obtain ⟨host, hresolve, -, -, hbytes⟩ := resolved_chunk hlt hfits ⟨l, hl, hu⟩
  rw [h] at hresolve
  cases hresolve
  exact hbytes

/-- The traps of a user program that loads from a page of its own. -/
def sampleLoad : List SampleTrap :=
  sampleEnterUser (8 <<< 60 + 0x80010) ++ [⟨fun _ => 0, 0x80000008, 12⟩,
    ⟨Function.update (fun _ => 0) 4 0x80002000, 0x80000008, 13⟩]

/-- The page of that load: `V`, `R` and `U` are all it has. -/
theorem exists_loaded_page :
    ∃ s l, Reachable sampleLayout s ∧ s.guest.shadowPtActive = true ∧
      s.host.currentGuest = ⟨0, 0⟩ ∧
      Sv39.walk s.store.load64 0x80002000 2 (activePt sampleLayout s ⟨0, 0⟩) = some l ∧
      l.pte % 1024 = surePermissions true := by
  obtain ⟨s, hreach, hs⟩ := exists_reachable
    (store (sampleKernel (store (fun _ => 0) 0x85010010 8 0x2000001F)) 0x85000008 4 0x0002A303)
    sampleLoad
    (fun s => (s.guest.shadowPtActive, decide (s.host.currentGuest = ⟨0, 0⟩),
      (Sv39.walk s.store.load64 0x80002000 2 (activePt sampleLayout s ⟨0, 0⟩)).map
        (fun l => l.pte % 1024)))
    (true, true, some (surePermissions true)) (by decide) (by decide +kernel)
  obtain ⟨hact, hview⟩ := Prod.mk.inj hs
  obtain ⟨hcurrent, hwalk⟩ := Prod.mk.inj hview
  obtain ⟨l, hl, hperm⟩ := Option.map_eq_some_iff.mp hwalk
  exact ⟨s, l, hreach, hact, of_decide_eq_true hcurrent, hl, hperm⟩

/-- The region that the first fetch of a guest maps: it has the permissions of the machine table
    and no other. -/
theorem exists_fetched_region :
    ∃ s l, Reachable sampleLayout s ∧ s.guest.shadowPtActive = false ∧
      s.host.currentGuest = ⟨0, 0⟩ ∧
      Sv39.walk s.store.load64 0x80002000 2 (activePt sampleLayout s ⟨0, 0⟩) = some l ∧
      l.pte % 1024 = surePermissions false := by
  obtain ⟨s, hreach, hs⟩ := exists_reachable (fun _ => 0) [⟨fun _ => 0, 0x80000000, 12⟩]
    (fun s => (s.guest.shadowPtActive, decide (s.host.currentGuest = ⟨0, 0⟩),
      (Sv39.walk s.store.load64 0x80002000 2 (activePt sampleLayout s ⟨0, 0⟩)).map
        (fun l => l.pte % 1024)))
    (false, true, some (surePermissions false)) (by decide) (by decide +kernel)
  obtain ⟨hact, hview⟩ := Prod.mk.inj hs
  obtain ⟨hcurrent, hwalk⟩ := Prod.mk.inj hview
  obtain ⟨l, hl, hperm⟩ := Option.map_eq_some_iff.mp hwalk
  exact ⟨s, l, hreach, hact, of_decide_eq_true hcurrent, hl, hperm⟩

/-- The iterator over the byte at `va`, for the permissions `mask`. -/
def oneByte (va : Word) (mask : Nat) : GuestSliceIterator :=
  ⟨⟨va, 1, ⟨0, 0⟩⟩, false, mask, 0, ⟨0, 0⟩⟩

/-- A byte with a leaf is resolved, whatever is required. -/
theorem oneByte_resolved (va : Word) (hreach : Reachable L s)
    (hcurrent : s.host.currentGuest = ⟨0, 0⟩) {l : Sv39.Leaf} {active : Bool}
    (hl : Sv39.walk s.store.load64 va.toNat 2 (activePt L s ⟨0, 0⟩) = some l)
    (hperm : l.pte % 1024 = surePermissions active) (mask : Nat) :
    ∃ it', resolveGuestmemSlice L s (oneByte va mask) = .ok it' ∧ it'.success = true ∧
      it'.host.byteLength ≠ 0 ∧
      (Permitted L s (oneByte va mask) it' → surePermissions active &&& mask = mask) := by
  have haddr : (⟨va, 1, ⟨0, 0⟩⟩ : GuestSlice).byteAddr 0 = va.toNat :=
    congrArg BitVec.toNat (BitVec.add_zero va)
  have hu : l.pte.testBit Sv39.bitU = true := by
    rw [← testBit_mod_1024 _ (by decide), hperm]
    cases active <;> decide
  have hfits : FitsAt L s (oneByte va mask).guest 0 := hreach.inv.core.fitsAt hcurrent.symm 0
  have hlt : (oneByte va mask).offset.toNat < (oneByte va mask).guest.byteLength.toNat := by
    show (0 : Word).toNat < (1 : Word).toNat
    decide
  obtain ⟨host, hresolve, hpos, -, -⟩ := resolved_chunk hlt hfits
    ⟨l, by rw [← hl, ← haddr]; rfl, hu⟩
  refine ⟨_, hresolve, rfl, Nat.ne_of_gt hpos, fun hpermitted => ?_⟩
  obtain ⟨l', hl', -, hmask⟩ := hpermitted 0 hpos
  have hsame : some l' = some l := by
    rw [← hl, ← hl', ← haddr]
    rfl
  cases hsame
  rw [← hperm]
  exact hmask

/-- **Required permissions.**  `required_perm` is never looked at.  A chunk that is resolved in a
    reachable state is sure to have the permissions required, whatever slice and offset, exactly if
    only those are required that all leaves of the table in use have. -/
theorem slice_permissions_iff (active : Bool) (mask : Nat) :
    (∀ (L : Layout) (s : State) (it it' : GuestSliceIterator), Reachable L s →
      s.guest.shadowPtActive = active → it.guest.thid = s.host.currentGuest →
      it.requiredPerm = mask → resolveGuestmemSlice L s it = .ok it' → it'.success = true →
      it'.host.byteLength ≠ 0 → Permitted L s it it') ↔
    surePermissions active &&& mask = mask := by
  constructor
  · intro hall
    obtain ⟨s, l, hreach, hact, hcurrent, hl, hperm⟩ : ∃ s l, Reachable sampleLayout s ∧
        s.guest.shadowPtActive = active ∧ s.host.currentGuest = ⟨0, 0⟩ ∧
        Sv39.walk s.store.load64 0x80002000 2 (activePt sampleLayout s ⟨0, 0⟩) = some l ∧
        l.pte % 1024 = surePermissions active := by
      cases active with
      | true  => exact exists_loaded_page
      | false => exact exists_fetched_region
    obtain ⟨it', hresolve, hsuccess, hne, hmask⟩ :=
      oneByte_resolved 0x80002000 hreach hcurrent hl hperm mask
    exact hmask (hall _ s _ it' hreach hact hcurrent.symm rfl hresolve hsuccess hne)
  · rintro hmask L s it it' hreach rfl hthid rfl hresolve - hne k hk
    have hcore := hreach.inv.core
    obtain ⟨l, hl, haddr⟩ := resolved_leaf hresolve hne (hcore.fitsAt hthid _) k hk
    refine ⟨l, hl, haddr, ?_⟩
    rw [hthid, hcore.activePt_eq] at hl
    calc l.pte % 1024 &&& it.requiredPerm
        = l.pte % 1024 &&& (surePermissions s.guest.shadowPtActive &&& it.requiredPerm) := by
          rw [hmask]
      _ = surePermissions s.guest.shadowPtActive &&& it.requiredPerm := by
          rw [← Nat.and_assoc, hcore.leaf_permissions hl]
      _ = it.requiredPerm := hmask

/-- A page that user mode has only loaded from is resolved for an iterator that requires `X`. -/
theorem slice_without_permission :
    ∃ s it', Reachable sampleLayout s ∧
      beginIterGuestmem sampleLayout s ⟨0x80002000, 1, ⟨0, 0⟩⟩ (permbit .x) = .ok it' ∧
      it'.success = true ∧ it'.host.byteLength ≠ 0 ∧
      ¬ Permitted sampleLayout s (oneByte 0x80002000 (permbit .x)) it' := by
  obtain ⟨s, l, hreach, -, hcurrent, hl, hperm⟩ := exists_loaded_page
  obtain ⟨it', hresolve, hsuccess, hne, hmask⟩ :=
    oneByte_resolved 0x80002000 hreach hcurrent hl hperm (permbit .x)
  exact ⟨s, it', hreach, hresolve, hsuccess, hne, fun hc => absurd (hmask hc) (by decide)⟩

end RiscvHypervisor
