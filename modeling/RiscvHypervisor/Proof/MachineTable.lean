import RiscvHypervisor.Proof.Invariant
import RiscvHypervisor.Proof.Walk

namespace RiscvHypervisor

open RadixForest Except

/-!
# The machine table as an offset

What the MMU makes of the table that `ensure_guest_machine_mapped` builds, region by region.

* `machineEntry` — the entry that translates an address, read by the MMU's walk;
* `ensureGuestMachineMapped_hit` — the fast path: a region that is there already;
* `machine_mapping_offset` — one call and any sequence of calls.
-/

variable {L : Layout} {root : Nat} {st st' : Store} {own own' : Owner Tree} {free : List Nat}

/-! ### The entry of an address -/

/-- The level and the value of the entry that translates `va` in the machine table. -/
def machineEntry (L : Layout) (st : Store) (va : Nat) : Option (Nat × Nat) :=
  (Sv39.walk st.load64 va 2 (L.machineRoot 0)).map (fun l => (l.level, l.pte))

/-- The 2 MiB regions of which some address is translated. -/
def translatedRegions (L : Layout) (st : Store) : Set Nat :=
  {region | ∃ va, va < 2 ^ 39 ∧ va / 2 ^ 21 = region ∧ machineEntry L st va ≠ none}

theorem machineEntry_eq_some (h : VmInv L root st own free ∅) (va level pte : Nat) :
    machineEntry L st va = some (level, pte) ↔
      level = 1 ∧ Maps st own .machine (regionOf va) pte := by
  unfold machineEntry
  rw [Option.map_eq_some_iff]
  constructor
  · rintro ⟨l, hl, heq⟩
    cases heq
    obtain ⟨hlevel, hmaps, -⟩ := (walk_machine h va l).mp hl
    exact ⟨hlevel, hmaps⟩
  · rintro ⟨rfl, hmaps⟩
    obtain ⟨t, ht, -, -⟩ := id hmaps
    exact ⟨⟨1, t + 8 * (regionOf va % 512), pte⟩,
      (walk_machine h va _).mpr ⟨rfl, hmaps, t, ht, rfl⟩, rfl⟩

theorem Maps.region_lt (h : VmInv L root st own free ∅) {region pte : Nat}
    (hm : Maps st own .machine region pte) : region < 2 ^ 18 := by
  obtain ⟨t, ht, -, -⟩ := hm
  have hkey : region / 512 < 512 ^ 1 := h.forest.key_lt ht
  omega

/-- A region is translated if the tree holds an entry for it. -/
theorem mem_translatedRegions (h : VmInv L root st own free ∅) (region : Nat) :
    region ∈ translatedRegions L st ↔ ∃ pte, Maps st own .machine region pte := by
  constructor
  · rintro ⟨va, hva, rfl, hentry⟩
    obtain ⟨⟨level, pte⟩, hsome⟩ := Option.ne_none_iff_exists'.mp hentry
    obtain ⟨-, hmaps⟩ := (machineEntry_eq_some h va level pte).mp hsome
    rw [regionOf_of_lt hva] at hmaps
    exact ⟨pte, hmaps⟩
  · rintro ⟨pte, hmaps⟩
    have hlt := hmaps.region_lt h
    refine ⟨region * 2 ^ 21, by omega, by omega, ?_⟩
    rw [(machineEntry_eq_some h (region * 2 ^ 21) 1 pte).mpr ⟨rfl, ?_⟩]
    · exact Option.some_ne_none _
    · rw [regionOf_of_lt (by omega), Nat.mul_div_cancel _ (by decide)]
      exact hmaps

/-! ### One call -/

/-- **The fast path.**  For a region that is in the table, the call changes nothing. -/
theorem ensureGuestMachineMapped_hit (h : VmInv L root st own free ∅) {gm e : Nat}
    (hlo : RAM_START ≤ gm) (hhi : gm < 2 ^ 39) (hm : Maps st own .machine (gm / 2 ^ 21) e) :
    ensureGuestMachineMapped L 0 gm st =
      .ok (.notChanged, some (gm + GUEST_MEMORY_OFFSET), st) := by
  have hleaf : MachineLeaf (gm / 2 ^ 21) e := hm.leafOk h
  obtain ⟨t, ht, hentry, -⟩ := hm
  have hlvl3 : gm >>> 30 = gm / 2 ^ 21 / 512 := by
    rw [Nat.shiftRight_eq_div_pow]
    omega
  have hlvl2 : (gm >>> 21) &&& 0x1FF = gm / 2 ^ 21 % 512 := by
    rw [and_0x1FF, Nat.shiftRight_eq_div_pow]
  -- the table of the region hangs below the root
  have hown : own t = some ⟨.machine, 0, 0 * 512 + gm >>> 30⟩ := by
    rw [ht, hlvl3, Nat.zero_mul, Nat.zero_add]
  unfold ensureGuestMachineMapped
  rw [if_neg (Nat.not_lt.mpr hlo)]
  dsimp only
  rw [if_neg (by omega)]
  refine bind_eq_ok.mpr ⟨(t, st), childTable_hit h h.machine (by omega) hown _ _, ?_⟩
  dsimp only
  rw [hlvl2, hentry, hasAny_unpack, MempermIndex.toNat, hleaf.v, if_pos rfl,
    hleaf.address (by omega), regionByte_eq]
  rfl

/-- What a machine leaf translates an address of its region to. -/
theorem MachineLeaf.translate {region pte va : Nat} (h : MachineLeaf region pte)
    (hregion : region < 2 ^ 18) (hva : va / 2 ^ 21 = region) (slot : Nat) :
    (⟨1, slot, pte⟩ : Sv39.Leaf).translate va = va + GUEST_MEMORY_OFFSET := by
  have hpage := h.page
  unfold Sv39.Leaf.translate Sv39.Leaf.base Sv39.ppn Sv39.pageSize
  dsimp only
  simp only [GUEST_MEMORY_OFFSET] at hpage ⊢
  omega

/-- The MMU moves the whole 2 MiB region of `gm` by `GUEST_MEMORY_OFFSET`, with all permissions. -/
def MovesRegion (L : Layout) (st : Store) (gm : Nat) : Prop :=
  ∀ va, va / 2 ^ 21 = gm / 2 ^ 21 → ∃ l, Sv39.walk st.load64 va 2 (L.machineRoot 0) = some l ∧
    l.translate va = va + GUEST_MEMORY_OFFSET ∧
    l.pte.testBit Sv39.bitV = true ∧ l.pte.testBit Sv39.bitU = true ∧
    l.pte.testBit Sv39.bitR = true ∧ l.pte.testBit Sv39.bitW = true ∧
    l.pte.testBit Sv39.bitX = true

theorem Maps.movesRegion (h : VmInv L root st own free ∅) {gm e : Nat} (hhi : gm < 2 ^ 39)
    (hm : Maps st own .machine (gm / 2 ^ 21) e) : MovesRegion L st gm := by
  intro va hva
  have hleaf : MachineLeaf (gm / 2 ^ 21) e := hm.leafOk h
  have hregion : regionOf va = gm / 2 ^ 21 := by
    rw [regionOf_of_lt (by omega), hva]
  obtain ⟨t, ht, -, -⟩ := id hm
  rw [← hregion] at hm ht
  refine ⟨⟨1, t + 8 * (regionOf va % 512), e⟩, (walk_machine h va _).mpr ⟨rfl, hm, t, ht, rfl⟩, ?_,
    hleaf.v, hleaf.u, hleaf.r, hleaf.w, hleaf.x⟩
  exact hleaf.translate (by omega) hva _

/-- Where the tree has changed at one region only, the others are translated as before. -/
theorem MapsUpdate.machineEntry_of_ne (h : VmInv L root st own free ∅) {free' : List Nat}
    (h' : VmInv L root st' own' free' ∅) {region e va : Nat}
    (hupd : MapsUpdate st own st' own' .machine region e) (hne : regionOf va ≠ region) :
    machineEntry L st' va = machineEntry L st va := by
  apply Option.ext
  rintro ⟨level, pte⟩
  rw [machineEntry_eq_some h', machineEntry_eq_some h, hupd, if_neg (fun hc => hne hc.2)]

/-- With a page left, the call returns. -/
theorem ensureGuestMachineMapped_ok (h : VmInv L root st own free ∅) {gm : Nat}
    (hlo : RAM_START ≤ gm) (hhi : gm < 2 ^ 39) (hpage : (allocatePage L st).1 ≠ 0) :
    ∃ res hm st', ensureGuestMachineMapped L 0 gm st = .ok (res, hm, st') := by
  have hspec := ensureGuestMachineMapped_spec h hlo hhi
  cases hcall : ensureGuestMachineMapped L 0 gm st with
  | ok r => exact ⟨r.1, r.2.1, r.2.2, rfl⟩
  | error e =>
    obtain ⟨-, hleft⟩ := hspec.error hcall
    rcases allocatePage_spec h.alloc with ⟨hnull, -⟩ | ⟨p, st₁, free₁, -, -, -, -, -, -, hcount, -⟩
    · rw [hnull] at hpage
      exact absurd rfl hpage
    · omega

/-! ### Sequences of calls -/

/-- A call that returns, for an address that the machine table can hold. -/
structure EnsureCall (L : Layout) (st : Store) (gm : Nat) (st' : Store) : Prop where
  ram : RAM_START ≤ gm
  sv39 : gm < 2 ^ 39
  returns : ∃ res hm, ensureGuestMachineMapped L 0 gm st = .ok (res, hm, st')

/-- Such calls one after the other. -/
inductive EnsureCalls (L : Layout) : Store → List Nat → Store → Prop where
  | nil {st : Store} : EnsureCalls L st [] st
  | cons {st st' st'' : Store} {gm : Nat} {gms : List Nat} (call : EnsureCall L st gm st')
      (rest : EnsureCalls L st' gms st'') : EnsureCalls L st (gm :: gms) st''

/-- The regions of the addresses a sequence was for. -/
def touchedRegions (gms : List Nat) : Set Nat := {region | ∃ gm ∈ gms, gm / 2 ^ 21 = region}

theorem EnsureCall.update (h : VmInv L root st own free ∅) {gm : Nat}
    (hcall : EnsureCall L st gm st') :
    ∃ own' free' e, VmInv L root st' own' free' ∅ ∧
      MapsUpdate st own st' own' .machine (gm / 2 ^ 21) e := by
  obtain ⟨res, hm, heq⟩ := hcall.returns
  obtain ⟨-, -, own', free', e, hbuild, hupd, -⟩ :=
    (ensureGuestMachineMapped_spec h hcall.ram hcall.sv39).ok heq
  exact ⟨own', free', e, hbuild.inv, hupd⟩

/-- One call adds the region it is for. -/
theorem MapsUpdate.translatedRegions (h : VmInv L root st own free ∅) {free' : List Nat}
    (h' : VmInv L root st' own' free' ∅) {region e : Nat}
    (hupd : MapsUpdate st own st' own' .machine region e) :
    translatedRegions L st' = insert region (translatedRegions L st) := by
  ext other
  rw [mem_translatedRegions h', Set.mem_insert_iff, mem_translatedRegions h]
  by_cases hother : other = region
  · refine ⟨fun _ => Or.inl hother, fun _ => ⟨e, ?_⟩⟩
    rw [hupd, if_pos ⟨rfl, hother⟩]
  · have hiff : ∀ pte, Maps st' own' .machine other pte ↔ Maps st own .machine other pte := by
      intro pte
      rw [hupd, if_neg (fun hc => hother hc.2)]
    simp only [hiff, hother, false_or]

/-- **Sequences.**  The invariant holds after the calls, which have added the regions they were
    for. -/
theorem EnsureCalls.spec {gms : List Nat} (hcalls : EnsureCalls L st gms st') :
    ∀ {own free}, VmInv L root st own free ∅ →
      (∃ own' free', VmInv L root st' own' free' ∅) ∧
        translatedRegions L st' = translatedRegions L st ∪ touchedRegions gms := by
  -- Each call hands its own table of places to the next, so these vary along the induction.
  induction hcalls with
  | nil =>
    intro own free h
    refine ⟨⟨own, free, h⟩, ?_⟩
    simp [touchedRegions]
  | cons call rest ih =>
    rename_i gm gms
    intro own free h
    obtain ⟨own₁, free₁, e, h₁, hupd⟩ := call.update h
    obtain ⟨hinv, hregions⟩ := ih h₁
    refine ⟨hinv, ?_⟩
    rw [hregions, hupd.translatedRegions h h₁]
    ext region
    simp only [touchedRegions, Set.mem_union, Set.mem_insert_iff, Set.mem_ofPred_eq,
      List.mem_cons, exists_eq_or_imp]
    tauto

/-- At boot, no region is translated. -/
theorem PowerOn.translatedRegions {s : State} (on : PowerOn L s) :
    translatedRegions L (bootMain L s).store = ∅ := by
  ext region
  have hfence := SameMem.fence s.store
  have hstore : (bootMain L s).store = s.store.vmemFence := rfl
  rw [hstore, mem_translatedRegions (on.vmInv.same hfence)]
  refine ⟨?_, fun hc => absurd hc (Set.notMem_empty region)⟩
  rintro ⟨pte, t, ht, -⟩
  obtain ⟨-, hsl⟩ := bootOwner_eq_some ht
  cases hsl

/-! ### The machine mapping -/

/-- **The machine mapping.**  From any reachable state, after any calls of
    `ensure_guest_machine_mapped`, the regions translated are those that were and those the calls
    were for.  A further call, with a page left, gives the address moved by the offset; the MMU then
    moves its whole region by the same, and every other address is translated as it was.  A second
    call for an address of that region finds everything in place. -/
theorem machine_mapping_offset {s : State} {gms : List Nat} (hreach : Reachable L s)
    (hcalls : EnsureCalls L s.store gms st) :
    translatedRegions L st = translatedRegions L s.store ∪ touchedRegions gms ∧
      ((∃ s₀, PowerOn L s₀ ∧ s = bootMain L s₀) → translatedRegions L st = touchedRegions gms) ∧
      ∀ gm, RAM_START ≤ gm → gm < 2 ^ 39 → (allocatePage L st).1 ≠ 0 →
        ∃ res st', ensureGuestMachineMapped L 0 gm st =
            .ok (res, some (gm + GUEST_MEMORY_OFFSET), st') ∧
          (res = .success ∨ res = .notChanged) ∧ MovesRegion L st' gm ∧
          (∀ va, va < 2 ^ 39 → va / 2 ^ 21 ≠ gm / 2 ^ 21 →
            machineEntry L st' va = machineEntry L st va) ∧
          ∀ gm', gm' / 2 ^ 21 = gm / 2 ^ 21 → ensureGuestMachineMapped L 0 gm' st' =
            .ok (.notChanged, some (gm' + GUEST_MEMORY_OFFSET), st') := by
  obtain ⟨own, free, hvm⟩ := hreach.inv.core.mem.vm
  obtain ⟨⟨own₁, free₁, hvm₁⟩, hregions⟩ := hcalls.spec hvm
  refine ⟨hregions, ?_, ?_⟩
  · rintro ⟨s₀, on, rfl⟩
    rw [hregions, on.translatedRegions, Set.empty_union]
  · intro gm hlo hhi hpage
    obtain ⟨res, hm, st', hcall⟩ := ensureGuestMachineMapped_ok hvm₁ hlo hhi hpage
    obtain ⟨hres, hhm, own', free', e, hbuild, hupd, -⟩ :=
      (ensureGuestMachineMapped_spec hvm₁ hlo hhi).ok hcall
    dsimp only at hres hhm hbuild hupd
    have hmaps : Maps st' own' .machine (gm / 2 ^ 21) e := by
      rw [hupd, if_pos ⟨rfl, rfl⟩]
    refine ⟨res, st', by rw [hcall, hhm], hres, hmaps.movesRegion hbuild.inv hhi, ?_, ?_⟩
    · intro va hva hne
      rw [← regionOf_of_lt hva] at hne
      exact hupd.machineEntry_of_ne hvm₁ hbuild.inv hne
    · intro gm' hsame
      simp only [RAM_START] at hlo
      refine ensureGuestMachineMapped_hit hbuild.inv ?_ (by omega) (by rw [hsame]; exact hmaps)
      simp only [RAM_START]
      omega

/-- The first call after boot. -/
theorem machine_mapping_offset_first :
    ∃ res st', ensureGuestMachineMapped sampleLayout 0 0x80000123
        (bootMain sampleLayout (sampleMachine (fun _ => 0))).store =
          .ok (res, some 0x85000123, st') ∧
      MovesRegion sampleLayout st' 0x80000123 := by
  obtain ⟨-, -, hcall⟩ := machine_mapping_offset
    (Reachable.boot (powerOn_sampleMachine (fun _ => 0))) EnsureCalls.nil
  obtain ⟨res, st', heq, -, hmoves, -⟩ :=
    hcall 0x80000123 (by decide) (by decide) (by decide)
  exact ⟨res, st', heq, hmoves⟩

end RiscvHypervisor
