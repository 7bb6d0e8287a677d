import RiscvHypervisor.Proof.Invariant

namespace RiscvHypervisor

open ByteMem RadixForest Except

/-!
# What the walk of the guest's table reads

The guest chooses every address in the walk of `try_resolve_gu_to_gm`.  `resolveGuVisits` is that
walk with a record of the levels it comes to: the table page, what `ensure_guest_machine_mapped`
stored for it in `next_ptr`, and the host address of the entry that was read.  Without the record it
is the walk of the model (`resolveGuVisits_result`).

* `WalkSafe` — every entry is read where the table was mapped, and a table that cannot be mapped
  ends the walk;
* `walk_safe_iff` — this is so exactly when the guest keeps its tables in its RAM.
-/

/-! ### The walk with its record -/

/-- One level of the walk. -/
structure TableVisit where
  /-- The guest-machine address of the table page. -/
  table : Nat
  /-- The host address that `ensure_guest_machine_mapped` stored for it, if it did. -/
  stored : Option Nat
  /-- The index of the entry. -/
  index : Nat
  /-- The host address that was dereferenced, if any was. -/
  read : Option Nat
deriving DecidableEq, Repr

/-- The loop of `try_resolve_gu_to_gm`, with the levels it has come to also when it panics. -/
def resolveGuVisits (L : Layout) (stale : Nat → Nat) (machine : Int) (guAddr : Nat) :
    (fuel : Nat) → (componentOffset : Nat) → UnpackedPagetableEntry → Store →
      List TableVisit × Except Panic (Option Nat × Store)
  | 0, _, _, _ => ([], .error .recursionBound)
  | fuel + 1, componentOffset, entryGuest, st =>
    if !hasAny entryGuest.permissions (permbit .v) then ([], .ok (none, st))
    else if hasAny entryGuest.permissions permRWX then
      if !hasAny entryGuest.permissions (permbit .u) then ([], .ok (none, st))
      else
        let pgsize := 1 <<< (componentOffset + 9)
        let pgoffset := guAddr &&& (pgsize - 1)
        ([], .ok (some ((entryGuest.address + pgoffset) % 2 ^ 64), st))
    else if componentOffset ≤ PGSHIFT then ([], .ok (none, st))
    else
      match ensureGuestMachineMapped L machine entryGuest.address st with
      | .error e => ([], .error e)
      | .ok (result, stored, st) =>
        let st := printStringSlice (placementMessage result) st
        let vpn := 511 &&& (guAddr >>> componentOffset)
        -- the pointer is dereferenced whether or not it was stored
        let nextPtr := stored.getD (stale componentOffset)
        let entry := unpackPtEntry (st.entry nextPtr vpn)
        let (visits, result) :=
          resolveGuVisits L stale machine guAddr fuel (componentOffset - 9) entry st
        (⟨entryGuest.address, stored, vpn, some (nextPtr + 8 * vpn)⟩ :: visits, result)

/-- `try_resolve_gu_to_gm` with its record. -/
def tryResolveVisits (L : Layout) (stale : Nat → Nat) (machine : Int) (satpPpn : BitVec 44)
    (guAddr : Nat) (st : Store) : List TableVisit × Except Panic (Option Nat × Store) :=
  resolveGuVisits L stale machine guAddr 4 (PGSHIFT + 9 + 9) (rootEntry satpPpn) st

variable {L : Layout} {root : Nat} {st : Store} {own : Owner Tree} {free : List Nat}
  {stale : Nat → Nat} {machine : Int} {gu fuel co : Nat} {entry : UnpackedPagetableEntry}

/-- Without its record it is the loop of the model. -/
theorem resolveGuVisits_result (fuel : Nat) :
    ∀ (co : Nat) (entry : UnpackedPagetableEntry) (st : Store),
      (resolveGuVisits L stale machine gu fuel co entry st).2 =
        resolveGuLoop L stale machine gu fuel co entry st := by
  induction fuel with
  | zero => exact fun _ _ _ => rfl
  | succ fuel ih =>
    intro co entry st
    unfold resolveGuVisits resolveGuLoop
    split
    · rfl
    split
    · split
      · rfl
      · rfl
    split
    · rfl
    cases ensureGuestMachineMapped L machine entry.address st with
    | error e => rfl
    | ok r => exact ih _ _ _

/-- Where the walk stops, it comes to no further table. -/
theorem resolveGuVisits_of_not_goesOn (h : ¬ GoesOn co entry) :
    (resolveGuVisits L stale 0 gu fuel co entry st).1 = [] := by
  cases fuel with
  | zero => rfl
  | succ fuel =>
    unfold resolveGuVisits
    split
    · rfl
    split
    · split
      · rfl
      · rfl
    split
    · rfl
    rename_i hv hl hco
    exact absurd ⟨by simpa using hv, by simpa using hl, Nat.lt_of_not_le hco⟩ h

/-- Where it goes on, it comes to the table the entry points to. -/
theorem resolveGuVisits_of_goesOn (h : GoesOn co entry) {res : PageFaultHandlerResult}
    {stored : Option Nat} {st' : Store}
    (hens : ensureGuestMachineMapped L 0 entry.address st = .ok (res, stored, st')) :
    (resolveGuVisits L stale 0 gu (fuel + 1) co entry st).1 =
      ⟨entry.address, stored, gu / 2 ^ co % 512,
        some (stored.getD (stale co) + 8 * (gu / 2 ^ co % 512))⟩ ::
      (resolveGuVisits L stale 0 gu fuel (co - 9) (unpackPtEntry
        ((afterMapping (res, stored, st')).entry (stored.getD (stale co)) (gu / 2 ^ co % 512)))
          (afterMapping (res, stored, st'))).1 := by
  obtain ⟨hv, hl, hco⟩ := h
  rw [resolveGuVisits, hv, hl, if_neg (Nat.not_le.mpr hco), hens, Nat.land_comm 511, and_0x1FF,
    Nat.shiftRight_eq_div_pow]
  rfl

/-- Unless the pool is exhausted. -/
theorem resolveGuVisits_of_panic (h : GoesOn co entry) {e : Panic}
    (hens : ensureGuestMachineMapped L 0 entry.address st = .error e) :
    (resolveGuVisits L stale 0 gu (fuel + 1) co entry st).1 = [] := by
  obtain ⟨hv, hl, hco⟩ := h
  rw [resolveGuVisits, hv, hl, if_neg (Nat.not_le.mpr hco), hens]
  rfl

/-! ### Where it reads -/

/-- The entry was read where the table was mapped. -/
structure TableVisit.Mapped (v : TableVisit) : Prop where
  stored : v.stored = some (v.table + GUEST_MEMORY_OFFSET)
  read : v.read = some (v.table + GUEST_MEMORY_OFFSET + 8 * v.index)

/-- **The loop.**  On tables in guest RAM every entry is read where the table was mapped.  If the
    walk returns and has come to some other table, it has read there without an address. -/
theorem resolveGuVisits_spec (stale : Nat → Nat) (gu : Nat) :
    ∀ (m fuel : Nat) (entry : UnpackedPagetableEntry) {st : Store} {own : Owner Tree}
      {free : List Nat}, m < fuel → entry.address % 4096 = 0 → VmInv L root st own free ∅ →
    ((∀ t ∈ guTables (guestRead st) gu fuel (12 + 9 * m) entry, InGuestRam t) →
      ∀ v ∈ (resolveGuVisits L stale 0 gu fuel (12 + 9 * m) entry st).1, v.Mapped) ∧
    (∀ r, resolveGuLoop L stale 0 gu fuel (12 + 9 * m) entry st = .ok r →
      ¬ (∀ t ∈ guTables (guestRead st) gu fuel (12 + 9 * m) entry, InGuestRam t) →
      ∃ v ∈ (resolveGuVisits L stale 0 gu fuel (12 + 9 * m) entry st).1,
        v.stored = none ∧ v.read ≠ none) := by
  -- The induction is on the levels left; the memory that is read does not change on the way.
  intro m
  induction m with
  | zero =>
    intro fuel entry st own free _ _ _
    have hstop : ¬ GoesOn (12 + 9 * 0) entry := fun hg => absurd hg.2.2 (by decide)
    rw [resolveGuVisits_of_not_goesOn hstop, guTables_of_not_goesOn hstop]
    exact ⟨by simp, by simp⟩
  | succ m ih =>
    intro fuel entry st own free hfuel hal h
    obtain ⟨fuel, rfl⟩ : ∃ n, fuel = n + 1 := ⟨fuel - 1, by omega⟩
    by_cases hgo : GoesOn (12 + 9 * (m + 1)) entry
    swap
    · rw [resolveGuVisits_of_not_goesOn hgo, guTables_of_not_goesOn hgo]
      exact ⟨by simp, by simp⟩
    have hco : 12 + 9 * (m + 1) - 9 = 12 + 9 * m := by omega
    have hidx : gu / 2 ^ (12 + 9 * (m + 1)) % 512 < 512 := Nat.mod_lt _ (by decide)
    rw [resolveGuLoop_of_goesOn hgo, guTables_of_goesOn hgo, hco]
    by_cases hram : InGuestRam entry.address
    · cases hens : ensureGuestMachineMapped L 0 entry.address st with
      | error e =>
        rw [resolveGuVisits_of_panic hgo hens]
        refine ⟨by simp, fun r hr => ?_⟩
        cases hr
      | ok out =>
        obtain ⟨res, stored, st₁⟩ := out
        obtain ⟨-, hstored, own₁, free₁, e₁, hb₁, -⟩ :=
          (ensureGuestMachineMapped_spec h hram.1 hram.2).ok hens
        dsimp only at hstored hb₁
        subst hstored
        rw [resolveGuVisits_of_goesOn hgo hens, hco, Option.getD_some]
        -- the message about the table leaves the memory alone
        have hs : SameMem st₁
            (afterMapping (res, some (entry.address + GUEST_MEMORY_OFFSET), st₁)) :=
          SameMem.print _ _
        replace hb₁ := hb₁.same hs
        have hloop : ∀ r, (Except.ok (res, some (entry.address + GUEST_MEMORY_OFFSET), st₁) >>=
            fun r => resolveGuLoop L stale 0 gu fuel (12 + 9 * m) (unpackPtEntry
              ((afterMapping r).entry (r.2.1.getD (stale (12 + 9 * (m + 1))))
                (gu / 2 ^ (12 + 9 * (m + 1)) % 512))) (afterMapping r)) = .ok r →
            resolveGuLoop L stale 0 gu fuel (12 + 9 * m) (unpackPtEntry
              ((afterMapping (res, some (entry.address + GUEST_MEMORY_OFFSET), st₁)).entry
                (entry.address + GUEST_MEMORY_OFFSET) (gu / 2 ^ (12 + 9 * (m + 1)) % 512)))
              (afterMapping (res, some (entry.address + GUEST_MEMORY_OFFSET), st₁)) = .ok r :=
          fun _ hr => hr
        generalize afterMapping (res, some (entry.address + GUEST_MEMORY_OFFSET), st₁) = st₂
          at hb₁ hloop ⊢
        have hread : guestRead st₂ = guestRead st := hb₁.ram.guestRead_eq
        obtain ⟨hall, hstray⟩ := ih fuel (unpackPtEntry (guestRead st
          (entry.address + 8 * (gu / 2 ^ (12 + 9 * (m + 1)) % 512)))) (by omega)
          (unpackPtEntry_aligned _) hb₁.inv
        rw [hread] at hall hstray
        rw [entry_eq_guestRead st₂ hram hal hidx, hread]
        constructor
        · intro htables v hv
          rcases List.mem_cons.mp hv with rfl | hv
          · exact ⟨rfl, rfl⟩
          · exact hall (fun t ht => htables t (List.mem_cons_of_mem _ ht)) v hv
        · intro r hr houtside
          have hreturns : resolveGuLoop L stale 0 gu fuel (12 + 9 * m) (unpackPtEntry
              (guestRead st (entry.address + 8 * (gu / 2 ^ (12 + 9 * (m + 1)) % 512)))) st₂ =
              .ok r := by
            rw [← hread, ← entry_eq_guestRead st₂ hram hal hidx]
            exact hloop r hr
          obtain ⟨v, hv, hbad⟩ := hstray r hreturns (fun hrest => houtside (fun t ht => by
            rcases List.mem_cons.mp ht with rfl | ht
            · exact hram
            · exact hrest t ht))
          exact ⟨v, List.mem_cons_of_mem _ hv, hbad⟩
    · -- the first table outside: nothing is stored for it, and it is read all the same
      obtain ⟨res, hens⟩ := ensureGuestMachineMapped_outside L st hram
      refine ⟨fun htables => absurd (htables _ List.mem_cons_self) hram, fun r _ _ => ?_⟩
      rw [resolveGuVisits_of_goesOn hgo hens]
      exact ⟨_, List.mem_cons_self, rfl, Option.some_ne_none _⟩

/-! ### The walk as a whole -/

/-- What the walk may do, given the levels it has come to and how it has ended. -/
structure WalkSafe (walk : List TableVisit × Except Panic (Option Nat × Store)) : Prop where
  /-- An entry is read only at the address that was stored for its table, which is in the guest's
      memory. -/
  reads : ∀ v ∈ walk.1, ∀ a, v.read = some a →
    v.stored = some (v.table + GUEST_MEMORY_OFFSET) ∧
      a = v.table + GUEST_MEMORY_OFFSET + 8 * v.index
  /-- For a table that cannot be mapped nothing is read, and the walk returns `false`. -/
  unmapped : ∀ v ∈ walk.1, v.stored = none → v.read = none ∧ ∃ st', walk.2 = .ok (none, st')

/-- The store with other contents in the guest's memory. -/
def Store.withRam (st : Store) (ram : Mem) : Store :=
  { st with mem := fun a => if a < GUEST_BASE then st.mem a else ram a }

theorem VmInv.withRam (h : VmInv L root st own free ∅) (ram : Mem) :
    VmInv L root (st.withRam ram) own free ∅ :=
  h.frame rfl rfl (fun _ hx => if_pos hx)

/-- **The walk.**  For every table root, every address and every content of guest memory: if the
    tables that the walk comes to are in guest RAM, it reads these and nothing else.  Otherwise,
    unless it panics because the pool is exhausted, it dereferences a pointer that was never
    stored. -/
theorem walk_safe_iff {s : State} (hreach : Reachable L s) (ram : Mem) (stale : Nat → Nat)
    (satpPpn : BitVec 44) (gu : Nat) :
    (tryResolveVisits L stale 0 satpPpn gu (s.store.withRam ram)).2 =
        tryResolveGuToGm L stale 0 satpPpn gu (s.store.withRam ram) ∧
      (WalkInRam (guestRead (s.store.withRam ram)) satpPpn gu →
        WalkSafe (tryResolveVisits L stale 0 satpPpn gu (s.store.withRam ram))) ∧
      (∀ r, tryResolveGuToGm L stale 0 satpPpn gu (s.store.withRam ram) = .ok r →
        (WalkSafe (tryResolveVisits L stale 0 satpPpn gu (s.store.withRam ram)) ↔
          WalkInRam (guestRead (s.store.withRam ram)) satpPpn gu)) := by
  obtain ⟨own, free, hvm⟩ := hreach.inv.core.mem.vm
  obtain ⟨hall, hstray⟩ := resolveGuVisits_spec stale gu 2 4 (rootEntry satpPpn) (by decide)
    (rootEntry_aligned satpPpn) (hvm.withRam ram)
  have henough : WalkInRam (guestRead (s.store.withRam ram)) satpPpn gu →
      WalkSafe (tryResolveVisits L stale 0 satpPpn gu (s.store.withRam ram)) := by
    intro hram
    refine ⟨fun v hv a ha => ?_, fun v hv hnone => ?_⟩
    · obtain ⟨hstored, hread⟩ := hall hram v hv
      rw [hread] at ha
      exact ⟨hstored, (Option.some.inj ha).symm⟩
    · rw [(hall hram v hv).stored] at hnone
      cases hnone
  refine ⟨resolveGuVisits_result 4 _ _ _, henough, fun r hr => ⟨fun hsafe => ?_, henough⟩⟩
  by_contra houtside
  obtain ⟨v, hv, hnone, hread⟩ := hstray r hr houtside
  exact hread (hsafe.unmapped v hv hnone).1

/-- A guest whose table of level 2 is at `0x80010000` and whose table of level 1 follows it. -/
theorem walk_safe_two_levels :
    ∃ s ram, Reachable sampleLayout s ∧
      (tryResolveVisits sampleLayout (fun _ => 0) 0 0x80010 0 (s.store.withRam ram)).1 =
        [⟨0x80010000, some 0x85010000, 0, some 0x85010000⟩,
          ⟨0x80011000, some 0x85011000, 0, some 0x85011000⟩] ∧
      WalkSafe (tryResolveVisits sampleLayout (fun _ => 0) 0 0x80010 0 (s.store.withRam ram)) := by
  obtain ⟨-, hsafe, -⟩ := walk_safe_iff (Reachable.boot (powerOn_sampleMachine (fun _ => 0)))
    (store (store (fun _ => 0) 0x85010000 8 0x20004401) 0x85011000 8 0x2000001F) (fun _ => 0)
    0x80010 0
  exact ⟨_, _, Reachable.boot (powerOn_sampleMachine (fun _ => 0)), by decide +kernel,
    hsafe (by unfold WalkInRam; decide +kernel)⟩

/-- A guest that sets `satp.PPN` to 0: whatever `next_ptr` holds is dereferenced. -/
theorem walk_reads_stale_pointer :
    ∃ s, Reachable sampleLayout s ∧ ∀ stale : Nat → Nat,
      (tryResolveVisits sampleLayout stale 0 0 0 s.store).1.head? =
        some ⟨0, none, 0, some (stale 30)⟩ ∧
      ¬ WalkSafe (tryResolveVisits sampleLayout stale 0 0 0 s.store) := by
  refine ⟨_, Reachable.boot (powerOn_sampleMachine (fun _ => 0)), fun stale => ?_⟩
  have hgo : GoesOn 30 (rootEntry 0) := ⟨by decide, by decide, by decide⟩
  obtain ⟨rest, hvisits⟩ : ∃ rest, (tryResolveVisits sampleLayout stale 0 0 0
      (bootMain sampleLayout (sampleMachine (fun _ => 0))).store).1 =
        ⟨0, none, 0, some (stale 30)⟩ :: rest :=
    ⟨_, resolveGuVisits_of_goesOn hgo (ensureGuestMachineMapped_tooLow (by decide))⟩
  rw [hvisits]
  refine ⟨rfl, fun hsafe => ?_⟩
  have hfirst := hsafe.unmapped ⟨0, none, 0, some (stale 30)⟩
    (by rw [hvisits]; exact List.mem_cons_self) rfl
  cases hfirst.1

end RiscvHypervisor
