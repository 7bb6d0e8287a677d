import RiscvHypervisor.Proof.TableBuild

namespace RiscvHypervisor

open RadixForest Except

/-!
# The walk of the guest's page table

`try_resolve_gu_to_gm` reads the guest's table through the machine table, mapping table pages as it
goes.  As long as these pages lie in guest RAM, the result depends on the guest's RAM alone:

* `guestRead` — guest RAM as the guest's own physical memory;
* `guWalk` — the same walk as a function of such a memory, and `guTables` the tables it reads;
* `resolveGuLoop_spec` — the code computes `guWalk`, building only machine tables on the way;
* `guWalk_page` — it does the same for all addresses of a page.

On well-formed tables `guWalk` is the architectural walk cut off below level 1
(`guWalk_eq_walk`).
-/

/-! ### Guest RAM -/

/-- An address of the guest's RAM. -/
def InGuestRam (a : Nat) : Prop := RAM_START ≤ a ∧ a < 2 ^ 39

instance (a : Nat) : Decidable (InGuestRam a) := inferInstanceAs (Decidable (_ ∧ _))

/-- Guest RAM is moved by whole pages. -/
theorem add_guestMemoryOffset_mod (gm : Nat) : (gm + GUEST_MEMORY_OFFSET) % 4096 = gm % 4096 := by
  simp only [GUEST_MEMORY_OFFSET]
  omega

/-- The host address of an address of guest RAM fits an entry. -/
theorem InGuestRam.host_lt {gm : Nat} (h : InGuestRam gm) : gm + GUEST_MEMORY_OFFSET < 2 ^ 56 := by
  have hlt := h.2
  simp only [GUEST_MEMORY_OFFSET]
  omega

/-- The guest's physical memory: guest RAM is host RAM moved by `GUEST_MEMORY_OFFSET`, and nothing
    else can hold a page table. -/
def guestRead (st : Store) (a : Nat) : Nat :=
  if InGuestRam a then st.load64 (a + GUEST_MEMORY_OFFSET) else 0

/-- What the guest reads depends on guest RAM only. -/
theorem SameGuestRam.guestRead_eq {st st' : Store} (h : SameGuestRam st st') :
    guestRead st' = guestRead st := by
  funext a
  unfold guestRead
  split
  · rename_i ha
    have hlo : GUEST_BASE ≤ a + GUEST_MEMORY_OFFSET := Nat.add_le_add_right ha.1 _
    exact Store.load64_congr (fun x hx _ => h x (le_trans hlo hx))
  · rfl

/-- An entry of a guest table in RAM, as the hypervisor and as the guest read it. -/
theorem entry_eq_guestRead (st : Store) {t i : Nat} (ht : InGuestRam t) (hal : t % 4096 = 0)
    (hi : i < 512) : st.entry (t + GUEST_MEMORY_OFFSET) i = guestRead st (t + 8 * i) := by
  have hin : InGuestRam (t + 8 * i) := by
    obtain ⟨hlo, hhi⟩ := ht
    exact ⟨le_trans hlo (Nat.le_add_right _ _), by omega⟩
  unfold guestRead Store.entry
  rw [if_pos hin]
  congr 1
  omega

/-! ### The walk as a function -/

/-- The loop of `try_resolve_gu_to_gm` over the memory `rd`. -/
def guWalk (rd : Nat → Nat) (gu : Nat) :
    (fuel : Nat) → (componentOffset : Nat) → UnpackedPagetableEntry → Option Nat
  | 0, _, _ => none
  | fuel + 1, componentOffset, entry =>
    if !hasAny entry.permissions (permbit .v) then none
    else if hasAny entry.permissions permRWX then
      if !hasAny entry.permissions (permbit .u) then none
      else some ((entry.address + gu % 2 ^ (componentOffset + 9)) % 2 ^ 64)
    else if componentOffset ≤ PGSHIFT then none
    else
      guWalk rd gu fuel (componentOffset - 9)
        (unpackPtEntry (rd (entry.address + 8 * (gu / 2 ^ componentOffset % 512))))

/-- The tables that walk reads. -/
def guTables (rd : Nat → Nat) (gu : Nat) :
    (fuel : Nat) → (componentOffset : Nat) → UnpackedPagetableEntry → List Nat
  | 0, _, _ => []
  | fuel + 1, componentOffset, entry =>
    if !hasAny entry.permissions (permbit .v) then []
    else if hasAny entry.permissions permRWX then []
    else if componentOffset ≤ PGSHIFT then []
    else
      entry.address :: guTables rd gu fuel (componentOffset - 9)
        (unpackPtEntry (rd (entry.address + 8 * (gu / 2 ^ componentOffset % 512))))

/-- The pseudo entry the walk starts from. -/
def rootEntry (satpPpn : BitVec 44) : UnpackedPagetableEntry :=
  ⟨satpPpn.toNat <<< PGSHIFT, permbit .v⟩

/-- What `try_resolve_gu_to_gm` finds for `gu` in the table at `satpPpn`. -/
def resolveGu (rd : Nat → Nat) (satpPpn : BitVec 44) (gu : Nat) : Option Nat :=
  guWalk rd gu 4 30 (rootEntry satpPpn)

/-- The tables `try_resolve_gu_to_gm` reads for `gu` all lie in guest RAM. -/
def WalkInRam (rd : Nat → Nat) (satpPpn : BitVec 44) (gu : Nat) : Prop :=
  ∀ t ∈ guTables rd gu 4 30 (rootEntry satpPpn), InGuestRam t

theorem rootEntry_aligned (satpPpn : BitVec 44) : (rootEntry satpPpn).address % 4096 = 0 := by
  show satpPpn.toNat <<< 12 % 4096 = 0
  rw [Nat.shiftLeft_eq]
  exact Nat.mul_mod_left _ _

theorem unpackPtEntry_aligned (e : Nat) : (unpackPtEntry e).address % 4096 = 0 := by
  rw [unpackPtEntry_address, Nat.mod_mod_of_dvd _ (by decide)]
  exact Nat.mul_mod_left _ _

/-! ### The code computes it -/

variable {L : Layout} {root : Nat} {st : Store} {own : Owner Tree} {free : List Nat}

/-- The loop goes on to the table the entry points to. -/
def GoesOn (componentOffset : Nat) (entry : UnpackedPagetableEntry) : Prop :=
  hasAny entry.permissions (permbit .v) = true ∧ hasAny entry.permissions permRWX = false ∧
    PGSHIFT < componentOffset

/-- It does so above the last level only. -/
theorem GoesOn.exists_succ {m : Nat} {entry : UnpackedPagetableEntry}
    (h : GoesOn (12 + 9 * m) entry) : ∃ n, m = n + 1 := by
  refine ⟨m - 1, ?_⟩
  have hco := h.2.2
  simp only [PGSHIFT] at hco
  omega

theorem guWalk_of_goesOn {rd : Nat → Nat} {gu fuel co : Nat} {entry : UnpackedPagetableEntry}
    (h : GoesOn co entry) :
    guWalk rd gu (fuel + 1) co entry = guWalk rd gu fuel (co - 9)
      (unpackPtEntry (rd (entry.address + 8 * (gu / 2 ^ co % 512)))) := by
  obtain ⟨hv, hl, hco⟩ := h
  rw [guWalk, hv, hl, if_neg (Nat.not_le.mpr hco)]
  rfl

theorem guTables_of_goesOn {rd : Nat → Nat} {gu fuel co : Nat} {entry : UnpackedPagetableEntry}
    (h : GoesOn co entry) :
    guTables rd gu (fuel + 1) co entry = entry.address :: guTables rd gu fuel (co - 9)
      (unpackPtEntry (rd (entry.address + 8 * (gu / 2 ^ co % 512)))) := by
  obtain ⟨hv, hl, hco⟩ := h
  rw [guTables, hv, hl, if_neg (Nat.not_le.mpr hco)]
  rfl

theorem guTables_of_not_goesOn {rd : Nat → Nat} {gu fuel co : Nat} {entry : UnpackedPagetableEntry}
    (h : ¬ GoesOn co entry) : guTables rd gu fuel co entry = [] := by
  cases fuel with
  | zero => rfl
  | succ fuel =>
    rw [guTables]
    split
    · rfl
    split
    · rfl
    split
    · rfl
    rename_i hv hl hco
    exact absurd ⟨by simpa using hv, by simpa using hl, Nat.lt_of_not_le hco⟩ h

/-- Where the loop stops, it returns what `guWalk` returns, whatever the memory. -/
theorem resolveGuLoop_of_not_goesOn {stale : Nat → Nat} {gu fuel co : Nat}
    {entry : UnpackedPagetableEntry} (h : ¬ GoesOn co entry) (rd : Nat → Nat) :
    resolveGuLoop L stale 0 gu (fuel + 1) co entry st =
      .ok (guWalk rd gu (fuel + 1) co entry, st) := by
  rw [resolveGuLoop, guWalk]
  by_cases hv : hasAny entry.permissions (permbit .v) = true
  · by_cases hl : hasAny entry.permissions permRWX = true
    · simp only [hv, hl, Bool.not_true, Bool.false_eq_true, if_false, if_true, pow_sub_one_and]
      split <;> rfl
    · have hco : co ≤ PGSHIFT := by
        by_contra hc
        exact h ⟨hv, by simpa using hl, Nat.lt_of_not_le hc⟩
      simp only [hv, hl, hco, Bool.not_true, Bool.false_eq_true, if_false, if_true]
  · simp only [hv, Bool.not_false, if_true]

/-- The store after `ensure_guest_machine_mapped` and the message on the place of the table. -/
def afterMapping (r : PageFaultHandlerResult × Option Nat × Store) : Store :=
  printStringSlice (placementMessage r.1) r.2.2

/-- The loop maps the table, reads the entry of `gu` there, and goes on. -/
theorem resolveGuLoop_of_goesOn {stale : Nat → Nat} {gu fuel co : Nat}
    {entry : UnpackedPagetableEntry} (h : GoesOn co entry) :
    resolveGuLoop L stale 0 gu (fuel + 1) co entry st =
      (ensureGuestMachineMapped L 0 entry.address st >>= fun r =>
        resolveGuLoop L stale 0 gu fuel (co - 9)
          (unpackPtEntry ((afterMapping r).entry (r.2.1.getD (stale co)) (gu / 2 ^ co % 512)))
          (afterMapping r)) := by
  obtain ⟨hv, hl, hco⟩ := h
  rw [resolveGuLoop, hv, hl, if_neg (Nat.not_le.mpr hco), Nat.land_comm 511, and_0x1FF,
    Nat.shiftRight_eq_div_pow]
  rfl

/-- The offset inside a superpage keeps the offset inside the 4 KiB page. -/
theorem leafAddress_mod {address gu m : Nat} (hal : address % 4096 = 0) :
    (address + gu % 2 ^ (12 + 9 * m + 9)) % 2 ^ 64 % 4096 = gu % 4096 := by
  have hdvd : 4096 ∣ 2 ^ (12 + 9 * m + 9) := by
    rw [show 12 + 9 * m + 9 = 12 + (9 * m + 9) by omega, pow_add]
    exact Dvd.intro _ rfl
  rw [Nat.mod_mod_of_dvd _ (by decide), Nat.add_mod, hal, Nat.mod_mod_of_dvd _ hdvd, Nat.zero_add,
    Nat.mod_mod]

/-- A leaf found at once gives an address with the offset of `gu`. -/
theorem guWalk_mod_of_not_goesOn {rd : Nat → Nat} {gu fuel m gm : Nat}
    {entry : UnpackedPagetableEntry} (h : ¬ GoesOn (12 + 9 * m) entry)
    (hal : entry.address % 4096 = 0)
    (hgm : guWalk rd gu (fuel + 1) (12 + 9 * m) entry = some gm) :
    gm % 4096 = gu % 4096 ∧ gm < 2 ^ 64 := by
  rw [guWalk] at hgm
  split at hgm
  · cases hgm
  rename_i hv
  split at hgm
  · split at hgm
    · cases hgm
    · have heq := Option.some.inj hgm
      rw [← heq]
      exact ⟨leafAddress_mod hal, Nat.mod_lt _ (by decide)⟩
  · rename_i hl
    split at hgm
    · cases hgm
    · rename_i hco
      exact absurd ⟨by simpa using hv, by simpa using hl, Nat.lt_of_not_le hco⟩ h

/-- A table outside guest RAM is not mapped, and no address is stored for it. -/
theorem ensureGuestMachineMapped_outside (L : Layout) (st : Store) {gm : Nat}
    (h : ¬ InGuestRam gm) :
    ∃ res, ensureGuestMachineMapped L 0 gm st = .ok (res, none, st) := by
  by_cases hlo : RAM_START ≤ gm
  · exact ⟨.tooHigh, ensureGuestMachineMapped_tooHigh
      (Nat.le_of_not_lt (fun hhi => h ⟨hlo, hhi⟩))⟩
  · exact ⟨.tooLow, ensureGuestMachineMapped_tooLow (Nat.lt_of_not_le hlo)⟩

/-- **The loop.**  From the entry of level `m + 1`, the walk takes at most `m` pages for machine
    tables and leaves the shadow table alone; it finds what `guWalk` finds if the tables it reads
    are in RAM, and an address with the offset of `gu` in any case. -/
theorem resolveGuLoop_spec (stale : Nat → Nat) (gu : Nat) :
    ∀ (m fuel : Nat) (entry : UnpackedPagetableEntry) {st : Store} {own : Owner Tree}
      {free : List Nat}, m < fuel → entry.address % 4096 = 0 → VmInv L root st own free ∅ →
    (resolveGuLoop L stale 0 gu fuel (12 + 9 * m) entry st).Post
      (fun e => e = .pageAlloc ∧ pagesLeft st free < m)
      (fun r => ∃ own' free', Builds L root st free r.2 own' free' m ∧
        (∀ key e, Maps r.2 own' .shadow key e ↔ Maps st own .shadow key e) ∧
        (∀ gm, r.1 = some gm → gm % 4096 = gu % 4096 ∧ gm < 2 ^ 64) ∧
        ((∀ t ∈ guTables (guestRead st) gu fuel (12 + 9 * m) entry, InGuestRam t) →
          r.1 = guWalk (guestRead st) gu fuel (12 + 9 * m) entry)) := by
  -- on the levels left: each may map one table, and the loop stops where `component_offset` is 12
  intro m
  induction m with
  | zero =>
    intro fuel entry st own free hfuel hal h
    obtain ⟨fuel, rfl⟩ : ∃ n, fuel = n + 1 := ⟨fuel - 1, by omega⟩
    have hstop : ¬ GoesOn (12 + 9 * 0) entry := fun hg => absurd hg.2.2 (by decide)
    rw [resolveGuLoop_of_not_goesOn hstop (guestRead st)]
    exact post_ok.mpr ⟨own, free, Builds.refl h, fun _ _ => Iff.rfl,
      fun gm hgm => guWalk_mod_of_not_goesOn hstop hal hgm, fun _ => rfl⟩
  | succ m ih =>
    intro fuel entry st own free hfuel hal h
    obtain ⟨fuel, rfl⟩ : ∃ n, fuel = n + 1 := ⟨fuel - 1, by omega⟩
    by_cases hgo : GoesOn (12 + 9 * (m + 1)) entry
    swap
    · rw [resolveGuLoop_of_not_goesOn hgo (guestRead st)]
      exact post_ok.mpr ⟨own, free, (Builds.refl h).mono (Nat.zero_le _), fun _ _ => Iff.rfl,
        fun gm hgm => guWalk_mod_of_not_goesOn hgo hal hgm, fun _ => rfl⟩
    have hco : 12 + 9 * (m + 1) - 9 = 12 + 9 * m := by omega
    have hidx : gu / 2 ^ (12 + 9 * (m + 1)) % 512 < 512 := Nat.mod_lt _ (by decide)
    rw [resolveGuLoop_of_goesOn hgo, guWalk_of_goesOn hgo, guTables_of_goesOn hgo, hco]
    by_cases hram : InGuestRam entry.address
    · -- mapping the table takes one page at most and does not write what is read next
      refine Post.bind ((ensureGuestMachineMapped_spec h hram.1 hram.2).mono
        (fun e he => ⟨he.1, by omega⟩) (fun _ hr => hr)) ?_
      rintro ⟨res, hm, st₁⟩ ⟨-, hhm, own₁, free₁, e₁, hb₁, hupd, -⟩
      simp only at hhm hb₁ hupd
      subst hhm
      have hs : SameMem st₁ (afterMapping (res, some (entry.address + GUEST_MEMORY_OFFSET), st₁)) :=
        SameMem.print _ _
      replace hb₁ := hb₁.same hs
      replace hupd := hupd.same hs
      generalize afterMapping (res, some (entry.address + GUEST_MEMORY_OFFSET), st₁) = st₂
        at hb₁ hupd ⊢
      have hread : guestRead st₂ = guestRead st := hb₁.ram.guestRead_eq
      have hshadow : ∀ key e, Maps st₂ own₁ .shadow key e ↔ Maps st own .shadow key e := by
        intro key e
        rw [hupd, if_neg (by simp)]
      rw [Option.getD_some, entry_eq_guestRead st₂ hram hal hidx, hread]
      refine (ih fuel _ (by omega) (unpackPtEntry_aligned _) hb₁.inv).mono ?_ ?_
      · rintro e ⟨he, hleft⟩
        have hl := hb₁.left
        exact ⟨he, by omega⟩
      · rintro r ⟨own', free', hb, hmaps, hmod, hwalk⟩
        refine ⟨own', free', ?_, fun key e => (hmaps key e).trans (hshadow key e), hmod, ?_⟩
        · rw [Nat.add_comm m 1]
          exact hb₁.trans hb
        · intro htables
          rw [hread] at hwalk
          exact hwalk (fun t ht => htables t (List.mem_cons_of_mem _ ht))
    · -- the table is not mapped: the walk goes on with whatever `next_ptr` held
      obtain ⟨res, hens⟩ := ensureGuestMachineMapped_outside L st hram
      have hs : SameMem st (afterMapping (res, none, st)) := SameMem.print _ _
      rw [hens]
      refine (ih fuel _ (by omega) (unpackPtEntry_aligned _) (h.same hs)).mono
        (fun e he => ⟨he.1, ?_⟩) ?_
      · have hleft := he.2
        exact Nat.lt_succ_of_lt hleft
      rintro r ⟨own', free', hb, hmaps, hmod, -⟩
      refine ⟨own', free', (((Builds.refl h).same hs).trans hb).mono (by omega), ?_, hmod, ?_⟩
      · exact fun key e => (hmaps key e).trans hs.maps
      · exact fun htables => absurd (htables _ List.mem_cons_self) hram

/-- **`try_resolve_gu_to_gm`.**  The walk takes at most two pages and leaves the shadow table
    alone; on tables in guest RAM it returns `resolveGu`. -/
theorem tryResolveGuToGm_spec (h : VmInv L root st own free ∅) (stale : Nat → Nat)
    (satpPpn : BitVec 44) (gu : Nat) :
    (tryResolveGuToGm L stale 0 satpPpn gu st).Post
      (fun e => e = .pageAlloc ∧ pagesLeft st free < 2)
      (fun r => ∃ own' free', Builds L root st free r.2 own' free' 2 ∧
        (∀ key e, Maps r.2 own' .shadow key e ↔ Maps st own .shadow key e) ∧
        (∀ gm, r.1 = some gm → gm % 4096 = gu % 4096 ∧ gm < 2 ^ 64) ∧
        (WalkInRam (guestRead st) satpPpn gu → r.1 = resolveGu (guestRead st) satpPpn gu)) :=
  resolveGuLoop_spec stale gu 2 4 (rootEntry satpPpn) (by decide) (rootEntry_aligned satpPpn) h

/-! ### Pages -/

/-- The address in a leaf of at least a page is that of the page plus the offset in the page. -/
theorem leafAddress_page {address : Nat} (gu m : Nat) (hal : address % 4096 = 0) :
    (address + gu % 2 ^ (12 + 9 * m + 9)) % 2 ^ 64 =
      (address + gu / 4096 * 4096 % 2 ^ (12 + 9 * m + 9)) % 2 ^ 64 + gu % 4096 := by
  have hsize : 2 ^ (12 + 9 * m + 9) = 4096 * 2 ^ (9 * m + 9) := by
    rw [show 12 + 9 * m + 9 = 12 + (9 * m + 9) by omega, pow_add,
      show (2 : Nat) ^ 12 = 4096 from rfl]
  have hsplit : gu % (4096 * 2 ^ (9 * m + 9)) =
      gu / 4096 * 4096 % (4096 * 2 ^ (9 * m + 9)) + gu % 4096 := by
    rw [Nat.mod_mul, Nat.mul_comm (gu / 4096), Nat.mul_mod_mul_left, Nat.add_comm]
  have hpage : gu / 4096 * 4096 % (4096 * 2 ^ (9 * m + 9)) % 4096 = 0 := by
    rw [Nat.mod_mul_right_mod]
    exact Nat.mul_mod_left _ _
  rw [hsize, hsplit]
  omega

/-- **Pages.**  The walk reads the same tables for all addresses of a page and keeps the offset. -/
theorem guWalk_page {rd : Nat → Nat} {gu : Nat} :
    ∀ (m fuel : Nat) (entry : UnpackedPagetableEntry), entry.address % 4096 = 0 →
      guWalk rd gu fuel (12 + 9 * m) entry =
        (guWalk rd (gu / 4096 * 4096) fuel (12 + 9 * m) entry).map (· + gu % 4096) ∧
      guTables rd gu fuel (12 + 9 * m) entry =
        guTables rd (gu / 4096 * 4096) fuel (12 + 9 * m) entry := by
  intro m fuel
  induction fuel generalizing m with
  | zero =>
    intro entry _
    exact ⟨rfl, rfl⟩
  | succ fuel ih =>
    intro entry hal
    by_cases hgo : GoesOn (12 + 9 * m) entry
    · obtain ⟨m, rfl⟩ := hgo.exists_succ
      rw [guWalk_of_goesOn hgo, guWalk_of_goesOn hgo, guTables_of_goesOn hgo,
        guTables_of_goesOn hgo,
        show 12 + 9 * (m + 1) - 9 = 12 + 9 * m by omega,
        show gu / 4096 * 4096 / 2 ^ (12 + 9 * (m + 1)) % 512 =
          gu / 2 ^ (12 + 9 * (m + 1)) % 512 from
          Sv39.vpn_page gu (m + 1)]
      obtain ⟨hwalk, htables⟩ := ih m _ (unpackPtEntry_aligned _)
      exact ⟨hwalk, by rw [htables]⟩
    · rw [guTables_of_not_goesOn hgo, guTables_of_not_goesOn hgo]
      refine ⟨?_, rfl⟩
      rw [guWalk, guWalk, leafAddress_page gu m hal]
      split
      · rfl
      split
      · split
        · rfl
        · rfl
      split
      · rfl
      rename_i hv hl hco
      exact absurd ⟨by simpa using hv, by simpa using hl, Nat.lt_of_not_le hco⟩ hgo

theorem guWalk_mod {rd : Nat → Nat} {gu gm : Nat} :
    ∀ (m fuel : Nat) (entry : UnpackedPagetableEntry), entry.address % 4096 = 0 →
      guWalk rd gu fuel (12 + 9 * m) entry = some gm → gm % 4096 = gu % 4096 := by
  intro m fuel
  induction fuel generalizing m with
  | zero =>
    intro entry _ hgm
    cases hgm
  | succ fuel ih =>
    intro entry hal hgm
    by_cases hgo : GoesOn (12 + 9 * m) entry
    · obtain ⟨m, rfl⟩ := hgo.exists_succ
      rw [guWalk_of_goesOn hgo, show 12 + 9 * (m + 1) - 9 = 12 + 9 * m by omega] at hgm
      exact ih m _ (unpackPtEntry_aligned _) hgm
    · exact (guWalk_mod_of_not_goesOn hgo hal hgm).1

theorem resolveGu_mod {rd : Nat → Nat} {satpPpn : BitVec 44} {gu gm : Nat}
    (h : resolveGu rd satpPpn gu = some gm) : gm % 4096 = gu % 4096 :=
  guWalk_mod 2 4 (rootEntry satpPpn) (rootEntry_aligned satpPpn) h

/-- An address resolves to that of its page plus its offset. -/
theorem resolveGu_eq_some_iff {rd : Nat → Nat} {satpPpn : BitVec 44} {gu gm : Nat} :
    resolveGu rd satpPpn gu = some gm ↔
      ∃ page, resolveGu rd satpPpn (gu / 4096 * 4096) = some page ∧ page % 4096 = 0 ∧
        gm = page + gu % 4096 := by
  have hpage : resolveGu rd satpPpn gu =
      (resolveGu rd satpPpn (gu / 4096 * 4096)).map (· + gu % 4096) :=
    (guWalk_page 2 4 (rootEntry satpPpn) (rootEntry_aligned satpPpn)).1
  rw [hpage, Option.map_eq_some_iff]
  constructor
  · rintro ⟨page, hres, rfl⟩
    have hmod := resolveGu_mod hres
    rw [Nat.mul_mod_left] at hmod
    exact ⟨page, hres, hmod, rfl⟩
  · rintro ⟨page, hres, -, rfl⟩
    exact ⟨page, hres, rfl⟩

/-- All addresses of a page are in guest RAM or none is. -/
theorem inGuestRam_page {page off : Nat} (hpage : page % 4096 = 0) (hoff : off < 4096) :
    InGuestRam (page + off) ↔ InGuestRam page := by
  unfold InGuestRam
  simp only [RAM_START]
  omega

/-! ### Against the architecture -/

/-- What Sv39 makes of a user access to `gu`: the leaf of the walk, if it has `U`, at any level. -/
def sv39Resolve (rd : Nat → Nat) (satpPpn : BitVec 44) (gu : Nat) : Option Nat :=
  match Sv39.walk rd gu 2 (satpPpn.toNat * 4096) with
  | some l => if l.pte.testBit Sv39.bitU then some (l.translate gu) else none
  | none   => none

/-- Every table the architectural walk visits is in guest RAM, and every entry it reads there has
    bits 63..54 clear. -/
def WellFormedWalk (rd : Nat → Nat) (satpPpn : BitVec 44) (gu : Nat) : Prop :=
  ∀ p ∈ Sv39.visited rd gu 2 (satpPpn.toNat * 4096), InGuestRam p.1 ∧ p.2 < 2 ^ 54

/-- The outcome of the code for a leaf of the architectural walk. -/
def superpageOnly (gu : Nat) (l : Sv39.Leaf) : Option Nat :=
  if l.level ≠ 0 ∧ l.pte.testBit Sv39.bitU = true then some (l.translate gu) else none

/-- **The cut.**  From a table of level `level`, the code's walk is the architectural walk, except
    that it drops leaves of level 0. -/
theorem guWalk_eq_walk {rd : Nat → Nat} {gu : Nat} :
    ∀ (level fuel : Nat) (entry : UnpackedPagetableEntry), level ≤ 2 → level < fuel →
      hasAny entry.permissions (permbit .v) = true → hasAny entry.permissions permRWX = false →
      (∀ p ∈ Sv39.visited rd gu level entry.address, p.2 < 2 ^ 54) →
      guWalk rd gu fuel (12 + 9 * level) entry =
        (Sv39.walk rd gu level entry.address).bind (superpageOnly gu) := by
  intro level
  induction level with
  | zero =>
    intro fuel entry _ hfuel hv hl _
    obtain ⟨fuel, rfl⟩ : ∃ n, fuel = n + 1 := ⟨fuel - 1, by omega⟩
    -- `component_offset` is 12 here: the loop ends before it reads the leaf
    have hstop : guWalk rd gu (fuel + 1) (12 + 9 * 0) entry = none := by
      rw [guWalk, hv, hl]
      rfl
    rw [hstop, Sv39.walk]
    split
    · rfl
    · rfl
  | succ level ih =>
    intro fuel entry hlevel hfuel hv hl hfits
    obtain ⟨fuel, rfl⟩ : ∃ n, fuel = n + 1 := ⟨fuel - 1, by omega⟩
    obtain ⟨fuel, rfl⟩ : ∃ n, fuel = n + 1 := ⟨fuel - 1, by omega⟩
    have hgo : GoesOn (12 + 9 * (level + 1)) entry := by
      refine ⟨hv, hl, ?_⟩
      simp only [PGSHIFT]
      omega
    rw [guWalk_of_goesOn hgo, show 12 + 9 * (level + 1) - 9 = 12 + 9 * level by omega]
    rw [Sv39.visited] at hfits
    rw [Sv39.walk]
    show guWalk rd gu (fuel + 1) (12 + 9 * level)
      (unpackPtEntry (rd (entry.address + 8 * Sv39.vpn gu (level + 1)))) = _
    generalize hpte : rd (entry.address + 8 * Sv39.vpn gu (level + 1)) = pte at hfits ⊢
    have hpte54 : pte < 2 ^ 54 := hfits _ List.mem_cons_self
    -- an invalid entry ends both walks; so does a leaf, and a pointer takes both a level down
    by_cases hpv : pte.testBit Sv39.bitV = true
    swap
    · have hpv' : hasAny (unpackPtEntry pte).permissions (permbit .v) = false := by
        rw [hasAny_unpack]
        exact eq_false_of_ne_true hpv
      simp only [guWalk, hpv', hpv]
      rfl
    have hpv' : hasAny (unpackPtEntry pte).permissions (permbit .v) = true := by
      rw [hasAny_unpack]
      exact hpv
    by_cases hpl : Sv39.isLeaf pte = true
    · have hpl' : hasAny (unpackPtEntry pte).permissions permRWX = true := by
        rw [hasAny_unpack_permRWX, hpl]
      have hu : hasAny (unpackPtEntry pte).permissions (permbit .u) = pte.testBit Sv39.bitU :=
        hasAny_unpack _ _
      -- an offset of 30 bits at most: the sum does not wrap
      have hoff : gu % 2 ^ (12 + 9 * (level + 1)) < 2 ^ 30 :=
        lt_of_lt_of_le (Nat.mod_lt _ (Nat.two_pow_pos _))
          (Nat.pow_le_pow_right (by decide) (by omega))
      have haddr : ((unpackPtEntry pte).address + gu % 2 ^ (12 + 9 * level + 9)) % 2 ^ 64 =
          Sv39.ppn pte * 4096 + gu % 2 ^ (12 + 9 * (level + 1)) := by
        rw [unpackPtEntry_address_eq_ppn hpte54,
          show 12 + 9 * level + 9 = 12 + 9 * (level + 1) by omega]
        have hppn : Sv39.ppn pte < 2 ^ 44 := Nat.mod_lt _ (by decide)
        exact Nat.mod_eq_of_lt (by omega)
      simp only [guWalk, hpv', hpl', hu, hpv, hpl, haddr, Bool.not_true, Bool.false_eq_true,
        if_false, if_true, Option.bind_some]
      unfold superpageOnly Sv39.Leaf.translate Sv39.Leaf.base Sv39.pageSize
      cases hub : pte.testBit Sv39.bitU <;> simp
    · have hpl' : hasAny (unpackPtEntry pte).permissions permRWX = false := by
        rw [hasAny_unpack_permRWX]
        simpa using hpl
      have hrest := ih (fuel + 1) (unpackPtEntry pte) (by omega) (by omega) hpv' hpl'
      rw [unpackPtEntry_address_eq_ppn hpte54] at hrest
      rw [hrest (fun p hp => hfits p (List.mem_cons_of_mem _ (by simp [hpv, hpl, hp])))]
      simp only [hpv, hpl, Bool.not_true, Bool.false_eq_true, if_false]

/-- The tables the code's walk reads are tables the architectural walk visits. -/
theorem guTables_subset_visited {rd : Nat → Nat} {gu : Nat} :
    ∀ (level fuel : Nat) (entry : UnpackedPagetableEntry),
      (∀ p ∈ Sv39.visited rd gu level entry.address, InGuestRam p.1 ∧ p.2 < 2 ^ 54) →
      ∀ t ∈ guTables rd gu fuel (12 + 9 * level) entry, InGuestRam t := by
  intro level
  induction level with
  | zero =>
    intro fuel entry _ t ht
    rw [guTables_of_not_goesOn (fun hg => absurd hg.2.2 (by decide))] at ht
    cases ht
  | succ level ih =>
    intro fuel entry hgood t ht
    by_cases hgo : GoesOn (12 + 9 * (level + 1)) entry
    swap
    · rw [guTables_of_not_goesOn hgo] at ht
      cases ht
    cases fuel with
    | zero => cases ht
    | succ fuel =>
      rw [guTables_of_goesOn hgo, show 12 + 9 * (level + 1) - 9 = 12 + 9 * level by omega] at ht
      rw [Sv39.visited] at hgood
      rcases List.mem_cons.mp ht with rfl | ht
      · exact (hgood _ List.mem_cons_self).1
      change t ∈ guTables rd gu fuel (12 + 9 * level)
        (unpackPtEntry (rd (entry.address + 8 * Sv39.vpn gu (level + 1)))) at ht
      generalize rd (entry.address + 8 * Sv39.vpn gu (level + 1)) = pte at hgood ht
      have hpte54 : pte < 2 ^ 54 := (hgood _ List.mem_cons_self).2
      -- both walks go on at a pointer, and at nothing else
      by_cases hnext : pte.testBit Sv39.bitV = true ∧ Sv39.isLeaf pte = false
      · refine ih fuel _ (fun p hp => hgood p (List.mem_cons_of_mem _ ?_)) t ht
        rw [unpackPtEntry_address_eq_ppn hpte54] at hp
        simpa [hnext.1, hnext.2] using hp
      · rw [guTables_of_not_goesOn] at ht
        · cases ht
        · rintro ⟨hv, hl, -⟩
          rw [hasAny_unpack] at hv
          rw [hasAny_unpack_permRWX] at hl
          exact hnext ⟨hv, hl⟩

variable {satpPpn : BitVec 44} {gu : Nat}

theorem WellFormedWalk.walkInRam {rd : Nat → Nat} (h : WellFormedWalk rd satpPpn gu) :
    WalkInRam rd satpPpn gu := by
  refine guTables_subset_visited 2 4 (rootEntry satpPpn) ?_
  rw [show (rootEntry satpPpn).address = satpPpn.toNat * 4096 from Nat.shiftLeft_eq _ _]
  exact h

/-- On well-formed tables the code finds the architecture's leaf, unless it is of level 0. -/
theorem WellFormedWalk.resolveGu_eq {rd : Nat → Nat} (h : WellFormedWalk rd satpPpn gu) :
    resolveGu rd satpPpn gu =
      (Sv39.walk rd gu 2 (satpPpn.toNat * 4096)).bind (superpageOnly gu) := by
  have haddr : (rootEntry satpPpn).address = satpPpn.toNat * 4096 := Nat.shiftLeft_eq _ _
  have hv : hasAny (permbit .v) (permbit .v) = true := by decide
  have hl : hasAny (permbit .v) permRWX = false := by decide
  have hwalk := @guWalk_eq_walk rd gu 2 4 (rootEntry satpPpn) (le_refl _) (by decide) hv hl
  rw [haddr] at hwalk
  exact hwalk (fun p hp => (h p hp).2)

end RiscvHypervisor
