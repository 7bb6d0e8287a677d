import RiscvHypervisor.Lib.Outcome
import RiscvHypervisor.Proof.Tables

namespace RiscvHypervisor

open RadixForest Except

/-!
# The table builders

What `ensure_guest_machine_mapped` and `update_shadow_pt` do to the two trees: each rewrites what
one tree holds at one page number, allocates at most a given number of tables on the way, and
touches neither guest memory nor the history of freed pages (`Builds`).  Their only error is the
allocator's, and only when too few pages are left.
-/

/-! ### What a builder keeps -/

/-- The tree contents differ at most in what tree `x` holds at `key`, which is now `e`. -/
def MapsUpdate (st : Store) (own : Owner Tree) (st' : Store) (own' : Owner Tree) (x : Tree)
    (key e : Nat) : Prop :=
  ∀ y key' e', Maps st' own' y key' e' ↔
    if y = x ∧ key' = key then e' = e else Maps st own y key' e'

/-- A builder took at most `n` pages and left the store in order. -/
structure Builds (L : Layout) (root : Nat) (st : Store) (free : List Nat) (st' : Store)
    (own' : Owner Tree) (free' : List Nat) (n : Nat) : Prop where
  inv : VmInv L root st' own' free' ∅
  ram : SameGuestRam st st'
  freed : st'.freed = st.freed
  left : pagesLeft st free ≤ pagesLeft st' free' + n

variable {L : Layout} {root : Nat} {st st' st'' : Store} {own own' own'' : Owner Tree}
  {free free' free'' : List Nat} {n n' : Nat}

/-- Nothing done is a build that takes no page. -/
theorem Builds.refl (h : VmInv L root st own free ∅) : Builds L root st free st own free 0 where
  inv := h
  ram := SameGuestRam.refl st
  freed := rfl
  left := le_refl _

/-- Builds compose, and their pages add up. -/
theorem Builds.trans (h : Builds L root st free st' own' free' n)
    (h' : Builds L root st' free' st'' own'' free'' n') :
    Builds L root st free st'' own'' free'' (n + n') where
  inv := h'.inv
  ram := h.ram.trans h'.ram
  freed := h'.freed.trans h.freed
  left := by
    have h₁ := h.left
    have h₂ := h'.left
    omega

/-- The number of pages is a bound. -/
theorem Builds.mono (h : Builds L root st free st' own' free' n) (hn : n ≤ n') :
    Builds L root st free st' own' free' n' where
  inv := h.inv
  ram := h.ram
  freed := h.freed
  left := by
    have h₁ := h.left
    omega

/-- What is printed at the end, or fenced, does not matter. -/
theorem Builds.same (h : Builds L root st free st' own' free' n) (hs : SameMem st' st'') :
    Builds L root st free st'' own' free' n where
  inv := h.inv.same hs
  ram := h.ram.trans hs.sameGuestRam
  freed := hs.freed.trans h.freed
  left := by
    have h₁ := h.left
    unfold pagesLeft at *
    rw [hs.nextUnallocatedIdx]
    exact h₁

/-- What has been mapped stays mapped while the tables stay as they are. -/
theorem MapsUpdate.same {x : Tree} {key e : Nat} (h : MapsUpdate st own st' own' x key e)
    (hs : SameMem st' st'') : MapsUpdate st own st'' own' x key e := by
  intro y key' e'
  rw [hs.maps]
  exact h y key' e'

/-! ### One level down -/

/-- **Child table.**  The step both builders make returns the table of the child place, and leaves
    the content of both trees as it was. -/
theorem childTable_spec (h : VmInv L root st own free ∅) {t k i hh : Nat} {x : Tree}
    (ht : own t = some ⟨x, hh + 1, k⟩) (hi : i < 512) (onNull : Panic)
    (message : List (BitVec 8)) :
    (childTable L onNull message t i st).Post (fun e => e = onNull ∧ pagesLeft st free = 0)
      (fun r => ∃ own' free', Builds L root st free r.2 own' free' 1 ∧
        own' r.1 = some ⟨x, hh, k * 512 + i⟩ ∧
        ∀ y key e, Maps r.2 own' y key e ↔ Maps st own y key e) := by
  unfold childTable
  simp only [hasAny_unpack, MempermIndex.toNat]
  rcases h.forest.inner ht hi with hz | ⟨c, hchild, hc, -⟩
  · rw [ptFormat_zero] at hz
    rw [hz]
    rcases h.link_spec ht hi hz with ⟨heq, hleft⟩ |
      ⟨p, st₁, free', heq, hp, -, hinv, hmaps, hram, hfreed, hleft⟩
    · simp [heq, hleft]
    · simp only [heq, hp, Nat.zero_testBit, Bool.not_false, if_true, if_false, post_ok]
      have hbuild : Builds L root st free _ _ free' 1 := ⟨hinv, hram, hfreed, le_of_eq hleft.symm⟩
      have hprint := SameMem.print message (st₁.setEntry t i (packPtEntry ⟨p, permbit .v⟩))
      refine ⟨_, free', hbuild.same hprint, by rw [Function.update_self], fun y key e => ?_⟩
      rw [hprint.maps]
      exact hmaps y key e
  · obtain ⟨hv, -, -, haddr⟩ := ptChild_eq_some hchild
    simp only [hv, Bool.not_true, Bool.false_eq_true, if_false, haddr, post_ok]
    exact ⟨own, free, (Builds.refl h).mono (Nat.zero_le 1), hc, fun _ _ _ => Iff.rfl⟩

/-- Rewriting one entry of a leaf table is an update of the tree. -/
theorem VmInv.setLeaf_builds (h : VmInv L root st own free ∅) {t k i v : Nat} {x : Tree}
    (ht : own t = some ⟨x, 0, k⟩) (hi : i < 512) (hv : v < 2 ^ 64) (hv0 : v ≠ 0)
    (hleaf : ptFormat.leafOk x (k * 512 + i) v) :
    Builds L root st free (st.setEntry t i v) own free 0 ∧
      MapsUpdate st own (st.setEntry t i v) own x (k * 512 + i) v := by
  refine ⟨⟨h.setLeaf ht hi hv (Or.inr hleaf), ?_, rfl, le_refl _⟩, ?_⟩
  · exact h.sameGuestRam_setEntry (by simp [ht]) hi
  · intro y key' e'
    rw [Maps.setLeaf_iff h ht hi hv]
    simp only [ne_eq, hv0, not_false_iff, and_true]

/-- A tree that holds `e` at `key` already is its own update. -/
theorem Maps.update_self (h : VmInv L root st own free ∅) {x : Tree} {key e : Nat}
    (hm : Maps st own x key e) : MapsUpdate st own st own x key e := by
  intro y key' e'
  split
  · rename_i heq
    obtain ⟨rfl, rfl⟩ := heq
    constructor
    · intro hm'
      exact Maps.unique h hm' hm
    · rintro rfl
      exact hm
  · exact Iff.rfl

/-- An update after a step that changed no content. -/
theorem MapsUpdate.of_same {x : Tree} {key e : Nat}
    (hsame : ∀ y key e, Maps st' own' y key e ↔ Maps st own y key e)
    (h : MapsUpdate st' own' st'' own'' x key e) : MapsUpdate st own st'' own'' x key e := by
  intro y key' e'
  rw [h y key' e', hsame]

/-! ### The machine table -/

/-- The base that the fast path puts together from the two indices of `gm`. -/
theorem regionBase_eq (gm : Nat) :
    ((gm >>> 30) <<< 30) ||| (((gm >>> 21) &&& 0x1FF) <<< 21) = gm / 2 ^ 21 * 2 ^ 21 := by
  have hlt : (gm / 2 ^ 21 % 512) * 2 ^ 21 < 2 ^ 30 := by omega
  rw [and_0x1FF, Nat.shiftRight_eq_div_pow, Nat.shiftRight_eq_div_pow, Nat.shiftLeft_eq _ 21,
    ← Nat.shiftLeft_add_eq_or_of_lt hlt, Nat.shiftLeft_eq]
  omega

/-- A byte of a 2 MiB region, from its base, its 4 KiB page and its offset there. -/
theorem regionByte_eq (gm : Nat) :
    gm / 2 ^ 21 * 2 ^ 21 + GUEST_MEMORY_OFFSET + 4096 * ((gm >>> 12) &&& 0x1FF) + (gm &&& 0xFFF) =
      gm + GUEST_MEMORY_OFFSET := by
  rw [and_0x1FF, and_0xFFF, Nat.shiftRight_eq_div_pow]
  omega

/-- The leaf that `ensure_guest_machine_mapped` writes is a good one. -/
theorem machineLeaf_pack {key : Nat} (hlo : RAM_START ≤ key * 2 ^ 21) :
    MachineLeaf key (packPtEntry ⟨key * 2 ^ 21 + GUEST_MEMORY_OFFSET, machinePermissions⟩) := by
  refine ⟨hlo, ?_, ?_, ?_, ?_, ?_, ?_⟩
  · rw [packPtEntry_eq (by decide)]
    have hp : machinePermissions < 1024 := by decide
    omega
  all_goals
    rw [testBit_packPtEntry (by decide) (by decide)]
    decide

/-- The host address of a machine leaf. -/
theorem MachineLeaf.address {key e : Nat} (h : MachineLeaf key e) (hkey : key < 2 ^ 18) :
    (unpackPtEntry e).address = key * 2 ^ 21 + GUEST_MEMORY_OFFSET := by
  rw [unpackPtEntry_address, h.page]
  simp only [GUEST_MEMORY_OFFSET]
  omega

/-- **The machine builder.**  For an address of guest RAM, `ensure_guest_machine_mapped` gives back
    the address moved by `GUEST_MEMORY_OFFSET`, with its 2 MiB region in the machine table; it
    reports no change only if the region was there before. -/
theorem ensureGuestMachineMapped_spec (h : VmInv L root st own free ∅) {gm : Nat}
    (hlo : RAM_START ≤ gm) (hhi : gm < 2 ^ 39) :
    (ensureGuestMachineMapped L 0 gm st).Post (fun e => e = .pageAlloc ∧ pagesLeft st free = 0)
      (fun r => (r.1 = .success ∨ r.1 = .notChanged) ∧ r.2.1 = some (gm + GUEST_MEMORY_OFFSET) ∧
        ∃ own' free' e, Builds L root st free r.2.2 own' free' 1 ∧
          MapsUpdate st own r.2.2 own' .machine (gm / 2 ^ 21) e ∧
          (r.1 = .notChanged → Maps st own .machine (gm / 2 ^ 21) e)) := by
  have hlvl3 : gm >>> 30 < 512 := by
    rw [Nat.shiftRight_eq_div_pow]
    omega
  have hlvl2 : (gm >>> 21) &&& 0x1FF < 512 := by
    rw [and_0x1FF]
    exact Nat.mod_lt _ (by decide)
  have hdiv : gm / 2 ^ 21 / 512 = 0 * 512 + gm >>> 30 := by
    rw [Nat.shiftRight_eq_div_pow]
    omega
  have hmod : gm / 2 ^ 21 % 512 = (gm >>> 21) &&& 0x1FF := by
    rw [and_0x1FF, Nat.shiftRight_eq_div_pow]
  have hkey : (0 * 512 + gm >>> 30) * 512 + ((gm >>> 21) &&& 0x1FF) = gm / 2 ^ 21 := by
    rw [and_0x1FF, Nat.shiftRight_eq_div_pow, Nat.shiftRight_eq_div_pow]
    omega
  unfold ensureGuestMachineMapped
  simp only [if_neg (Nat.not_lt.mpr hlo), if_neg (Nat.not_le.mpr hlvl3)]
  refine (childTable_spec h h.machine hlvl3 .pageAlloc _).bind ?_
  rintro ⟨c, st₁⟩ ⟨own₁, free₁, hbuild, hc, hsame⟩
  simp only [hasAny_unpack, MempermIndex.toNat]
  -- the entry of the region is free, or a leaf that was written for this region
  rcases hbuild.inv.forest.leaf hc hlvl2 with hz | hleaf
  · rw [ptFormat_zero] at hz
    have hram : RAM_START ≤ gm / 2 ^ 21 * 2 ^ 21 := by
      simp only [RAM_START] at *
      omega
    have hlt : packPtEntry
      ⟨gm / 2 ^ 21 * 2 ^ 21 + GUEST_MEMORY_OFFSET, machinePermissions⟩ < 2 ^ 54 :=
      packPtEntry_lt (by simp only [GUEST_MEMORY_OFFSET]; omega) (by decide)
    have hgood := machineLeaf_pack hram
    obtain ⟨hset, hupd⟩ := hbuild.inv.setLeaf_builds hc hlvl2 (lt_trans hlt (by decide))
      (ne_zero_of_testBit hgood.v) (by rw [hkey]; exact hgood)
    rw [hkey] at hupd
    rw [hz]
    simp only [Nat.zero_testBit, Bool.false_eq_true, if_false, regionBase_eq, regionByte_eq]
    -- the message and the fence leave the tables alone
    have hs := (SameMem.print (lazyMessage "2" (gm / 2 ^ 21 * 2 ^ 21)) (st₁.setEntry c
      ((gm >>> 21) &&& 0x1FF) (packPtEntry
        ⟨gm / 2 ^ 21 * 2 ^ 21 + GUEST_MEMORY_OFFSET, machinePermissions⟩))).trans (SameMem.fence _)
    refine post_ok.mpr ⟨Or.inl rfl, rfl, own₁, free₁, _, (hbuild.trans hset).same hs,
      (hupd.of_same hsame).same hs, ?_⟩
    intro hnc
    cases hnc
  · have hgood : MachineLeaf (gm / 2 ^ 21) (st₁.entry c ((gm >>> 21) &&& 0x1FF)) := by
      rw [← hkey]
      exact hleaf
    have hmaps : Maps st₁ own₁ .machine (gm / 2 ^ 21) (st₁.entry c ((gm >>> 21) &&& 0x1FF)) :=
      ⟨c, by rw [hdiv]; exact hc, by rw [hmod], ne_zero_of_testBit hgood.v⟩
    rw [hgood.v, if_pos rfl, hgood.address (by omega), regionByte_eq]
    exact post_ok.mpr ⟨Or.inr rfl, rfl, own₁, free₁, _, hbuild,
      (Maps.update_self hbuild.inv hmaps).of_same hsame, fun _ => (hsame _ _ _).mp hmaps⟩

/-- Below the guest's memory nothing is done, -/
theorem ensureGuestMachineMapped_tooLow {machine : Int} {gm : Nat} (h : gm < RAM_START) :
    ensureGuestMachineMapped L machine gm st = .ok (.tooLow, none, st) := by
  unfold ensureGuestMachineMapped
  rw [if_pos h]

/-- nor above what Sv39 can address. -/
theorem ensureGuestMachineMapped_tooHigh {machine : Int} {gm : Nat} (h : 2 ^ 39 ≤ gm) :
    ensureGuestMachineMapped L machine gm st = .ok (.tooHigh, none, st) := by
  have hlo : ¬ gm < RAM_START := by
    simp only [RAM_START]
    omega
  have hhi : 512 ≤ gm >>> 30 := by
    rw [Nat.shiftRight_eq_div_pow]
    omega
  unfold ensureGuestMachineMapped
  simp only [if_neg hlo, if_pos hhi]

/-! ### The shadow table -/

/-- The permissions `update_shadow_pt` keeps of the leaf `old` when it maps the page of `hm`. -/
def keptPermissions (old hm : Nat) : Nat :=
  if old / 1024 = hm / 4096 then old % 1024 else permbit .v ||| permbit .u

/-- What `update_shadow_pt` makes of the leaf `old` for an access of type `acc` to the host address
    `hm`. -/
def shadowEntry (old hm : Nat) (acc : MempermIndex) : Nat :=
  hm / 4096 * 1024 + (keptPermissions old hm ||| (permbit acc ||| permbit .r))

/-- The kinds of access a page fault can have. -/
def IsAccess (acc : MempermIndex) : Prop := acc = .r ∨ acc = .w ∨ acc = .x

/-- Permissions stay within their ten bits. -/
theorem or_lt_1024 {x y : Nat} (hx : x < 1024) (hy : y < 1024) : x ||| y < 1024 :=
  Nat.or_lt_two_pow (n := 10) hx hy

/-- So do the ones kept from the old entry, -/
theorem keptPermissions_lt (old hm : Nat) : keptPermissions old hm < 1024 := by
  unfold keptPermissions
  split
  · exact Nat.mod_lt _ (by decide)
  · decide

/-- and the ones of the new entry. -/
theorem shadowEntry_perm_lt (old hm : Nat) (acc : MempermIndex) :
    keptPermissions old hm ||| (permbit acc ||| permbit .r) < 1024 :=
  or_lt_1024 (keptPermissions_lt old hm) (or_lt_1024 (permbit_lt acc) (permbit_lt .r))

/-- The new entry points at the page of `hm`, -/
theorem shadowEntry_div (old hm : Nat) (acc : MempermIndex) :
    shadowEntry old hm acc / 1024 = hm / 4096 := by
  have h := shadowEntry_perm_lt old hm acc
  unfold shadowEntry
  omega

/-- with the old permissions, the access granted now, and R. -/
theorem shadowEntry_mod (old hm : Nat) (acc : MempermIndex) :
    shadowEntry old hm acc % 1024 =
      keptPermissions old hm ||| (permbit acc ||| permbit .r) := by
  have h := shadowEntry_perm_lt old hm acc
  unfold shadowEntry
  omega

/-- The permission bits of the new leaf. -/
theorem testBit_shadowEntry (old hm : Nat) (acc : MempermIndex) {j : Nat} (hj : j < 10) :
    (shadowEntry old hm acc).testBit j =
      ((keptPermissions old hm).testBit j ||
        ((permbit acc).testBit j || (permbit .r).testBit j)) := by
  rw [← testBit_mod_1024 _ hj, shadowEntry_mod, Nat.testBit_or, Nat.testBit_or]

/-- What is kept of a good leaf has `V` and `U`. -/
theorem testBit_keptPermissions {old hm : Nat} (hlo : GUEST_BASE ≤ hm)
    (hold : old ≠ 0 → ShadowLeaf old) :
    (keptPermissions old hm).testBit 0 = true ∧ (keptPermissions old hm).testBit 4 = true := by
  unfold keptPermissions
  split
  · have hne : old ≠ 0 := by
      rintro rfl
      simp only [GUEST_BASE, RAM_START, GUEST_MEMORY_OFFSET] at hlo
      omega
    rw [testBit_mod_1024 old (by decide), testBit_mod_1024 old (by decide)]
    exact ⟨(hold hne).v, (hold hne).u⟩
  · decide

/-- The new leaf is a good one, if the old one was. -/
theorem shadowLeaf_shadowEntry {old hm : Nat} (acc : MempermIndex) (hlo : GUEST_BASE ≤ hm)
    (hhi : hm < 2 ^ 56) (hold : old ≠ 0 → ShadowLeaf old) :
      ShadowLeaf (shadowEntry old hm acc) := by
  obtain ⟨hv, hu⟩ := testBit_keptPermissions hlo hold
  have hr : (permbit .r).testBit 1 = true := by decide
  refine ⟨?_, ?_, ?_, ?_, ?_⟩
  · rw [shadowEntry_div]
    simp only [GUEST_BASE, RAM_START, GUEST_MEMORY_OFFSET] at *
    omega
  · have hlt := shadowEntry_perm_lt old hm acc
    unfold shadowEntry
    omega
  · rw [testBit_shadowEntry _ _ _ (by decide), hv, Bool.true_or]
  · rw [testBit_shadowEntry _ _ _ (by decide), hr, Bool.or_true, Bool.or_true]
  · rw [testBit_shadowEntry _ _ _ (by decide), hu, Bool.true_or]

/-- The end of `update_shadow_pt` writes one entry, or nothing. -/
theorem writeShadowLeaf_cases (parent vpn0 hmPage : Nat) (acc : MempermIndex) (st : Store) :
    writeShadowLeaf parent vpn0 hmPage acc st = (.notChanged, st) ∨
      ∃ v, writeShadowLeaf parent vpn0 hmPage acc st =
        (.success, (st.setEntry parent vpn0 v).vmemFence) := by
  have hcases : ∀ (b : Bool) (v : Nat),
      (if b then (PageFaultHandlerResult.notChanged, st)
        else (.success, (st.setEntry parent vpn0 v).vmemFence)) = (.notChanged, st) ∨
      ∃ w, (if b then (PageFaultHandlerResult.notChanged, st)
        else (.success, (st.setEntry parent vpn0 v).vmemFence)) =
          (.success, (st.setEntry parent vpn0 w).vmemFence) := by
    intro b v
    cases b with
    | true  => exact Or.inl rfl
    | false => exact Or.inr ⟨v, rfl⟩
  exact hcases _ _

/-- On a leaf table of the shadow tree, the entry is replaced by `shadowEntry`. -/
theorem writeShadowLeaf_spec (h : VmInv L root st own free ∅) {p k i hm : Nat} {acc : MempermIndex}
    (hp : own p = some ⟨.shadow, 0, k⟩) (hi : i < 512) (hlo : GUEST_BASE ≤ hm) (hhi : hm < 2 ^ 56)
    (hacc : IsAccess acc) :
    let r := writeShadowLeaf p i (hm / 4096 * 4096) acc st
    (r.1 = .success ∨ r.1 = .notChanged ∧ (st.entry p i).testBit acc.toNat = true) ∧
      Builds L root st free r.2 own free 0 ∧
      MapsUpdate st own r.2 own .shadow (k * 512 + i) (shadowEntry (st.entry p i) hm acc) := by
  have hdiv : (k * 512 + i) / 512 = k := by omega
  have hmod : (k * 512 + i) % 512 = i := by omega
  have hold : st.entry p i ≠ 0 → ShadowLeaf (st.entry p i) := by
    intro hne
    rcases h.forest.leaf hp hi with hz | hleaf
    · exact absurd hz hne
    · exact hleaf
  have hgood := shadowLeaf_shadowEntry acc hlo hhi hold
  obtain ⟨hbuild, hupd⟩ := h.setLeaf_builds hp hi (lt_trans hgood.fits (by decide))
    (ne_zero_of_testBit hgood.v) hgood
  have hfence := SameMem.fence (st.setEntry p i (shadowEntry (st.entry p i) hm acc))
  have hset := And.intro (hbuild.same hfence) (hupd.same hfence)
  have hpack : packPtEntry ⟨hm / 4096 * 4096,
      keptPermissions (st.entry p i) hm ||| (permbit acc ||| permbit .r)⟩ =
        shadowEntry (st.entry p i) hm acc := by
    rw [packPtEntry_eq (shadowEntry_perm_lt _ _ _), Nat.mul_div_cancel _ (by decide)]
    rfl
  -- the code compares page addresses where `keptPermissions` compares page numbers
  have hpage : (unpackPtEntry (st.entry p i)).address = hm / 4096 * 4096 ↔
      st.entry p i / 1024 = hm / 4096 := by
    rw [unpackPtEntry_address]
    by_cases hz : st.entry p i = 0
    · rw [hz]
      simp only [GUEST_BASE, RAM_START, GUEST_MEMORY_OFFSET] at hlo
      omega
    · have hfits := (hold hz).fits
      omega
  unfold writeShadowLeaf
  by_cases hsame : st.entry p i / 1024 = hm / 4096
  · have hkept : keptPermissions (st.entry p i) hm = st.entry p i % 1024 := if_pos hsame
    simp only [hpage.mpr hsame, ne_eq, not_true_eq_false, if_false, hasAny_unpack]
    by_cases hbit : (st.entry p i).testBit acc.toNat = true
    · -- nothing to add: the entry has `R` and the bit of the access
      rw [if_pos hbit]
      have hz : st.entry p i ≠ 0 := ne_zero_of_testBit hbit
      have hr : (st.entry p i % 1024).testBit MempermIndex.r.toNat = true := by
        rw [testBit_mod_1024 _ (by decide)]
        exact (hold hz).r
      have hb : (st.entry p i % 1024).testBit acc.toNat = true := by
        rw [testBit_mod_1024 _ acc.toNat_lt]
        exact hbit
      have heq : shadowEntry (st.entry p i) hm acc = st.entry p i := by
        unfold shadowEntry
        rw [hkept, ← Nat.lor_assoc, or_permbit_of_testBit hb, or_permbit_of_testBit hr, ← hsame]
        omega
      refine ⟨Or.inr ⟨rfl, hbit⟩, Builds.refl h, ?_⟩
      rw [heq]
      exact Maps.update_self h ⟨p, by rw [hdiv]; exact hp, by rw [hmod], hz⟩
    · rw [if_neg hbit, unpackPtEntry_permissions, ← hkept, hpack]
      exact ⟨Or.inl rfl, hset⟩
  · have haddr : (unpackPtEntry (st.entry p i)).address ≠ hm / 4096 * 4096 :=
      fun hc => hsame (hpage.mp hc)
    have hkept : permbit .v ||| permbit .u = keptPermissions (st.entry p i) hm :=
      (if_neg hsame).symm
    have hfresh : hasAny (permbit .v ||| permbit .u) (permbit acc) = false := by
      rcases hacc with rfl | rfl | rfl <;> decide
    simp only [if_pos haddr, hfresh, Bool.false_eq_true, if_false]
    rw [hkept, hpack]
    exact ⟨Or.inl trivial, hset⟩

/-- **The shadow builder.**  For an address Sv39 can index, `update_shadow_pt` replaces the leaf of
    the page of `gu` by `shadowEntry`; `old` is what the shadow table held there before, and grants
    the access already if no change is reported. -/
theorem updateShadowPt_spec (h : VmInv L root st own free ∅) (hroot : root ≠ 0) {gu hm : Nat}
    {acc : MempermIndex} (hgu : gu < 2 ^ 39) (hlow : gu % 4096 = hm % 4096) (hlo : GUEST_BASE ≤ hm)
    (hhi : hm < 2 ^ 56) (hacc : IsAccess acc) :
    (updateShadowPt L root gu hm acc st).Post
      (fun e => e = .shadowTableAlloc ∧ pagesLeft st free < 2)
      (fun r => (r.1 = .success ∨ r.1 = .notChanged) ∧
        ∃ own' free' old, Builds L root st free r.2 own' free' 2 ∧
          (∀ e, Maps st own .shadow (gu / 4096) e ↔ e = old ∧ old ≠ 0) ∧
          MapsUpdate st own r.2 own' .shadow (gu / 4096) (shadowEntry old hm acc) ∧
          (r.1 = .notChanged → old.testBit acc.toNat = true)) := by
  have hvpn2 : gu >>> 30 < 512 := by
    rw [Nat.shiftRight_eq_div_pow]
    omega
  have hvpn1 : (gu >>> 21) &&& 0x1FF < 512 := by
    rw [and_0x1FF]
    exact Nat.mod_lt _ (by decide)
  have hvpn0 : (gu >>> 12) &&& 0x1FF < 512 := by
    rw [and_0x1FF]
    exact Nat.mod_lt _ (by decide)
  have hdiv : gu / 4096 / 512 = (0 * 512 + gu >>> 30) * 512 + ((gu >>> 21) &&& 0x1FF) := by
    rw [and_0x1FF, Nat.shiftRight_eq_div_pow, Nat.shiftRight_eq_div_pow]
    omega
  have hmod : gu / 4096 % 512 = (gu >>> 12) &&& 0x1FF := by
    rw [and_0x1FF, Nat.shiftRight_eq_div_pow]
  have hkey : ((0 * 512 + gu >>> 30) * 512 + ((gu >>> 21) &&& 0x1FF)) * 512 +
      ((gu >>> 12) &&& 0x1FF) = gu / 4096 := by
    rw [← hdiv, ← hmod]
    omega
  have hshift : hm >>> PGSHIFT <<< PGSHIFT = hm / 4096 * 4096 := by
    rw [Nat.shiftRight_eq_div_pow, Nat.shiftLeft_eq]
    rfl
  -- the three indices of the code are the digits of the page number
  unfold updateShadowPt
  rw [and_0xFFF, and_0xFFF, if_neg (not_not.mpr hlow), hshift]
  simp only [if_neg (Nat.not_le.mpr hvpn2)]
  -- a page for each of the two inner levels, at most; then the leaf is written
  refine Post.bind ((childTable_spec h (h.shadow_of_ne_zero hroot) hvpn2 _ _).mono
    (fun e he => ⟨he.1, by omega⟩) (fun _ hr => hr)) ?_
  rintro ⟨c, st₁⟩ ⟨own₁, free₁, hb₁, hc, hsame₁⟩
  refine Post.bind ((childTable_spec hb₁.inv hc hvpn1 _ _).mono (fun e he => ⟨he.1, ?_⟩)
    (fun _ hr => hr)) ?_
  · have hl := hb₁.left
    omega
  rintro ⟨c', st₂⟩ ⟨own₂, free₂, hb₂, hc', hsame₂⟩
  obtain ⟨hres, hb₃, hupd⟩ := writeShadowLeaf_spec hb₂.inv hc' hvpn0 hlo hhi hacc
  have hsame : ∀ y key e, Maps st₂ own₂ y key e ↔ Maps st own y key e :=
    fun y key e => (hsame₂ y key e).trans (hsame₁ y key e)
  refine post_ok.mpr ⟨hres.imp id And.left, own₂, free₂, st₂.entry c' ((gu >>> 12) &&& 0x1FF),
    (hb₁.trans hb₂).trans hb₃, ?_, ?_, ?_⟩
  · intro e
    rw [← hsame]
    constructor
    · rintro ⟨t, ht, he, hne⟩
      rw [hdiv] at ht
      rw [hb₂.inv.forest.inj ht hc', hmod] at he
      exact ⟨he.symm, by rw [he]; exact hne⟩
    · intro he
      obtain ⟨heq, hne⟩ := he
      rw [heq]
      exact ⟨c', by rw [hdiv]; exact hc', by rw [hmod], hne⟩
  · rw [hkey] at hupd
    exact hupd.of_same hsame
  · intro hnc
    rcases hres with hs | ⟨-, hbit⟩
    · rw [hs] at hnc
      cases hnc
    · exact hbit

/-- Addresses above Sv39 are refused before any table is read. -/
theorem updateShadowPt_tooHigh {gu hm : Nat} {acc : MempermIndex} (hgu : 2 ^ 39 ≤ gu)
    (hlow : gu % 4096 = hm % 4096) : updateShadowPt L root gu hm acc st = .ok (.tooHigh, st) := by
  have hvpn2 : 512 ≤ gu >>> 30 := by
    rw [Nat.shiftRight_eq_div_pow]
    omega
  unfold updateShadowPt
  rw [and_0xFFF, and_0xFFF, if_neg (not_not.mpr hlow)]
  simp only [if_pos hvpn2]

end RiscvHypervisor
