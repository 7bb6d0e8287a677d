import RiscvHypervisor.Proof.Tables

namespace RiscvHypervisor

open RadixForest

/-!
# Walking the two tables

The MMU's walk of the machine and the shadow table, read off the table invariant: from the machine
root it ends in a 2 MiB leaf (`walk_machine`), from the shadow root in a 4 KiB leaf
(`walk_shadow`), in both cases exactly with the entry the tree holds (`Maps`) at the page
number of the address.
-/

/-- Page number of `va` among the 2 MiB regions the machine table covers. -/
def regionOf (va : Nat) : Nat := va / 2 ^ 21 % 2 ^ 18

/-- Page number of `va` among the 4 KiB pages the shadow table covers. -/
def pageOf (va : Nat) : Nat := va / 2 ^ 12 % 2 ^ 27

theorem regionOf_of_lt {va : Nat} (h : va < 2 ^ 39) : regionOf va = va / 2 ^ 21 := by
  unfold regionOf
  omega

theorem regionOf_eq (va : Nat) : regionOf va = Sv39.vpn va 2 * 512 + Sv39.vpn va 1 := by
  unfold regionOf Sv39.vpn
  omega

theorem pageOf_eq (va : Nat) :
    pageOf va = (Sv39.vpn va 2 * 512 + Sv39.vpn va 1) * 512 + Sv39.vpn va 0 := by
  unfold pageOf Sv39.vpn
  omega

variable {L : Layout} {root : Nat} {st : Store} {own : Owner Tree} {free : List Nat} {D : Set Nat}

/-! ### One level -/

/-- At an inner table the walk stops at a zero entry and otherwise goes on in the child table. -/
theorem walk_inner (h : VmInv L root st own free D) {t k hh : Nat} {x : Tree}
    (ht : own t = some ⟨x, hh + 1, k⟩) (va level : Nat) :
    (st.entry t (Sv39.vpn va (level + 1)) = 0 ∧
      Sv39.walk st.load64 va (level + 1) t = none) ∨
    ∃ c, own c = some ⟨x, hh, k * 512 + Sv39.vpn va (level + 1)⟩ ∧
      Sv39.walk st.load64 va (level + 1) t = Sv39.walk st.load64 va level c := by
  have hvpn := Sv39.vpn_lt va (level + 1)
  have hread : st.load64 (t + 8 * Sv39.vpn va (level + 1)) =
      st.entry t (Sv39.vpn va (level + 1)) := rfl
  rcases h.forest.inner ht hvpn with hz | ⟨c, hchild, hc, -⟩
  · left
    refine ⟨hz, ?_⟩
    unfold Sv39.walk
    rw [hread, show st.entry t (Sv39.vpn va (level + 1)) = 0 from hz]
    simp
  · right
    obtain ⟨hv, hl, hlt, haddr⟩ := ptChild_eq_some hchild
    refine ⟨c, hc, ?_⟩
    rw [← haddr, unpackPtEntry_address_eq_ppn hlt, Sv39.walk]
    simp only [hread, Sv39.bitV, hv, hl, Bool.not_true, Bool.false_eq_true, if_false]

/-- At a leaf table the walk ends with its entry, unless that is zero. -/
theorem walk_leaf (h : VmInv L root st own free D) {t k : Nat} {x : Tree}
    (ht : own t = some ⟨x, 0, k⟩) (va level : Nat) :
    Sv39.walk st.load64 va level t =
      if st.entry t (Sv39.vpn va level) = 0 then none
      else some ⟨level, t + 8 * Sv39.vpn va level, st.entry t (Sv39.vpn va level)⟩ := by
  have hread : st.load64 (t + 8 * Sv39.vpn va level) = st.entry t (Sv39.vpn va level) := rfl
  rcases h.forest.leaf ht (Sv39.vpn_lt va level) with hz | hleaf
  · rw [ptFormat_zero] at hz
    rw [if_pos hz]
    cases level <;> (unfold Sv39.walk; rw [hread, hz]; simp)
  · obtain ⟨hv, hl, -⟩ := leafOk_isLeaf hleaf
    rw [if_neg (ne_zero_of_testBit hv)]
    cases level <;> (unfold Sv39.walk; simp [hread, hv, hl])

/-- At the leaf table of page number `key`, the walk ends with what the tree holds there. -/
theorem walk_leaf_iff (h : VmInv L root st own free D) {c key va level : Nat} {x : Tree}
    (hc : own c = some ⟨x, 0, key / 512⟩) (hmod : key % 512 = Sv39.vpn va level) (l : Sv39.Leaf) :
    Sv39.walk st.load64 va level c = some l ↔
      l.level = level ∧ Maps st own x key l.pte ∧
        ∃ t, own t = some ⟨x, 0, key / 512⟩ ∧ l.slot = t + 8 * (key % 512) := by
  rw [walk_leaf h hc va level, ← hmod]
  constructor
  · intro hl
    split at hl
    · cases hl
    · rename_i hne
      cases hl
      exact ⟨rfl, ⟨c, hc, rfl, hne⟩, c, hc, rfl⟩
  · rintro ⟨hlev, ⟨t, ht, he, hne⟩, t', ht', hslot⟩
    -- the table of a page number is unique
    rw [h.forest.inj ht hc] at he
    rw [h.forest.inj ht' hc] at hslot
    rw [he, if_neg hne, ← hslot, ← hlev]

/-- The child place of an inner table belongs to the table its entry points to. -/
theorem entry_ne_zero_of_child (h : VmInv L root st own free ∅) {t c k i hh : Nat} {x : Tree}
    (ht : own t = some ⟨x, hh + 1, k⟩) (hi : i < 512)
    (hc : own c = some ⟨x, hh, k * 512 + i⟩) : st.entry t i ≠ 0 := by
  intro hz
  exact h.forest.no_child ht hi hz (by simp) hc

/-- The table below an entry is found if there is one. -/
theorem childTable_hit (h : VmInv L root st own free ∅) {t k i c hh : Nat} {x : Tree}
    (ht : own t = some ⟨x, hh + 1, k⟩) (hi : i < 512) (hc : own c = some ⟨x, hh, k * 512 + i⟩)
    (onNull : Panic) (message : List (BitVec 8)) :
    childTable L onNull message t i st = .ok (c, st) := by
  rcases h.forest.inner ht hi with hz | ⟨c', hchild, hc', -⟩
  · exact absurd hz (entry_ne_zero_of_child h ht hi hc)
  · obtain ⟨hv, -, -, haddr⟩ := ptChild_eq_some hchild
    unfold childTable
    simp only [hasAny_unpack, MempermIndex.toNat, hv, haddr, Bool.not_true, Bool.false_eq_true,
      if_false]
    rw [h.forest.inj hc' hc]

/-! ### The machine table -/

/-- **The machine table.**  The MMU's walk from the machine root is the content of the tree at
    the address's 2 MiB region. -/
theorem walk_machine (h : VmInv L root st own free ∅) (va : Nat) (l : Sv39.Leaf) :
    Sv39.walk st.load64 va 2 (L.machineRoot 0) = some l ↔
      l.level = 1 ∧ Maps st own .machine (regionOf va) l.pte ∧
        ∃ t, own t = some ⟨.machine, 0, regionOf va / 512⟩ ∧
          l.slot = t + 8 * (regionOf va % 512) := by
  have hv1 := Sv39.vpn_lt va 1
  have hdiv : regionOf va / 512 = Sv39.vpn va 2 := by rw [regionOf_eq]; omega
  have hmod : regionOf va % 512 = Sv39.vpn va 1 := by rw [regionOf_eq]; omega
  -- the root entry is zero, or points to the one table that holds the region
  rcases walk_inner h h.machine va 1 with ⟨hz, hw⟩ | ⟨c, hc, hw⟩
  · rw [hw]
    refine ⟨by simp, ?_⟩
    rintro ⟨-, ⟨t, ht, -⟩, -⟩
    rw [hdiv] at ht
    exact absurd hz (entry_ne_zero_of_child h h.machine (Sv39.vpn_lt va 2) (c := t)
      (by simpa using ht))
  · simp only [Nat.zero_mul, Nat.zero_add] at hc
    rw [← hdiv] at hc
    rw [hw]
    exact walk_leaf_iff h hc hmod l

/-! ### The shadow table -/

/-- **The shadow table.**  The MMU's walk from the shadow root is the content of the tree at the
    address's 4 KiB page. -/
theorem walk_shadow (h : VmInv L root st own free ∅) (hroot : root ≠ 0) (va : Nat) (l : Sv39.Leaf) :
    Sv39.walk st.load64 va 2 root = some l ↔
      l.level = 0 ∧ Maps st own .shadow (pageOf va) l.pte ∧
        ∃ t, own t = some ⟨.shadow, 0, pageOf va / 512⟩ ∧ l.slot = t + 8 * (pageOf va % 512) := by
  have hown := h.shadow_of_ne_zero hroot
  have hv0 := Sv39.vpn_lt va 0
  have hdiv : pageOf va / 512 = Sv39.vpn va 2 * 512 + Sv39.vpn va 1 := by rw [pageOf_eq]; omega
  have hmod : pageOf va % 512 = Sv39.vpn va 0 := by rw [pageOf_eq]; omega
  -- a leaf table hangs below a table of level 1
  have hmid : ∀ t, own t = some ⟨.shadow, 0, pageOf va / 512⟩ →
      ∃ t', own t' = some ⟨.shadow, 1, Sv39.vpn va 2⟩ := by
    intro t ht
    obtain ⟨t', ht', -⟩ := h.forest.parent ht (by decide) (by simp)
    refine ⟨t', ?_⟩
    rw [ht', hdiv, ptFormat_width]
    have := Sv39.vpn_lt va 1
    congr 2
    omega
  rcases walk_inner h hown va 1 with ⟨hz, hw⟩ | ⟨c, hc, hw⟩
  · rw [hw]
    refine ⟨by simp, ?_⟩
    rintro ⟨-, ⟨t, ht, -⟩, -⟩
    obtain ⟨t', ht'⟩ := hmid t ht
    exact absurd hz (entry_ne_zero_of_child h hown (Sv39.vpn_lt va 2) (c := t')
      (by simpa using ht'))
  simp only [Nat.zero_mul, Nat.zero_add] at hc
  rcases walk_inner h hc va 0 with ⟨hz, hw'⟩ | ⟨c', hc', hw'⟩
  · rw [hw, hw']
    refine ⟨by simp, ?_⟩
    rintro ⟨-, ⟨t, ht, -⟩, -⟩
    rw [hdiv] at ht
    exact absurd hz (entry_ne_zero_of_child h hc (Sv39.vpn_lt va 1) ht)
  · rw [← hdiv] at hc'
    rw [hw, hw']
    exact walk_leaf_iff h hc' hmod l

end RiscvHypervisor
