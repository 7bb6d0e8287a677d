import RiscvHypervisor.Proof.GuestTable

namespace RiscvHypervisor

open ByteMem Except RadixForest

/-!
# The shadow table over a run of page faults

With the shadow table active, each page fault adds to one leaf.  Over a run of faults from an empty
table the leaves are exactly the composition of the guest's translation with that of the machine
table, in whatever order the faults come (`shadow_is_composition`).  Their permissions follow the
faults and not the guest's own leaf, so that they stay below it only as long as every fault is one
the guest's leaf allows (`shadow_within_guest`).
-/

/-- A page fault that was handled: the kind of the access and its address. -/
structure Fault where
  access : MempermIndex
  address : Nat
deriving DecidableEq, Repr

/-- Page faults handled one after the other, from `s` on.  In between the guest sets its registers
    and its program counter.  The list has the newest fault first. -/
inductive FaultRun (L : Layout) (s : State) : List Fault → State → Prop where
  | start : FaultRun L s [] s
  | fault {faults : List Fault} {s₁ s₂ : State} {acc : MempermIndex}
      {result : PageFaultHandlerResult} {va : Word} (before : FaultRun L s faults s₁)
      (regs : SavedRegisters) (pc : Word) (stale : Nat → Nat)
      (handled : handlePageFault L stale acc (s₁.guestRun regs pc) = .ok (result, va, s₂)) :
      FaultRun L s (⟨acc, va.toNat⟩ :: faults) s₂

variable {L : Layout} {s s' : State} {faults : List Fault}

/-! ### What a run leaves alone -/

/-- What is the same in every state of a run of faults. -/
structure FaultFrame (L : Layout) (s s' : State) : Prop where
  core : Core L s'
  csr : s'.guest.csr = s.guest.csr
  table : s'.guest.shadowPageTable = s.guest.shadowPageTable
  active : s'.guest.shadowPtActive = s.guest.shadowPtActive
  ram : SameGuestRam s.store s'.store

theorem Core.guestRun (h : Core L s) (regs : SavedRegisters) (pc : Word) :
    Core L (s.guestRun regs pc) :=
  h.congr rfl rfl (SameMem.refl _) rfl rfl

/-- One more fault: the frame, and the effect on the shadow table in terms of the state the run
    started from. -/
theorem FaultFrame.fault (h : FaultFrame L s s') {s₂ : State} {acc : MempermIndex}
    {result : PageFaultHandlerResult} {va : Word} {regs : SavedRegisters} {pc : Word}
    {stale : Nat → Nat}
    (handled : handlePageFault L stale acc (s'.guestRun regs pc) = .ok (result, va, s₂)) :
    FaultFrame L s s₂ ∧ IsAccess acc ∧ ∃ gm,
      (s.guest.shadowPtActive = true → ∀ p, p < 2 ^ 27 →
        shadowPte s₂.store s.guest.shadowPageTable p =
          if p = va.toNat / 4096 ∧ InGuestRam gm then
            some (shadowEntry ((shadowPte s'.store s.guest.shadowPageTable p).getD 0)
              (gm + GUEST_MEMORY_OFFSET) acc)
          else shadowPte s'.store s.guest.shadowPageTable p) ∧
      (s.guest.shadowPtActive = true →
        WalkInRam (guestRead s.store) s.guest.csr.satpPpn va.toNat →
        resolveGu (guestRead s.store) s.guest.csr.satpPpn va.toNat = some gm) := by
  have hspec := handlePageFault_spec (h.core.guestRun regs pc) stale acc
  rw [handled, post_ok] at hspec
  obtain ⟨hacc, gm, heff, hres⟩ := hspec
  have hguest : (s'.guestRun regs pc).guest = s'.guest := rfl
  have hstore : (s'.guestRun regs pc).store = s'.store := rfl
  have hshadow := heff.shadow
  rw [hguest, hstore, h.active, h.table] at hshadow
  rw [hguest, hstore, h.active, h.csr, h.ram.guestRead_eq] at hres
  refine ⟨⟨heff.core, ?_, ?_, ?_, h.ram.trans heff.ram⟩, hacc, gm, hshadow, hres⟩
  · rw [heff.csr, hguest, h.csr]
  · rw [heff.table, hguest, h.table]
  · rw [heff.active, hguest, h.active]

theorem FaultRun.frame (h : Core L s) (run : FaultRun L s faults s') : FaultFrame L s s' := by
  induction run with
  | start => exact ⟨h, rfl, rfl, rfl, SameGuestRam.refl _⟩
  | fault before regs pc stale handled ih => exact (ih.fault handled).1

/-! ### The composition of the two translations -/

/-- Some fault of kind `acc` was on page `p`. -/
def faultedOn (faults : List Fault) (p : Nat) (acc : MempermIndex) : Bool :=
  faults.any (fun f => f.address / 4096 == p && f.access == acc)

/-- `V`, `U`, `R`, and the kinds of the faults on page `p`. -/
def faultPermissions (faults : List Fault) (p : Nat) : Nat :=
  permbit .v ||| permbit .u ||| permbit .r |||
    (if faultedOn faults p .w then permbit .w else 0) |||
    (if faultedOn faults p .x then permbit .x else 0)

/-- **The composition.**  Page `p`, if there was a fault on it, goes where the guest's table sends
    it, moved by the offset of the machine table. -/
def composition (rd : Nat → Nat) (satpPpn : BitVec 44) (faults : List Fault) (p : Nat) :
    Option Nat :=
  match resolveGu rd satpPpn (p * 4096) with
  | none    => none
  | some gm =>
    if InGuestRam gm ∧ ∃ f ∈ faults, f.address / 4096 = p then
      some (packPtEntry ⟨gm + GUEST_MEMORY_OFFSET, faultPermissions faults p⟩)
    else none

theorem faultPermissions_lt (faults : List Fault) (p : Nat) : faultPermissions faults p < 1024 := by
  unfold faultPermissions
  cases faultedOn faults p .w <;> cases faultedOn faults p .x <;> decide

/-- Before the first fault on a page, only `V`, `U` and `R` are due. -/
theorem faultPermissions_of_forall_ne {p : Nat} (h : ∀ f ∈ faults, f.address / 4096 ≠ p) :
    faultPermissions faults p = permbit .v ||| permbit .u ||| permbit .r := by
  have hno : ∀ acc, faultedOn faults p acc = false := by
    intro acc
    unfold faultedOn
    rw [List.any_eq_false]
    intro f hf hc
    rw [Bool.and_eq_true, beq_iff_eq] at hc
    exact h f hf hc.1
  unfold faultPermissions
  rw [hno, hno]
  rfl

/-- A fault adds its kind to the permissions of its own page, -/
theorem faultPermissions_cons_same {f : Fault} (hacc : IsAccess f.access) :
    faultPermissions (f :: faults) (f.address / 4096) =
      faultPermissions faults (f.address / 4096) ||| (permbit f.access ||| permbit .r) := by
  have hcons : ∀ acc, faultedOn (f :: faults) (f.address / 4096) acc =
      (f.access == acc || faultedOn faults (f.address / 4096) acc) := by
    intro acc
    unfold faultedOn
    rw [List.any_cons, beq_self_eq_true, Bool.true_and]
  unfold faultPermissions
  rw [hcons, hcons]
  generalize faultedOn faults (f.address / 4096) .w = w
  generalize faultedOn faults (f.address / 4096) .x = x
  rcases hacc with hf | hf | hf <;> rw [hf] <;> cases w <;> cases x <;> decide

/-- and nothing to those of another page. -/
theorem faultPermissions_cons_ne {f : Fault} {p : Nat} (hp : f.address / 4096 ≠ p) :
    faultPermissions (f :: faults) p = faultPermissions faults p := by
  have hcons : ∀ acc, faultedOn (f :: faults) p acc = faultedOn faults p acc := by
    intro acc
    unfold faultedOn
    rw [List.any_cons, beq_eq_false_iff_ne.mpr hp, Bool.false_and, Bool.false_or]
  unfold faultPermissions
  rw [hcons, hcons]

/-- The leaf `update_shadow_pt` writes for the page at `gm`, given what was there before. -/
theorem shadowEntry_eq_pack {f : Fault} {gm off old : Nat} (hacc : IsAccess f.access)
    (hlo : RAM_START ≤ gm) (hpage : gm % 4096 = 0) (hoff : off < 4096)
    (hold : old = packPtEntry ⟨gm + GUEST_MEMORY_OFFSET,
        faultPermissions faults (f.address / 4096)⟩ ∨
      old = 0 ∧ ∀ f' ∈ faults, f'.address / 4096 ≠ f.address / 4096) :
    shadowEntry old (gm + off + GUEST_MEMORY_OFFSET) f.access =
      packPtEntry ⟨gm + GUEST_MEMORY_OFFSET,
        faultPermissions (f :: faults) (f.address / 4096)⟩ := by
  have hdiv : (gm + off + GUEST_MEMORY_OFFSET) / 4096 = (gm + GUEST_MEMORY_OFFSET) / 4096 := by
    simp only [GUEST_MEMORY_OFFSET]
    omega
  rw [packPtEntry_eq (faultPermissions_lt _ _), faultPermissions_cons_same hacc]
  unfold shadowEntry keptPermissions
  rw [hdiv]
  congr 1
  have hlt := faultPermissions_lt faults (f.address / 4096)
  rcases hold with rfl | ⟨rfl, hnone⟩
  · rw [packPtEntry_eq hlt, if_pos (by omega), Nat.mul_add_mod_self_right, Nat.mod_eq_of_lt hlt]
  · rw [if_neg (by simp only [RAM_START, GUEST_MEMORY_OFFSET] at *; omega),
      faultPermissions_of_forall_ne hnone]
    rcases hacc with hf | hf | hf <;> rw [hf] <;> decide

theorem composition_of_resolveGu {rd : Nat → Nat} {satpPpn : BitVec 44} {p gm : Nat}
    (hgm : resolveGu rd satpPpn (p * 4096) = some gm) :
    composition rd satpPpn faults p =
      if InGuestRam gm ∧ ∃ f ∈ faults, f.address / 4096 = p then
        some (packPtEntry ⟨gm + GUEST_MEMORY_OFFSET, faultPermissions faults p⟩)
      else none := by
  unfold composition
  rw [hgm]

/-- **One fault.**  The composition changes as `update_shadow_pt` changes the shadow table: on the
    page of the fault, if that is in guest RAM. -/
theorem composition_cons {rd : Nat → Nat} {satpPpn : BitVec 44} {f : Fault} {gm : Nat} (p : Nat)
    (hacc : IsAccess f.access) (hgm : resolveGu rd satpPpn f.address = some gm) :
    composition rd satpPpn (f :: faults) p =
      if p = f.address / 4096 ∧ InGuestRam gm then
        some (shadowEntry ((composition rd satpPpn faults p).getD 0) (gm + GUEST_MEMORY_OFFSET)
          f.access)
      else composition rd satpPpn faults p := by
  by_cases hp : p = f.address / 4096
  · subst hp
    obtain ⟨page, hres, hal, rfl⟩ := resolveGu_eq_some_iff.mp hgm
    have hoff : f.address % 4096 < 4096 := Nat.mod_lt _ (by decide)
    have hiff := inGuestRam_page hal hoff
    rw [composition_of_resolveGu hres, composition_of_resolveGu hres]
    by_cases hram : InGuestRam page
    · rw [if_pos ⟨hram, f, List.mem_cons_self, rfl⟩, if_pos ⟨rfl, hiff.mpr hram⟩]
      congr 1
      symm
      apply shadowEntry_eq_pack hacc hram.1 hal hoff
      -- an earlier fault has left an entry, which keeps its kinds; or the entry is new
      by_cases hprev : ∃ f' ∈ faults, f'.address / 4096 = f.address / 4096
      · left
        rw [if_pos ⟨hram, hprev⟩, Option.getD_some]
      · right
        rw [if_neg (fun hc => hprev hc.2), Option.getD_none]
        exact ⟨rfl, fun f' hf' hc => hprev ⟨f', hf', hc⟩⟩
    · rw [if_neg (fun hc => hram hc.1), if_neg (fun hc => hram (hiff.mp hc.2)),
        if_neg (fun hc => hram hc.1)]
  · rw [if_neg (fun hc => hp hc.1)]
    have hne : f.address / 4096 ≠ p := fun hc => hp hc.symm
    unfold composition
    rw [faultPermissions_cons_ne hne]
    simp only [List.exists_mem_cons_iff, hne, false_or]

/-- **The run.**  From an empty shadow table, the table of every state of a run is
    the composition. -/
theorem FaultRun.shadowPte_eq (h : Core L s) (active : s.guest.shadowPtActive = true)
    (hempty : ∀ p, p < 2 ^ 27 → shadowPte s.store s.guest.shadowPageTable p = none)
    (run : FaultRun L s faults s')
    (hram : ∀ f ∈ faults, WalkInRam (guestRead s.store) s.guest.csr.satpPpn f.address) :
    ∀ p, p < 2 ^ 27 → shadowPte s'.store s.guest.shadowPageTable p =
      composition (guestRead s.store) s.guest.csr.satpPpn faults p := by
  induction run with
  | start =>
    intro p hp
    rw [hempty p hp]
    unfold composition
    split
    · rfl
    · simp
  | @fault faults s₁ s₂ acc result va before regs pc stale handled ih =>
    intro p hp
    obtain ⟨-, hacc, gm, hshadow, hres⟩ := (before.frame h).fault handled
    have hgm := hres active (hram ⟨acc, va.toNat⟩ List.mem_cons_self)
    have hbefore := ih (fun f hf => hram f (List.mem_cons_of_mem _ hf)) p hp
    rw [hshadow active p hp, hbefore]
    exact (composition_cons (f := ⟨acc, va.toNat⟩) p hacc hgm).symm

/-- No page is mapped by a root without valid entries. -/
theorem shadowPte_of_empty {st : Store} {root : Nat}
    (empty : ∀ i, i < 512 → (st.entry root i).testBit 0 = false) (p : Nat) :
    shadowPte st root p = none := by
  have hroot : (st.load64 (root + 8 * Sv39.vpn (p * 4096) 2)).testBit Sv39.bitV = false :=
    empty _ (Sv39.vpn_lt _ _)
  unfold shadowPte
  rw [Sv39.walk]
  simp only [hroot, Bool.not_false, if_true, Option.map_none]

/-- The composition depends on the set of the faults only. -/
theorem composition_perm {rd : Nat → Nat} {satpPpn : BitVec 44} {faults' : List Fault}
    (hperm : faults.Perm faults') (p : Nat) :
    composition rd satpPpn faults' p = composition rd satpPpn faults p := by
  have hon : ∀ acc, faultedOn faults' p acc = faultedOn faults p acc :=
    fun acc => (hperm.any_eq).symm
  have hperms : faultPermissions faults' p = faultPermissions faults p := by
    unfold faultPermissions
    rw [hon, hon]
  unfold composition
  simp only [hperms, hperm.mem_iff]

theorem composition_eq_some_iff {rd : Nat → Nat} {satpPpn : BitVec 44} {p e : Nat} :
    composition rd satpPpn faults p = some e ↔
      ∃ gm, resolveGu rd satpPpn (p * 4096) = some gm ∧ InGuestRam gm ∧
        (∃ f ∈ faults, f.address / 4096 = p) ∧
        e = packPtEntry ⟨gm + GUEST_MEMORY_OFFSET, faultPermissions faults p⟩ := by
  cases hgm : resolveGu rd satpPpn (p * 4096) with
  | none =>
    unfold composition
    rw [hgm]
    simp
  | some gm =>
    rw [composition_of_resolveGu hgm, Option.ite_none_right_eq_some, Option.some_inj, eq_comm,
      and_assoc]
    simp only [Option.some_inj, exists_eq_left']

/-- Which pages the composition maps, in terms of the faulting addresses. -/
theorem composition_isSome_iff {rd : Nat → Nat} {satpPpn : BitVec 44} {p : Nat} :
    (∃ e, composition rd satpPpn faults p = some e) ↔
      ∃ f ∈ faults, f.address / 4096 = p ∧ ∃ gm, resolveGu rd satpPpn f.address = some gm ∧
        InGuestRam gm := by
  constructor
  · rintro ⟨e, he⟩
    obtain ⟨gm, hgm, hram, ⟨f, hf, rfl⟩, -⟩ := composition_eq_some_iff.mp he
    have hal := resolveGu_mod hgm
    rw [Nat.mul_mod_left] at hal
    have hoff : f.address % 4096 < 4096 := Nat.mod_lt _ (by decide)
    exact ⟨f, hf, rfl, gm + f.address % 4096, resolveGu_eq_some_iff.mpr ⟨gm, hgm, hal, rfl⟩,
      (inGuestRam_page hal hoff).mpr hram⟩
  · rintro ⟨f, hf, rfl, gm, hgm, hram⟩
    obtain ⟨page, hres, hal, rfl⟩ := resolveGu_eq_some_iff.mp hgm
    have hoff : f.address % 4096 < 4096 := Nat.mod_lt _ (by decide)
    exact ⟨_, composition_eq_some_iff.mpr
      ⟨page, hres, (inGuestRam_page hal hoff).mp hram, ⟨f, hf, rfl⟩, rfl⟩⟩

/-! ### A user program and its first fault -/

instance (rd : Nat → Nat) (satpPpn : BitVec 44) (gu : Nat) : Decidable (WalkInRam rd satpPpn gu) :=
  inferInstanceAs (Decidable (∀ t ∈ _, _))

/-- The guest's own leaf for `va`, by its table at `satpPpn`. -/
def guestLeaf (rd : Nat → Nat) (satpPpn : BitVec 44) (va : Nat) : Option Sv39.Leaf :=
  Sv39.walk rd va 2 (satpPpn.toNat * 4096)

/-- With two pages in use, one of them below the machine root, the shadow root is empty. -/
theorem VmInv.shadow_empty {root : Nat} {st : Store} {own : Owner Tree} {free : List Nat}
    (hvm : VmInv L root st own free ∅) (hroot : root ≠ 0) (htwo : st.nextUnallocatedIdx = 2)
    {c j : Nat} (hj : j < 512)
    (hc : entryChild (st.entry (L.machineRoot 0) j) = some c) :
    ∀ i, i < 512 → (st.entry root i).testBit 0 = false := by
  intro i hi
  have hown := hvm.shadow_of_ne_zero hroot
  obtain ⟨h', hh, hmachine, -⟩ := hvm.entryChild_cases hvm.machine hj hc
  rcases hvm.forest.inner hown hi with hz | ⟨c', -, hchild, -⟩
  · rw [show st.entry root i = 0 from hz]
    rfl
  · -- the machine table, the root and its child would be three pages
    have hpool : ∀ {t sl}, own t = some sl → sl ≠ ⟨.machine, 1, 0⟩ →
        ∃ a, a < 2 ∧ t = L.poolPage a := by
      intro t sl ht hsl
      have hin := hvm.alloc.used_pool t ⟨by simp [ht], by
        rintro rfl
        rw [hvm.machine] at ht
        exact hsl (Option.some.inj ht).symm⟩
      rw [htwo] at hin
      exact hin
    obtain ⟨a, ha, rfl⟩ := hpool hmachine (by simp; omega)
    obtain ⟨b, hb, rfl⟩ := hpool hown (by simp)
    obtain ⟨d, hd, rfl⟩ := hpool hchild (by simp)
    have hab : a ≠ b := by
      rintro rfl
      rw [hmachine] at hown
      cases hown
    have hbd : b ≠ d := by
      rintro rfl
      rw [hown] at hchild
      cases hchild
    have had : a ≠ d := by
      rintro rfl
      rw [hmachine] at hchild
      cases hchild
    omega

/-- What is to be computed of that guest as it enters user mode and fetches from `0x80000008`. -/
def sampleFetch (pte : Nat) (s : State) : Bool :=
  s.guest.shadowPtActive && s.store.nextUnallocatedIdx == 2 &&
    (entryChild (s.store.entry (sampleLayout.machineRoot 0) 2)).isSome &&
    s.guest.csr.satpPpn == 0x80010 &&
    decide (WalkInRam (guestRead s.store) 0x80010 0x80000008) &&
    guestLeaf (guestRead s.store) 0x80010 0x80000008 == some ⟨2, 0x80010010, pte⟩ &&
    resolveGu (guestRead s.store) 0x80010 0x80000008 == some 0x80000008 &&
    (handlePageFault sampleLayout (fun _ => 0) .x (s.guestRun (fun _ => 0) 0x80000008)).toOption.map
      (·.2.1) == some 0x80000008

/-- The fault of that fetch, from a reachable state with an empty shadow table. -/
theorem exists_fetchFault {pte : Nat}
    (hrun : (sampleRun 0 (sampleEnterUser (8 <<< 60 + 0x80010))
      (bootMain sampleLayout (sampleMachine (sampleUser pte)))).toOption.map (sampleFetch pte) =
        some true) :
    ∃ s s', Reachable sampleLayout s ∧ s.guest.shadowPtActive = true ∧
      (∀ i, i < 512 → (s.store.entry s.guest.shadowPageTable i).testBit 0 = false) ∧
      FaultRun sampleLayout s [⟨.x, 0x80000008⟩] s' ∧
      (∀ f ∈ [⟨.x, 0x80000008⟩], WalkInRam (guestRead s.store) s.guest.csr.satpPpn
        (Fault.address f)) ∧
      guestLeaf (guestRead s.store) s.guest.csr.satpPpn 0x80000008 = some ⟨2, 0x80010010, pte⟩ ∧
      resolveGu (guestRead s.store) s.guest.csr.satpPpn 0x80000008 = some 0x80000008 := by
  obtain ⟨s, hreach, hs⟩ := exists_reachable _ _ (sampleFetch pte) true (by decide) hrun
  simp only [sampleFetch, Bool.and_eq_true, beq_iff_eq, decide_eq_true_eq] at hs
  obtain ⟨⟨⟨⟨⟨⟨⟨hact, htwo⟩, hchild⟩, hppn⟩, hram⟩, hleaf⟩, hres⟩, hfault⟩ := hs
  obtain ⟨⟨result, va, s'⟩, hok, rfl⟩ := map_toOption_eq_some.mp hfault
  obtain ⟨c, hc⟩ := Option.isSome_iff_exists.mp hchild
  obtain ⟨own, free, hvm⟩ := hreach.inv.core.mem.vm
  have hroot := (hreach.inv.core.priv.active hact).2
  rw [← hppn] at hram hleaf hres
  refine ⟨s, s', hreach, hact, hvm.shadow_empty hroot htwo (by decide) hc,
    FaultRun.start.fault (fun _ => 0) 0x80000008 (fun _ => 0) hok, ?_, hleaf, hres⟩
  intro f hf
  rw [List.mem_singleton.mp hf]
  exact hram

/-! ### The results -/

/-- **Composition.**  From a shadow table without valid entries, over any run of page faults whose
    guest tables are in guest RAM:
    a page has a leaf exactly if a fault on it resolved to guest RAM; the leaf maps it to the host
    page of what `try_resolve_gu_to_gm` finds, with `V`, `U`, `R` and the kinds of the faults;
    another order of the faults gives the same leaves; the panic "Unmatched gu and hm lower bits"
    does not happen. -/
theorem shadow_is_composition (h : Reachable L s) (active : s.guest.shadowPtActive = true)
    (empty : ∀ i, i < 512 → (s.store.entry s.guest.shadowPageTable i).testBit 0 = false)
    (run : FaultRun L s faults s')
    (ram : ∀ f ∈ faults, WalkInRam (guestRead s.store) s.guest.csr.satpPpn f.address) :
    let rd := guestRead s.store
    let satpPpn := s.guest.csr.satpPpn
    let root := s.guest.shadowPageTable
    (∀ p, p < 2 ^ 27 →
      ((∃ e, shadowPte s'.store root p = some e) ↔
        ∃ f ∈ faults, f.address / 4096 = p ∧ ∃ gm, resolveGu rd satpPpn f.address = some gm ∧
          InGuestRam gm) ∧
      ∀ e, shadowPte s'.store root p = some e →
        ∃ gm, resolveGu rd satpPpn (p * 4096) = some gm ∧
          e = packPtEntry ⟨gm + GUEST_MEMORY_OFFSET, faultPermissions faults p⟩) ∧
    (∀ stale gu r st', WalkInRam rd satpPpn gu →
      tryResolveGuToGm L stale 0 satpPpn gu s'.store = .ok (r, st') → r = resolveGu rd satpPpn gu) ∧
    (∀ faults' s'', faults.Perm faults' → FaultRun L s faults' s'' → ∀ p, p < 2 ^ 27 →
      shadowPte s''.store root p = shadowPte s'.store root p) ∧
    ∀ regs pc stale acc,
      handlePageFault L stale acc (s'.guestRun regs pc) ≠ .error .unmatchedLowerBits := by
  have hcore := h.inv.core
  have hempty : ∀ p, p < 2 ^ 27 → shadowPte s.store s.guest.shadowPageTable p = none :=
    fun p _ => shadowPte_of_empty empty p
  have hframe := run.frame hcore
  have hcomp := run.shadowPte_eq hcore active hempty ram
  -- the run invariant says what the table holds: the composition of the faults taken so far
  refine ⟨?_, ?_, ?_, ?_⟩
  · intro p hp
    rw [hcomp p hp]
    refine ⟨composition_isSome_iff, ?_⟩
    intro e he
    obtain ⟨gm, hgm, -, -, heq⟩ := composition_eq_some_iff.mp he
    exact ⟨gm, hgm, heq⟩
  · intro stale gu r st' hram hok
    obtain ⟨own, free, hvm⟩ := hframe.core.mem.vm
    have hspec := tryResolveGuToGm_spec hvm stale s.guest.csr.satpPpn gu
    rw [hok, post_ok, hframe.ram.guestRead_eq] at hspec
    obtain ⟨-, -, -, -, -, hwalk⟩ := hspec
    exact hwalk hram
  · -- the composition reads the faults as a set, and both runs end in it
    intro faults' s'' hperm run' p hp
    have hram' : ∀ f ∈ faults', WalkInRam (guestRead s.store) s.guest.csr.satpPpn f.address :=
      fun f hf => ram f (hperm.mem_iff.mpr hf)
    rw [run'.shadowPte_eq hcore active hempty hram' p hp, hcomp p hp, composition_perm hperm]
  · -- `gm` keeps the low twelve bits of the address, so the test on them never fails
    intro regs pc stale acc herr
    have hspec := handlePageFault_spec (hframe.core.guestRun regs pc) stale acc
    rw [herr, post_error] at hspec
    exact hspec (Or.inr (Or.inl rfl))

/-- The guest's leaf has every permission. -/
theorem fetchFault_all :
    (sampleRun 0 (sampleEnterUser (8 <<< 60 + 0x80010))
      (bootMain sampleLayout (sampleMachine (sampleUser 0x2000001F)))).toOption.map
        (sampleFetch 0x2000001F) = some true := by
  decide +kernel

/-- The page fetched from is mapped. -/
theorem shadow_is_composition_fetch :
    ∃ s s' e, Reachable sampleLayout s ∧ FaultRun sampleLayout s [⟨.x, 0x80000008⟩] s' ∧
      shadowPte s'.store s.guest.shadowPageTable 0x80000 = some e := by
  obtain ⟨s, s', hreach, hact, hempty, hrun, hram, -, hres⟩ := exists_fetchFault fetchFault_all
  obtain ⟨hpages, -⟩ := shadow_is_composition hreach hact hempty hrun hram
  obtain ⟨e, he⟩ := (hpages 0x80000 (by decide)).1.mpr
    ⟨_, List.mem_singleton.mpr rfl, rfl, _, hres, by decide⟩
  exact ⟨s, s', e, hreach, hrun, he⟩

/-! ### Permissions -/

/-- The shadow table grants no kind of access that the guest's own leaf does not grant to user
    mode. -/
def ShadowWithin (s : State) : Prop :=
  ∀ p e acc, p < 2 ^ 27 → shadowPte s.store s.guest.shadowPageTable p = some e → IsAccess acc →
    e.testBit acc.toNat = true →
    ∃ l, guestLeaf (guestRead s.store) s.guest.csr.satpPpn (p * 4096) = some l ∧
      l.pte.testBit acc.toNat = true ∧ l.pte.testBit Sv39.bitU = true

/-- The guest's leaf grants user mode the access that faulted, and reading. -/
def Fault.Allowed (rd : Nat → Nat) (satpPpn : BitVec 44) (f : Fault) : Prop :=
  ∃ l, guestLeaf rd satpPpn f.address = some l ∧ l.pte.testBit f.access.toNat = true ∧
    l.pte.testBit Sv39.bitR = true ∧ l.pte.testBit Sv39.bitU = true

/-- The fault is out of the reach of the shadow table, or outside guest RAM. -/
def Fault.Unmapped (rd : Nat → Nat) (satpPpn : BitVec 44) (f : Fault) : Prop :=
  2 ^ 39 ≤ f.address ∨
    WalkInRam rd satpPpn f.address ∧ ∀ gm, resolveGu rd satpPpn f.address = some gm →
      ¬ InGuestRam gm

/-- An empty table grants nothing. -/
theorem shadowWithin_of_empty
    (empty : ∀ i, i < 512 → (s.store.entry s.guest.shadowPageTable i).testBit 0 = false) :
    ShadowWithin s := by
  intro p e acc _ he
  rw [shadowPte_of_empty empty] at he
  cases he

/-- Where a granted kind of access comes from: the old leaf, the fault, or `R`, which is always
    added. -/
theorem testBit_shadowEntry_cases {old hm : Nat} {acc b : MempermIndex} (hb : IsAccess b)
    (h : (shadowEntry old hm acc).testBit b.toNat = true) :
    old.testBit b.toNat = true ∨ b = acc ∨ b = .r := by
  rw [testBit_shadowEntry _ _ _ b.toNat_lt, Bool.or_eq_true, Bool.or_eq_true] at h
  rcases h with hkept | hacc | hr
  · left
    unfold keptPermissions at hkept
    split at hkept
    · rwa [testBit_mod_1024 _ b.toNat_lt] at hkept
    · rcases hb with rfl | rfl | rfl <;> exact absurd hkept (by decide)
  · right; left
    revert hacc
    cases b <;> cases acc <;> decide
  · right; right
    revert hr
    cases b <;> decide

/-- A run of faults the guest's leaves allow keeps the shadow table within the guest's. -/
theorem FaultRun.shadowWithin (hcore : Core L s) (active : s.guest.shadowPtActive = true)
    (within : ShadowWithin s) (run : FaultRun L s faults s')
    (allowed : ∀ f ∈ faults, f.Unmapped (guestRead s.store) s.guest.csr.satpPpn ∨
      f.Allowed (guestRead s.store) s.guest.csr.satpPpn) :
    ShadowWithin s' := by
  induction run with
  | start => exact within
  | @fault faults s₁ s₂ acc result va before regs pc stale handled ih =>
    have hwithin := ih (fun f hf => allowed f (List.mem_cons_of_mem _ hf))
    have hframe := before.frame hcore
    obtain ⟨hframe₂, hacc, gm, hshadow, hres⟩ := hframe.fault handled
    unfold ShadowWithin at hwithin ⊢
    rw [hframe.ram.guestRead_eq, hframe.table, hframe.csr] at hwithin
    rw [hframe₂.ram.guestRead_eq, hframe₂.table, hframe₂.csr]
    intro p e b hp he hb hbit
    rw [hshadow active p hp] at he
    split at he
    · rename_i hcase
      obtain ⟨hpage, hram⟩ := hcase
      obtain rfl := Option.some.inj he
      -- the fault wrote an entry, so that it cannot be one of those that map nothing
      obtain ⟨l, hl, hlacc, hlr, hlu⟩ : Fault.Allowed (guestRead s.store) s.guest.csr.satpPpn
          ⟨acc, va.toNat⟩ := by
        refine (allowed _ List.mem_cons_self).resolve_left ?_
        rintro (hhigh | ⟨hin, hout⟩)
        · simp only at hhigh
          omega
        · exact hout gm (hres active hin) hram
      have hleaf : guestLeaf (guestRead s.store) s.guest.csr.satpPpn (p * 4096) = some l := by
        rw [← hl, hpage]
        exact Sv39.walk_page _ _ _ _
      -- a bit of the new entry was there before, or is that of the access, or the `R` beside it
      rcases testBit_shadowEntry_cases hb hbit with hold | rfl | rfl
      · cases hpte : shadowPte s₁.store s.guest.shadowPageTable p with
        | none =>
          rw [hpte, Option.getD_none, Nat.zero_testBit] at hold
          cases hold
        | some old =>
          rw [hpte, Option.getD_some] at hold
          exact hwithin p old b hp hpte hb hold
      · exact ⟨l, hleaf, hlacc, hlu⟩
      · exact ⟨l, hleaf, hlr, hlu⟩
    · exact hwithin p e b hp he hb hbit

/-- The permissions of a composed leaf include `R` and the kind of every fault on the page. -/
theorem testBit_faultPermissions {f : Fault} {b : MempermIndex} (hf : f ∈ faults)
    (hacc : IsAccess f.access) (hb : b = f.access ∨ b = .r) :
    (faultPermissions faults (f.address / 4096)).testBit b.toNat = true := by
  have hon : faultedOn faults (f.address / 4096) f.access = true :=
    List.any_eq_true.mpr ⟨f, hf, by simp⟩
  unfold faultPermissions
  generalize hw : faultedOn faults (f.address / 4096) .w = w
  generalize hx : faultedOn faults (f.address / 4096) .x = x
  rcases hb with rfl | rfl
  · rcases hacc with hr | hw' | hx'
    · rw [hr]
      cases w <;> cases x <;> decide
    · rw [hw'] at hon ⊢
      rw [← hw, hon]
      cases x <;> decide
    · rw [hx'] at hon ⊢
      rw [← hx, hon]
      cases w <;> decide
  · cases w <;> cases x <;> decide

theorem FaultRun.isAccess (hcore : Core L s) (run : FaultRun L s faults s') :
    ∀ f ∈ faults, IsAccess f.access := by
  induction run with
  | start =>
    intro f hf
    cases hf
  | fault before regs pc stale handled ih =>
    obtain ⟨-, hacc, -⟩ := (before.frame hcore).fault handled
    intro f hf
    rcases List.mem_cons.mp hf with rfl | hf
    · exact hacc
    · exact ih f hf

/-- Conversely, with the guest's tables in RAM, a table within the guest's is the work of allowed
    faults. -/
theorem FaultRun.allowed_of_shadowWithin (hcore : Core L s) (active : s.guest.shadowPtActive = true)
    (hempty : ∀ p, p < 2 ^ 27 → shadowPte s.store s.guest.shadowPageTable p = none)
    (run : FaultRun L s faults s')
    (hram : ∀ f ∈ faults, WalkInRam (guestRead s.store) s.guest.csr.satpPpn f.address)
    (within : ShadowWithin s') :
    ∀ f ∈ faults, f.Unmapped (guestRead s.store) s.guest.csr.satpPpn ∨
      f.Allowed (guestRead s.store) s.guest.csr.satpPpn := by
  intro f hf
  by_cases hunmapped : f.Unmapped (guestRead s.store) s.guest.csr.satpPpn
  · exact Or.inl hunmapped
  right
  obtain ⟨hlow, gm, hgm, hin⟩ : f.address < 2 ^ 39 ∧ ∃ gm,
      resolveGu (guestRead s.store) s.guest.csr.satpPpn f.address = some gm ∧ InGuestRam gm := by
    unfold Fault.Unmapped at hunmapped
    push Not at hunmapped
    exact ⟨hunmapped.1, hunmapped.2 (hram f hf)⟩
  have hp : f.address / 4096 < 2 ^ 27 := by omega
  have hframe := run.frame hcore
  have hacc := run.isAccess hcore f hf
  -- the fault has put a leaf with its bit and `R` on its page
  obtain ⟨e, he⟩ := composition_isSome_iff.mpr ⟨f, hf, rfl, gm, hgm, hin⟩
  obtain ⟨page, -, -, -, hpack⟩ := composition_eq_some_iff.mp he
  have hbit : ∀ b, b = f.access ∨ b = .r → e.testBit b.toNat = true := by
    intro b hb
    rw [hpack, testBit_packPtEntry (faultPermissions_lt _ _) b.toNat_lt]
    exact testBit_faultPermissions hf hacc hb
  rw [← run.shadowPte_eq hcore active hempty hram _ hp] at he
  unfold ShadowWithin at within
  rw [hframe.ram.guestRead_eq, hframe.table, hframe.csr] at within
  obtain ⟨l, hl, hlacc, hlu⟩ := within _ e f.access hp he hacc (hbit _ (Or.inl rfl))
  obtain ⟨l', hl', hlr, -⟩ := within _ e .r hp he (Or.inl rfl) (hbit _ (Or.inr rfl))
  obtain rfl : l = l' := Option.some.inj (hl.symm.trans hl')
  refine ⟨l, ?_, hlacc, hlr, hlu⟩
  rw [← hl]
  exact (Sv39.walk_page _ _ _ _).symm

/-- **Within the guest's table.**  Over a run of page faults with the guest's tables unchanged, the
    shadow table stays within the guest's own table if every fault that maps something is one the
    guest's leaf allows, together with reading.  From an empty table, with the guest's tables in
    RAM, there is no other way. -/
theorem shadow_within_guest (h : Reachable L s) (active : s.guest.shadowPtActive = true)
    (within : ShadowWithin s) (run : FaultRun L s faults s') :
    let rd := guestRead s.store
    let satpPpn := s.guest.csr.satpPpn
    ((∀ f ∈ faults, f.Unmapped rd satpPpn ∨ f.Allowed rd satpPpn) → ShadowWithin s') ∧
    ((∀ i, i < 512 → (s.store.entry s.guest.shadowPageTable i).testBit 0 = false) →
      (∀ f ∈ faults, WalkInRam rd satpPpn f.address) → ShadowWithin s' →
      ∀ f ∈ faults, f.Unmapped rd satpPpn ∨ f.Allowed rd satpPpn) := by
  have hcore := h.inv.core
  refine ⟨run.shadowWithin hcore active within, ?_⟩
  intro empty ram within'
  exact run.allowed_of_shadowWithin hcore active (fun p _ => shadowPte_of_empty empty p) ram within'

/-- The leaf of a fetch the guest allows. -/
theorem shadow_within_guest_fetch :
    ∃ s s', Reachable sampleLayout s ∧ FaultRun sampleLayout s [⟨.x, 0x80000008⟩] s' ∧
      ShadowWithin s' := by
  obtain ⟨s, s', hreach, hact, hempty, hrun, -, hleaf, -⟩ := exists_fetchFault fetchFault_all
  refine ⟨s, s', hreach, hrun,
    (shadow_within_guest hreach hact (shadowWithin_of_empty hempty) hrun).1 ?_⟩
  intro f hf
  rw [List.mem_singleton.mp hf]
  exact Or.inr ⟨_, hleaf, by decide, by decide, by decide⟩

/-- A page the guest maps for reading and writing is executable after a fetch from it. -/
theorem shadow_exceeds_guest :
    ∃ s s', Reachable sampleLayout s ∧ s.guest.shadowPtActive = true ∧
      (∀ i, i < 512 → (s.store.entry s.guest.shadowPageTable i).testBit 0 = false) ∧
      FaultRun sampleLayout s [⟨.x, 0x80000008⟩] s' ∧
      guestLeaf (guestRead s.store) s.guest.csr.satpPpn 0x80000008 =
        some ⟨2, 0x80010010, 0x20000017⟩ ∧ ¬ ShadowWithin s' := by
  have heval : (sampleRun 0 (sampleEnterUser (8 <<< 60 + 0x80010))
      (bootMain sampleLayout (sampleMachine (sampleUser 0x20000017)))).toOption.map
        (sampleFetch 0x20000017) = some true := by
    decide +kernel
  obtain ⟨s, s', hreach, hact, hempty, hrun, hram, hleaf, hres⟩ := exists_fetchFault heval
  refine ⟨s, s', hreach, hact, hempty, hrun, hleaf, ?_⟩
  intro hwithin
  rcases hrun.allowed_of_shadowWithin hreach.inv.core hact (fun p _ => shadowPte_of_empty hempty p)
    hram hwithin _ (List.mem_singleton.mpr rfl) with (hhigh | ⟨-, hout⟩) | ⟨l, hl, hx, -, -⟩
  · exact absurd hhigh (by decide)
  · exact hout _ hres (by decide)
  · rw [hleaf] at hl
    obtain rfl := Option.some.inj hl
    exact absurd hx (by decide)

end RiscvHypervisor
