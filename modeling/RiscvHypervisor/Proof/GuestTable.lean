import RiscvHypervisor.Proof.Invariant

namespace RiscvHypervisor

open ByteMem Except FreeChain

/-!
# The guest's table against the architecture

`try_resolve_gu_to_gm` stops one level early: it never reads a table of level 0, so that it finds
the leaves of 1 GiB and 2 MiB and none of 4 KiB.  On well-formed tables that is its only deviation
from the Sv39 walk (`resolve_as_sv39_iff`).
-/

variable {L : Layout} {s : State} {rd : Nat → Nat} {satpPpn : BitVec 44} {gu : Nat}

/-- The guest maps `gu` for user mode by a leaf of level 0, a page of 4 KiB. -/
def UserSmallPage (rd : Nat → Nat) (satpPpn : BitVec 44) (gu : Nat) : Prop :=
  ∃ l, Sv39.walk rd gu 2 (satpPpn.toNat * 4096) = some l ∧ l.level = 0 ∧
    l.pte.testBit Sv39.bitU = true

/-- The walk of the code finds what the architecture finds unless that is a page of 4 KiB. -/
theorem WellFormedWalk.resolveGu_eq_sv39Resolve_iff (h : WellFormedWalk rd satpPpn gu) :
    resolveGu rd satpPpn gu = sv39Resolve rd satpPpn gu ↔ ¬ UserSmallPage rd satpPpn gu := by
  rw [h.resolveGu_eq]
  unfold sv39Resolve UserSmallPage
  cases hwalk : Sv39.walk rd gu 2 (satpPpn.toNat * 4096) with
  | none => simp
  | some l =>
    simp only [Option.bind_some, superpageOnly, Option.some.injEq, exists_eq_left']
    by_cases hu : l.pte.testBit Sv39.bitU = true
    · by_cases hl : l.level = 0
      · simp [hu, hl]
      · simp [hu, hl]
    · simp [hu]

/-- What the hypervisor finds in a well-formed table is what Sv39 finds there. -/
theorem WellFormedWalk.sv39Resolve_of_resolveGu {gm : Nat} (h : WellFormedWalk rd satpPpn gu)
    (hres : resolveGu rd satpPpn gu = some gm) :
    sv39Resolve rd satpPpn gu = some gm := by
  rw [h.resolveGu_eq, Option.bind_eq_some_iff] at hres
  obtain ⟨l, hl, hsuper⟩ := hres
  unfold superpageOnly at hsuper
  split at hsuper
  · rename_i hleaf
    unfold sv39Resolve
    rw [hl]
    dsimp only
    rw [if_pos hleaf.2]
    exact hsuper
  · cases hsuper

/-- What it does not find is not there, or is a page of 4 KiB. -/
theorem WellFormedWalk.sv39Resolve_of_not_resolveGu (h : WellFormedWalk rd satpPpn gu)
    (hres : resolveGu rd satpPpn gu = none) :
    sv39Resolve rd satpPpn gu = none ∨ UserSmallPage rd satpPpn gu := by
  by_cases hsmall : UserSmallPage rd satpPpn gu
  · exact Or.inr hsmall
  · left
    rw [← h.resolveGu_eq_sv39Resolve_iff.mpr hsmall]
    exact hres

/-- **Sv39, but for 4 KiB pages.**  On well-formed tables in guest RAM, `try_resolve_gu_to_gm`
    panics with fewer than two pages left in the pool or returns; what it returns is the result of
    the Sv39 walk if and only if that walk does not end at a user leaf of level 0. -/
theorem resolve_as_sv39_iff (h : Reachable L s) (stale : Nat → Nat) (satpPpn : BitVec 44) (gu : Nat)
    (wf : WellFormedWalk (guestRead s.store) satpPpn gu) :
    (tryResolveGuToGm L stale 0 satpPpn gu s.store = .error .pageAlloc ∧
      ∃ free, Linked s.store.load64 s.store.freeListTop free ∧ pagesLeft s.store free < 2) ∨
    ∃ r st', tryResolveGuToGm L stale 0 satpPpn gu s.store = .ok (r, st') ∧
      (r = sv39Resolve (guestRead s.store) satpPpn gu ↔
        ¬ UserSmallPage (guestRead s.store) satpPpn gu) := by
  obtain ⟨own, free, hvm⟩ := h.inv.core.mem.vm
  have hspec := tryResolveGuToGm_spec hvm stale satpPpn gu
  cases hres : tryResolveGuToGm L stale 0 satpPpn gu s.store with
  | error e =>
    rw [hres, post_error] at hspec
    obtain ⟨rfl, hleft⟩ := hspec
    exact Or.inl ⟨rfl, free, hvm.alloc.chain, hleft⟩
  | ok out =>
    rw [hres, post_ok] at hspec
    obtain ⟨-, -, -, -, -, hwalk⟩ := hspec
    refine Or.inr ⟨out.1, out.2, rfl, ?_⟩
    rw [hwalk wf.walkInRam]
    exact wf.resolveGu_eq_sv39Resolve_iff

instance (rd : Nat → Nat) (satpPpn : BitVec 44) (gu : Nat) :
    Decidable (WellFormedWalk rd satpPpn gu) :=
  inferInstanceAs (Decidable (∀ p ∈ _, _))

/-- A guest with a table at `0x80010000` that maps its RAM by one leaf of 1 GiB. -/
def sampleSuperpage : Mem := store (fun _ => 0) 0x85010010 8 0x2000001F

/-- A guest with a table at `0x80010000` that maps address 0 by a leaf of 4 KiB. -/
def sampleSmallPage : Mem :=
  store (store (store (fun _ => 0) 0x85010000 8 0x20004401) 0x85011000 8 0x20004801)
    0x85012000 8 0x2000801F

/-- An address in a superpage, resolved. -/
theorem resolve_as_sv39_superpage :
    ∃ s r st', Reachable sampleLayout s ∧
      tryResolveGuToGm sampleLayout (fun _ => 0) 0 0x80010 0x80001234 s.store = .ok (r, st') ∧
      r = sv39Resolve (guestRead s.store) 0x80010 0x80001234 := by
  have hreach : Reachable sampleLayout (bootMain sampleLayout (sampleMachine sampleSuperpage)) :=
    .boot (powerOn_sampleMachine sampleSuperpage)
  rcases resolve_as_sv39_iff hreach (fun _ => 0) 0x80010 0x80001234 (by decide +kernel) with
    ⟨herr, -⟩ | ⟨r, st', hok, hiff⟩
  · have hsome : (tryResolveGuToGm sampleLayout (fun _ => 0) 0 0x80010 0x80001234
        (bootMain sampleLayout (sampleMachine sampleSuperpage)).store).toOption.isSome = true := by
      decide +kernel
    rw [herr] at hsome
    cases hsome
  · refine ⟨_, r, st', hreach, hok, hiff.mpr ?_⟩
    rintro ⟨l, hwalk, hlevel, -⟩
    have hlarge : (Sv39.walk (guestRead (bootMain sampleLayout
        (sampleMachine sampleSuperpage)).store) 0x80001234 2
          ((0x80010 : BitVec 44).toNat * 4096)).map (·.level) = some 2 := by
      decide +kernel
    rw [hwalk] at hlarge
    simp [hlevel] at hlarge

/-- A page of 4 KiB, not found. -/
theorem small_page_not_resolved :
    let s := bootMain sampleLayout (sampleMachine sampleSmallPage)
    Reachable sampleLayout s ∧ WellFormedWalk (guestRead s.store) 0x80010 0 ∧
      sv39Resolve (guestRead s.store) 0x80010 0 = some 0x80020000 ∧
      (tryResolveGuToGm sampleLayout (fun _ => 0) 0 0x80010 0 s.store).toOption.map (·.1) =
        some none :=
  ⟨.boot (powerOn_sampleMachine sampleSmallPage), by decide +kernel, by decide +kernel,
    by decide +kernel⟩

end RiscvHypervisor
