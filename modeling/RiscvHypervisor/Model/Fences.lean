import RiscvHypervisor.Model.System

namespace RiscvHypervisor

open ByteMem

/-!
# Model — accesses by what the hart has cached

Between two fences a hart may keep any entry its table walks have read, valid or not, and may read
entries at any time, also while the hypervisor runs.  `Store.since` and `State.satpSince` hold all
that a walk can still go by: what the memory and `satp` were before each write since the last
`vmemFence`, at the six places that call it.

* `State.Answers` — the outcomes an access may have when every entry of its walk may be old;
* `CachedStep` — the steps of the system whose accesses are answered so.
-/

/-- `guestAccess`, with the table entries that `read` answers. -/
def accessBy (satp : Word) (read : Nat → Nat) (bit : Nat) (va : Word) : Option Nat :=
  if satp >>> 60 = 0 then some va.toNat
  else
    let leaf :=
      if satp >>> 60 = 8 && Sv39.canonical va.toNat then
        (Sv39.walk read va.toNat 2 ((satp.extractLsb' 0 44).toNat * 4096)).filter
          Sv39.Leaf.aligned
      else none
    (leaf.filter fun l => l.pte.testBit Sv39.bitU && l.pte.testBit bit).map fun l =>
      l.translate va.toNat

/-- The values of `satp` that a walk may still go by. -/
def State.satps (s : State) : List Word := s.hart.satp :: s.satpSince

/-- The memories that a walk may still read its entries from. -/
def State.mems (s : State) : List Mem := s.store.mem :: s.store.since

/-- The outcomes an access may have: each entry of the walk is as it was at some time since the
    last fence. -/
def State.Answers (s : State) (bit : Nat) (va : Word) (outcome : Option Nat) : Prop :=
  ∃ satp ∈ s.satps, ∃ read : Nat → Nat, (∀ a, ∃ mem ∈ s.mems, read a = load mem a 8) ∧
    outcome = accessBy satp read bit va

/-- The events that are accesses of the guest. -/
def GuestEvent.isAccess : GuestEvent → Bool
  | .store _ _   => true
  | .corrupt _ _ => true
  | _            => false

/-- One step of the system, whose accesses may be answered from the caches.  All other steps are
    those of `Step`: the MMU sets the accessed and dirty bits in memory, on an entry that is still
    there. -/
inductive CachedStep (L : Layout) : State → GuestEvent → State → Prop where
  | store {s : State} {va : Word} {pa : Nat} (value : BitVec 8)
      (access : s.Answers Sv39.bitW va (some pa)) (guest : GUEST_BASE ≤ pa) :
      CachedStep L s (.store va value) (s.writeByte pa value)
  | corrupt {s : State} {va : Word} {pa : Nat} (after : State)
      (access : s.Answers Sv39.bitW va (some pa)) (image : pa < GUEST_BASE) :
      CachedStep L s (.corrupt va after) after
  | other {s s' : State} {ev : GuestEvent} (kind : ev.isAccess = false) (step : Step L s ev s') :
      CachedStep L s ev s'

end RiscvHypervisor
