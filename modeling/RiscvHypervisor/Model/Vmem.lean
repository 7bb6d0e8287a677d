import RiscvHypervisor.Model.PageAlloc
import RiscvHypervisor.Model.Print

namespace RiscvHypervisor

open ByteMem

/-!
# Model — page tables

The page-table half of `vmem.c`: the lazily built machine table (`ensureGuestMachineMapped`),
the software walk of the guest's own table (`tryResolveGuToGm`), the shadow table
(`updateShadowPt`), its teardown (`clearPagetable`), and the resolution of guest memory to
host memory (`resolveGuestmemSlice`).

The loops of the two walkers run at most four times and the teardown recurses at most three
deep; both carry an explicit bound, whose exhaustion is the error `recursionBound`.
-/

/-- `PageFaultHandlerResult`. -/
inductive PageFaultHandlerResult where
  | success
  | notChanged
  | tooLow
  | tooHigh
deriving DecidableEq, Repr

/-! ### Building and tearing down tables -/

/-- `allocate_pagepable`: a page with all 512 entries zeroed, or `NULL`. -/
def allocatePagepable (L : Layout) (st : Store) : Nat × Store :=
  let (page, st) := allocatePage L st
  if page = 0 then (0, st)
  else (page, (List.range 512).foldl (fun st i => st.setEntry page i 0) st)

/-- `deallocate_pagepable`, given the function that clears a table. -/
def deallocatePagepableWith (clear : Nat → Store → Except Panic Store) (subtree : Nat)
    (st : Store) : Except Panic Store :=
  if subtree = 0 then .ok st
  else do
    let st ← clear subtree st
    return deallocatePage subtree st

/-- The body of the loop of `clear_pagetable`, given the function that deallocates a table. -/
def clearEntry (deallocate : Nat → Store → Except Panic Store) (subtree : Nat) (st : Store)
    (i : Nat) : Except Panic Store :=
  let unpacked := unpackPtEntry (st.entry subtree i)
  let st := st.setEntry subtree i 0
  if !hasAny unpacked.permissions (permbit .v) then .ok st
  else if hasAny unpacked.permissions permRWX then .ok st
  else deallocate unpacked.address st

/-- `clear_pagetable`: zero every entry, giving back the tables below.  `depth` bounds the
    recursion. -/
def clearPagetable : (depth : Nat) → Nat → Store → Except Panic Store
  | 0, _, _ => .error .recursionBound
  | depth + 1, subtree, st =>
    if subtree = 0 then .ok st
    else
      (List.range 512).foldlM
        (clearEntry (deallocatePagepableWith (clearPagetable depth)) subtree) st

/-- The recursion bound of a teardown: every table of a chain is a pool page of its own. -/
def teardownDepth : Nat := MAX_ALLOCATEABLE_PAGES

/-! ### The machine table -/

/-- The step both table builders make: the table below entry `vpn` of `parent`, allocated and
    linked if there is none.  `onNull` is the panic of the builder when the pool is exhausted,
    `message` what it prints of a new table. -/
def childTable (L : Layout) (onNull : Panic) (message : List (BitVec 8)) (parent vpn : Nat)
    (st : Store) : Except Panic (Nat × Store) :=
  let unpacked := unpackPtEntry (st.entry parent vpn)
  if !hasAny unpacked.permissions (permbit .v) then
    let (page, st) := allocatePagepable L st
    if page = 0 then .error onNull
    else
      .ok (page,
        printStringSlice message (st.setEntry parent vpn (packPtEntry ⟨page, permbit .v⟩)))
  else .ok (unpacked.address, st)

/-- The permissions of every machine leaf: `V`, `U`, `R`, `W` and `X`. -/
def machinePermissions : Nat :=
  permbit .v ||| permbit .u ||| permbit .r ||| permbit .w ||| permbit .x

/-- The message of an entry that `ensure_guest_machine_mapped` adds for the region at `addr`. -/
def lazyMessage (level : String) (addr : Nat) : List (BitVec 8) :=
  stringBytes ("[Lazy-initializing level " ++ level ++ " page of ") ++ addrBytes addr ++
    stringBytes "]"

/-- `ensure_guest_machine_mapped`: make sure the 2 MiB region of `gmAddr` is in the machine table
    of `machine`.  The second component is what `*hm_addr_out` becomes, `none` if it is not
    written. -/
def ensureGuestMachineMapped (L : Layout) (machine : Int) (gmAddr : Nat) (st : Store) :
    Except Panic (PageFaultHandlerResult × Option Nat × Store) :=
  if gmAddr < RAM_START then .ok (.tooLow, none, st)
  else
    let lvl3 := gmAddr >>> 30
    if 512 ≤ lvl3 then .ok (.tooHigh, none, st)
    else do
      let lvl2 := (gmAddr >>> 21) &&& 0x1FF
      let (child, st) ← childTable L .pageAlloc (lazyMessage "3" (lvl3 <<< 30))
        (L.machineRoot machine) lvl3 st
      let unpacked := unpackPtEntry (st.entry child lvl2)
      if hasAny unpacked.permissions (permbit .v) then
        return (.notChanged,
          some (unpacked.address + 4096 * ((gmAddr >>> 12) &&& 0x1FF) + (gmAddr &&& 0xFFF)), st)
      else
        let address := ((lvl3 <<< 30) ||| (lvl2 <<< 21)) + GUEST_MEMORY_OFFSET
        let st := st.setEntry child lvl2 (packPtEntry ⟨address, machinePermissions⟩)
        let st := printStringSlice (lazyMessage "2" ((lvl3 <<< 30) ||| (lvl2 <<< 21))) st
        return (.success,
          some (address + 4096 * ((gmAddr >>> 12) &&& 0x1FF) + (gmAddr &&& 0xFFF)), st.vmemFence)

/-! ### The walk of the guest's page table -/

/-- What `try_resolve_gu_to_gm` prints of the place of a page of the guest's table, before it goes
    on all the same. -/
def placementMessage : PageFaultHandlerResult → List (BitVec 8)
  | .tooLow  => stringBytes "\nGuest placed the page table level below RAM"
  | .tooHigh => stringBytes "\nGuest placed the page table level above the usable address space"
  | _        => []

/-- The loop of `try_resolve_gu_to_gm`.  `stale componentOffset` is the value the uninitialised
    `next_ptr` has in the iteration at `componentOffset`, used when the table page could not be
    mapped. -/
def resolveGuLoop (L : Layout) (stale : Nat → Nat) (machine : Int) (guAddr : Nat) :
    (fuel : Nat) → (componentOffset : Nat) → UnpackedPagetableEntry → Store →
      Except Panic (Option Nat × Store)
  | 0, _, _, _ => .error .recursionBound
  | fuel + 1, componentOffset, entryGuest, st =>
    if !hasAny entryGuest.permissions (permbit .v) then .ok (none, st)
    else if hasAny entryGuest.permissions permRWX then
      if !hasAny entryGuest.permissions (permbit .u) then .ok (none, st)
      else
        let pgsize := 1 <<< (componentOffset + 9)
        let pgoffset := guAddr &&& (pgsize - 1)
        .ok (some ((entryGuest.address + pgoffset) % 2 ^ 64), st)
    else if componentOffset ≤ PGSHIFT then .ok (none, st)
    else do
      let (result, nextPtr, st) ← ensureGuestMachineMapped L machine entryGuest.address st
      let st := printStringSlice (placementMessage result) st
      let vpn := 511 &&& (guAddr >>> componentOffset)
      let entry := unpackPtEntry (st.entry (nextPtr.getD (stale componentOffset)) vpn)
      resolveGuLoop L stale machine guAddr fuel (componentOffset - 9) entry st

/-- `try_resolve_gu_to_gm`: the guest-machine address of `guAddr` by the guest's own table, `none`
    standing for the result `false`. -/
def tryResolveGuToGm (L : Layout) (stale : Nat → Nat) (machine : Int) (satpPpn : BitVec 44)
    (guAddr : Nat) (st : Store) : Except Panic (Option Nat × Store) :=
  resolveGuLoop L stale machine guAddr 4 (PGSHIFT + 9 + 9)
    ⟨satpPpn.toNat <<< PGSHIFT, permbit .v⟩ st

/-! ### The shadow table -/

/-- The end of `update_shadow_pt`, on the leaf table `parent`: the permissions already granted are
    kept as long as the entry maps the same page. -/
def writeShadowLeaf (parent vpn0 hmPage : Nat) (accessType : MempermIndex) (st : Store) :
    PageFaultHandlerResult × Store :=
  let leaf := unpackPtEntry (st.entry parent vpn0)
  let leaf := if leaf.address ≠ hmPage then ⟨hmPage, permbit .v ||| permbit .u⟩ else leaf
  let addMask := permbit accessType
  if hasAny leaf.permissions addMask then (.notChanged, st)
  else
    let leaf := { leaf with permissions := leaf.permissions ||| (addMask ||| permbit .r) }
    (.success, (st.setEntry parent vpn0 (packPtEntry leaf)).vmemFence)

/-- `update_shadow_pt`: let the shadow table at `shadowPtRoot` map the page of `guAddr` to that of
    `hmAddr`, adding `R` and the bit of `accessType` to what the entry grants. -/
def updateShadowPt (L : Layout) (shadowPtRoot guAddr hmAddr : Nat) (accessType : MempermIndex)
    (st : Store) : Except Panic (PageFaultHandlerResult × Store) :=
  if guAddr &&& 0xFFF ≠ hmAddr &&& 0xFFF then .error .unmatchedLowerBits
  else
    let hmPage := hmAddr >>> PGSHIFT <<< PGSHIFT
    let vpn2 := guAddr >>> 30
    let vpn1 := (guAddr >>> 21) &&& 0x1FF
    let vpn0 := (guAddr >>> 12) &&& 0x1FF
    if 512 ≤ vpn2 then .ok (.tooHigh, st)
    else do
      let (parent, st) ← childTable L .shadowTableAlloc [] shadowPtRoot vpn2 st
      let (parent, st) ← childTable L .shadowTableAlloc [] parent vpn1 st
      return writeShadowLeaf parent vpn0 hmPage accessType st

/-! ### Guest memory slices -/

/-- `GuestSlice`. -/
structure GuestSlice where
  virtualPtr : Word
  byteLength : Word
  thid : GuestThreadId
deriving DecidableEq, Repr

/-- `HostSlice`. -/
structure HostSlice where
  address : Nat
  byteLength : Nat
deriving DecidableEq, Repr

/-- `GuestSliceIterator`. -/
structure GuestSliceIterator where
  guest : GuestSlice
  success : Bool
  requiredPerm : Nat
  offset : Word
  host : HostSlice
deriving DecidableEq, Repr

/-- The loop of `resolve_guestmem_slice`. -/
def resolveSliceLoop (st : Store) (virtaddr remainingLength : Nat) :
    (fuel : Nat) → (componentOffset : Nat) → UnpackedPagetableEntry → Except Panic HostSlice
  | 0, _, _ => .error .recursionBound
  | fuel + 1, componentOffset, entry =>
    if !hasAny entry.permissions (permbit .v) then .error .unmappedPage
    else if hasAny entry.permissions permRWX then
      if !hasAny entry.permissions (permbit .u) then .error .nonGuestPage
      else
        let pgsize := 1 <<< (componentOffset + 9)
        let pgoffset := virtaddr &&& (pgsize - 1)
        let providedLength := pgsize - pgoffset
        let providedLength :=
          if remainingLength < providedLength then remainingLength else providedLength
        .ok ⟨entry.address + pgoffset, providedLength⟩
    else if componentOffset + 9 ≤ PGSHIFT then .error .noRwxBits
    else
      let vpn := 511 &&& (virtaddr >>> componentOffset)
      resolveSliceLoop st virtaddr remainingLength fuel (componentOffset - 9)
        (unpackPtEntry (st.entry entry.address vpn))

/-- The table the guest thread `thid` runs on: the shadow table if it is active, else the machine
    table. -/
def activePt (L : Layout) (s : State) (thid : GuestThreadId) : Nat :=
  let guest := s.guestThreads thid.machine thid.thread
  if guest.shadowPtActive then guest.shadowPageTable else L.machineRoot thid.machine

/-- `resolve_guestmem_slice`. -/
def resolveGuestmemSlice (L : Layout) (s : State) (it : GuestSliceIterator) :
    Except Panic GuestSliceIterator :=
  let active := activePt L s it.guest.thid
  if active = 0 then .error .nullPageTable
  else
    let virtaddr := it.guest.virtualPtr + it.offset
    let remainingLength := it.guest.byteLength - it.offset
    if remainingLength = 0 then .ok { it with success := true, host := ⟨0, 0⟩ }
    else if it.guest.byteLength < remainingLength then .error .iteratorOutOfRange
    else do
      let host ← resolveSliceLoop s.store virtaddr.toNat remainingLength.toNat 4
        (PGSHIFT + 9 + 9) ⟨active, permbit .v⟩
      return { it with success := true, host := host }

/-- `begin_iter_guestmem`. -/
def beginIterGuestmem (L : Layout) (s : State) (slice : GuestSlice) (mask : Nat) :
    Except Panic GuestSliceIterator :=
  resolveGuestmemSlice L s ⟨slice, false, mask, 0, ⟨0, 0⟩⟩

/-- `advance_iter_guestmem`. -/
def advanceIterGuestmem (L : Layout) (s : State) (it : GuestSliceIterator) :
    Except Panic GuestSliceIterator :=
  resolveGuestmemSlice L s { it with offset := it.offset + BitVec.ofNat 64 it.host.byteLength }

/-- `ended_iter_guestmem`. -/
def endedIterGuestmem (it : GuestSliceIterator) : Bool :=
  if !it.success then true else it.host.byteLength == 0

/-- `flush_shadow_pagetable`. -/
def flushShadowPagetable (s : State) : Except Panic State :=
  if s.guest.shadowPageTable = 0 then .ok s
  else do
    let st ← clearPagetable teardownDepth s.guest.shadowPageTable s.store
    return { s with store := st.vmemFence }

end RiscvHypervisor
