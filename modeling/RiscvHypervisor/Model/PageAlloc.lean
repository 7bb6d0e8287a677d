import RiscvHypervisor.Model.Base

namespace RiscvHypervisor

open ByteMem

/-!
# Model — page-table entries and the page allocator

* `packPtEntry` / `unpackPtEntry` (`vmem.h`): the conversion between the entries the MMU reads
  and their address and permission fields.
* `allocatePage` / `deallocatePage` (`pagealloc.c`): a bump allocator over `page_pool` with a free
  list threaded through the freed pages themselves.  The allocator lock is left out: there is one
  host hart.
-/

/-! ### Permission masks -/

/-- The numeric value of the enumeration constant. -/
def MempermIndex.toNat : MempermIndex → Nat
  | .v         => 0
  | .r         => 1
  | .w         => 2
  | .x         => 3
  | .u         => 4
  | .g         => 5
  | .a         => 6
  | .d         => 7
  | .reserved1 => 8
  | .reserved2 => 9

/-- `_permbit_from_index`. -/
def permbit (idx : MempermIndex) : Nat := 1 <<< idx.toNat

/-- `permissions & mask`, used as a truth value. -/
def hasAny (permissions mask : Nat) : Bool := permissions &&& mask != 0

/-- The mask `PERMBIT(R) | PERMBIT(W) | PERMBIT(X)` that tells leaves from tables. -/
def permRWX : Nat := permbit .r ||| permbit .w ||| permbit .x

/-! ### Page-table entries -/

def PERMSHIFT : Nat := 10

/-- `UnpackedPagetableEntry`: the address of a child table or of the mapped memory, and the
    10-bit permission field. -/
@[ext] structure UnpackedPagetableEntry where
  address : Nat
  permissions : Nat
deriving DecidableEq, Repr

/-- `pack_pt_entry`. -/
def packPtEntry (unpacked : UnpackedPagetableEntry) : Nat :=
  (unpacked.address >>> PGSHIFT <<< PERMSHIFT) ||| unpacked.permissions

/-- `unpack_pt_entry`; the left shift drops what does not fit into 64 bits. -/
def unpackPtEntry (packed : Nat) : UnpackedPagetableEntry where
  address := packed >>> PERMSHIFT <<< PGSHIFT % 2 ^ 64
  permissions := packed &&& ((1 <<< PERMSHIFT) - 1)

/-! ### Access to host memory -/

namespace Store

/-- Read a 64-bit word. -/
def load64 (st : Store) (a : Nat) : Nat := load st.mem a 8

/-- Write a 64-bit word. -/
def store64 (st : Store) (a : Nat) (v : Nat) : Store := st.setMem (store st.mem a 8 v)

/-- Entry `i` of the page table at `t`. -/
def entry (st : Store) (t : Nat) (i : Nat) : Nat := st.load64 (t + 8 * i)

/-- Overwrite entry `i` of the page table at `t`. -/
def setEntry (st : Store) (t : Nat) (i v : Nat) : Store := st.store64 (t + 8 * i) v

end Store

/-! ### The allocator -/

/-- `allocate_page`: the top of the free list, else the next page never handed out, else
    `NULL`. -/
def allocatePage (L : Layout) (st : Store) : Nat × Store :=
  if st.freeListTop ≠ 0 then
    (st.freeListTop, { st with freeListTop := st.load64 st.freeListTop })
  else if st.nextUnallocatedIdx < MAX_ALLOCATEABLE_PAGES then
    (L.poolPage st.nextUnallocatedIdx,
      { st with nextUnallocatedIdx := st.nextUnallocatedIdx + 1 })
  else (0, st)

/-- `deallocate_page`: push the page on the free list, its first word becoming the link. -/
def deallocatePage (page : Nat) (st : Store) : Store :=
  if page = 0 then st
  else
    { st.store64 page st.freeListTop with
      freeListTop := page
      freed := ⟨page, st.mem, st.freeListTop, st.nextUnallocatedIdx⟩ :: st.freed }

end RiscvHypervisor
