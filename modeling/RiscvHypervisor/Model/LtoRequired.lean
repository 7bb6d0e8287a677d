import RiscvHypervisor.Model.Base

namespace RiscvHypervisor

open ByteMem

/-!
# Model — the memory routines of the freestanding image

`lto_required.c`: `memset`, `memcpy`, `memcmp` and `memmove`, to which the compiler may emit
calls of its own.  Addresses and sizes are 64-bit words, and `p[i]` is at `p + i` modulo
`2 ^ 64`.  A loop from `0` up to `size` runs over `List.range`, a loop from `size` down is a
recursion on its counter.
-/

/-- Address of `p[i]`, for a pointer to bytes. -/
def charAddr (p : Word) (i : Nat) : Nat := (p + BitVec.ofNat 64 i).toNat

/-- `dst[i] = src[i]`. -/
def copyByte (dst src : Word) (m : Mem) (i : Nat) : Mem :=
  Function.update m (charAddr dst i) (m (charAddr src i))

def memset (dst : Word) (val : BitVec 32) (size : Word) (m : Mem) : Mem :=
  (List.range size.toNat).foldl
    (fun m i => Function.update m (charAddr dst i) (val.setWidth 8)) m

def memcpy (dst src size : Word) (m : Mem) : Mem :=
  (List.range size.toNat).foldl (copyByte dst src) m

/-- The loop of `memcmp`, over the indices still to compare.  The difference of two bytes is in
    the range of `short`. -/
def memcmpLoop (s1 s2 : Word) (m : Mem) : List Nat → Int
  | []     => 0
  | i :: l =>
    let diff : Int := (m (charAddr s1 i)).toNat - (m (charAddr s2 i)).toNat
    if diff < 0 then -1
    else if diff > 0 then 1
    else memcmpLoop s1 s2 m l

def memcmp (s1 s2 size : Word) (m : Mem) : Int :=
  memcmpLoop s1 s2 m (List.range size.toNat)

/-- The downward loop of `memmove`: `for (i = size; i > 0; --i) dst[i - 1] = src[i - 1];`. -/
def memmoveDown (dst src : Word) : Nat → Mem → Mem
  | 0, m     => m
  | i + 1, m => memmoveDown dst src i (copyByte dst src m i)

def memmove (dst src size : Word) (m : Mem) : Mem :=
  if dst ≤ src then (List.range size.toNat).foldl (copyByte dst src) m
  else memmoveDown dst src size.toNat m

end RiscvHypervisor
