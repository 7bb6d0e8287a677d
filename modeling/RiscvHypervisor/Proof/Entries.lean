import RiscvHypervisor.Lib.Sv39
import RiscvHypervisor.Model.PageAlloc
import Mathlib.Data.Nat.Bitwise

namespace RiscvHypervisor

open ByteMem

/-!
# Page-table entries as numbers

The C code shifts and masks; the proofs compute with quotients and remainders.  This file
turns one into the other, once:

* `packPtEntry_eq`, `unpackPtEntry_address`, `unpackPtEntry_permissions` — the fields of an entry;
* `hasAny_permbit`, `hasAny_permRWX` — permission tests as bits of the entry itself;
* `entry_setEntry_same`, `entry_setEntry_ne` — reading tables after writing one entry.
-/

/-! ### Shifts and masks -/

/-- The offset in a page, -/
theorem and_0xFFF (x : Nat) : x &&& 0xFFF = x % 4096 := Nat.and_two_pow_sub_one_eq_mod x 12

/-- an index of a table, -/
theorem and_0x1FF (x : Nat) : x &&& 0x1FF = x % 512 := Nat.and_two_pow_sub_one_eq_mod x 9

/-- and, of any width, the low bits of a number. -/
theorem pow_sub_one_and (x n : Nat) : x &&& (1 <<< n - 1) = x % 2 ^ n := by
  rw [Nat.one_shiftLeft, Nat.and_two_pow_sub_one_eq_mod]

/-- Or-ing flags into the low bits of a number leaves the bits above alone. -/
theorem or_div_two_pow {x y n : Nat} (hy : y < 2 ^ n) : (x ||| y) / 2 ^ n = x / 2 ^ n := by
  rw [← Nat.shiftRight_eq_div_pow, ← Nat.shiftRight_eq_div_pow, Nat.shiftRight_or_distrib,
    Nat.shiftRight_eq_div_pow y, Nat.div_eq_of_lt hy, Nat.or_zero]

/-- A number with a bit set is not zero. -/
theorem ne_zero_of_testBit {x i : Nat} (h : x.testBit i = true) : x ≠ 0 := by
  rintro rfl
  rw [Nat.zero_testBit] at h
  cases h

/-! ### Permission masks -/

/-- Testing one permission is testing one bit. -/
theorem hasAny_permbit (p : Nat) (i : MempermIndex) : hasAny p (permbit i) = p.testBit i.toNat := by
  unfold hasAny permbit
  rw [Nat.one_shiftLeft, Nat.and_two_pow]
  cases p.testBit i.toNat <;> simp

/-- Testing a union of masks. -/
theorem hasAny_or (p a b : Nat) : hasAny p (a ||| b) = (hasAny p a || hasAny p b) := by
  unfold hasAny
  rw [Nat.and_or_distrib_left]
  by_cases ha : p &&& a = 0
  · rw [ha, Nat.zero_or]
    rfl
  · have hor : (p &&& a) ||| (p &&& b) ≠ 0 := by
      rw [ne_eq, Nat.or_eq_zero_iff]
      exact fun h => ha h.1
    rw [bne_iff_ne.mpr hor, bne_iff_ne.mpr ha, Bool.true_or]

/-- Adding a permission that is there already. -/
theorem or_permbit_of_testBit {p : Nat} {i : MempermIndex} (h : p.testBit i.toNat = true) :
    p ||| permbit i = p := by
  apply Nat.eq_of_testBit_eq
  intro j
  unfold permbit
  rw [Nat.one_shiftLeft, Nat.testBit_or, Nat.testBit_two_pow]
  by_cases hj : i.toNat = j
  · rw [← hj, h, Bool.true_or]
  · rw [decide_eq_false hj, Bool.or_false]

/-- A permission is one of the ten low bits. -/
theorem permbit_lt (i : MempermIndex) : permbit i < 1024 := by cases i <;> decide

/-- A permission has its own bit. -/
theorem testBit_permbit_self (i : MempermIndex) : (permbit i).testBit i.toNat = true := by
  cases i <;> decide

/-- The leaf test looks at the bits `R`, `W` and `X`. -/
theorem hasAny_permRWX (p : Nat) : hasAny p permRWX = Sv39.isLeaf p := by
  unfold permRWX Sv39.isLeaf
  rw [hasAny_or, hasAny_or, hasAny_permbit, hasAny_permbit, hasAny_permbit]
  rfl

/-! ### The fields of an entry -/

/-- The address in an entry is its page number, shifted back. -/
theorem unpackPtEntry_address (e : Nat) :
    (unpackPtEntry e).address = e / 1024 * 4096 % 2 ^ 64 := by
  show e >>> 10 <<< 12 % 2 ^ 64 = _
  rw [Nat.shiftRight_eq_div_pow, Nat.shiftLeft_eq]

/-- The permissions in an entry are its low ten bits. -/
theorem unpackPtEntry_permissions (e : Nat) : (unpackPtEntry e).permissions = e % 1024 :=
  pow_sub_one_and e 10

/-- The low ten bits are kept when an entry is unpacked, -/
theorem testBit_mod_1024 (e : Nat) {i : Nat} (hi : i < 10) :
    (e % 1024).testBit i = e.testBit i := by
  rw [show (1024 : Nat) = 2 ^ 10 from rfl, Nat.testBit_mod_two_pow]
  simp [hi]

/-- and every permission is one of them. -/
theorem MempermIndex.toNat_lt (i : MempermIndex) : i.toNat < 10 := by cases i <;> decide

/-- A permission test on the unpacked entry is a bit of the packed one. -/
theorem hasAny_unpack (e : Nat) (i : MempermIndex) :
    hasAny (unpackPtEntry e).permissions (permbit i) = e.testBit i.toNat := by
  rw [hasAny_permbit, unpackPtEntry_permissions, testBit_mod_1024 e i.toNat_lt]

/-- So is the leaf test. -/
theorem hasAny_unpack_permRWX (e : Nat) :
    hasAny (unpackPtEntry e).permissions permRWX = Sv39.isLeaf e := by
  rw [hasAny_permRWX, unpackPtEntry_permissions]
  unfold Sv39.isLeaf
  rw [testBit_mod_1024 e (by decide), testBit_mod_1024 e (by decide),
    testBit_mod_1024 e (by decide)]

/-- A packed entry as a number: the page number above ten bits of permissions. -/
theorem packPtEntry_eq {a p : Nat} (hp : p < 1024) :
    packPtEntry ⟨a, p⟩ = a / 4096 * 1024 + p := by
  show (a >>> 12 <<< 10) ||| p = _
  rw [← Nat.shiftLeft_add_eq_or_of_lt (show p < 2 ^ 10 from hp), Nat.shiftRight_eq_div_pow,
    Nat.shiftLeft_eq]

/-- The permission bits of a packed entry are the permissions it was packed from. -/
theorem testBit_packPtEntry {a p i : Nat} (hp : p < 1024) (hi : i < 10) :
    (packPtEntry ⟨a, p⟩).testBit i = p.testBit i := by
  rw [← testBit_mod_1024 _ hi, packPtEntry_eq hp]
  congr 1
  omega

/-- Unpacking gives back the page and the permissions. -/
theorem unpack_pack {a p : Nat} (ha : a < 2 ^ 64) (hal : a % 4096 = 0) (hp : p < 1024) :
    unpackPtEntry (packPtEntry ⟨a, p⟩) = ⟨a, p⟩ := by
  have hperm : (a / 4096 * 1024 + p) % 1024 = p := by
    rw [Nat.mul_comm, Nat.mul_add_mod, Nat.mod_eq_of_lt hp]
  have hpage : (a / 4096 * 1024 + p) / 1024 = a / 4096 := by omega
  have haddr : (a / 4096 * 1024 + p) / 1024 * 4096 % 2 ^ 64 = a := by
    rw [hpage, Nat.div_mul_cancel (Nat.dvd_of_mod_eq_zero hal), Nat.mod_eq_of_lt ha]
  rw [packPtEntry_eq hp]
  ext
  · rw [unpackPtEntry_address, haddr]
  · rw [unpackPtEntry_permissions, hperm]

/-- It leaves the ten reserved bits clear. -/
theorem packPtEntry_lt {a p : Nat} (ha : a < 2 ^ 56) (hp : p < 1024) :
    packPtEntry ⟨a, p⟩ < 2 ^ 54 := by
  rw [packPtEntry_eq hp]
  omega

/-- On entries that fit the architectural format, the code's address field is the MMU's. -/
theorem unpackPtEntry_address_eq_ppn {e : Nat} (he : e < 2 ^ 54) :
    (unpackPtEntry e).address = Sv39.ppn e * 4096 := by
  rw [unpackPtEntry_address, Sv39.ppn]
  omega

/-! ### Reading tables -/

namespace Store

variable (st : Store)

/-- A doubleword is below `2 ^ 64`. -/
theorem load64_lt (a : Nat) : st.load64 a < 2 ^ 64 := load_lt st.mem a 8

/-- And so is an entry. -/
theorem entry_lt (t i : Nat) : st.entry t i < 2 ^ 64 := st.load64_lt _

/-- A word depends only on its eight bytes. -/
theorem load64_congr {st st' : Store} {a : Nat}
    (h : ∀ x, a ≤ x → x < a + 8 → st'.mem x = st.mem x) : st'.load64 a = st.load64 a :=
  load_congr h

/-- A doubleword just written is read back, -/
theorem load64_store64_same {a : Nat} {v : Nat} (hv : v < 2 ^ 64) :
    (st.store64 a v).load64 a = v := by
  show load (store st.mem a 8 v) a 8 = v
  rw [load_store_same]
  exact Nat.mod_eq_of_lt hv

/-- and one that lies apart is not touched. -/
theorem load64_store64_disjoint {a b : Nat} {v : Nat} (h : b + 8 ≤ a ∨ a + 8 ≤ b) :
    (st.store64 a v).load64 b = st.load64 b :=
  load_store_disjoint h

/-- A store changes only its own eight bytes. -/
theorem mem_store64 {a x : Nat} {v : Nat} (h : x < a ∨ a + 8 ≤ x) :
    (st.store64 a v).mem x = st.mem x :=
  store_apply_of_disjoint h

/-- The same for the entry of a table. -/
theorem entry_setEntry_same {t i v : Nat} (hv : v < 2 ^ 64) : (st.setEntry t i v).entry t i = v :=
  st.load64_store64_same hv

/-- Writing an entry of a page-aligned table leaves every other entry of every table alone. -/
theorem entry_setEntry_ne {t t' i j v : Nat} (ht : t % 4096 = 0) (ht' : t' % 4096 = 0)
    (hi : i < 512) (hj : j < 512) (hne : ¬ (t' = t ∧ j = i)) :
    (st.setEntry t i v).entry t' j = st.entry t' j := by
  apply load64_store64_disjoint
  omega

/-- Writing an entry of a table changes only that page. -/
theorem mem_setEntry {t i v x : Nat} (hi : i < 512) (h : x < t ∨ t + 4096 ≤ x) :
    (st.setEntry t i v).mem x = st.mem x :=
  st.mem_store64 (by omega)

@[simp] theorem freeListTop_setEntry (t i v : Nat) :
    (st.setEntry t i v).freeListTop = st.freeListTop := rfl
@[simp] theorem nextUnallocatedIdx_setEntry (t i v : Nat) :
    (st.setEntry t i v).nextUnallocatedIdx = st.nextUnallocatedIdx := rfl
@[simp] theorem freed_setEntry (t i v : Nat) : (st.setEntry t i v).freed = st.freed := rfl

end Store

end RiscvHypervisor
