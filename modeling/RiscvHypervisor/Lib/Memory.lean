import Mathlib.Tactic.Ring

namespace ByteMem

/-!
# Library — byte-addressed memory with little-endian words

A flat memory is a total function from addresses to bytes.  `load m a n` reads `n` bytes
at `a` as one little-endian number and `store m a n v` writes the low `n` bytes of `v`.
The lemmas are the read-over-write laws: a load sees exactly the bytes it covers
(`load_congr`), the store at the same place (`load_store_same`), and nothing of a store at a
disjoint place (`load_store_disjoint`).
-/

/-- A memory: one byte at every address. -/
abbrev Mem := Nat → BitVec 8

/-- The `n` bytes at `a`, read as one little-endian number. -/
def load (m : Mem) (a : Nat) : Nat → Nat
  | 0     => 0
  | n + 1 => (m a).toNat + 256 * load m (a + 1) n

/-- Write the low `n` bytes of `v` at `a`, least significant byte first. -/
def store (m : Mem) (a n v : Nat) : Mem :=
  fun x => if a ≤ x ∧ x < a + n then BitVec.ofNat 8 (v / 256 ^ (x - a)) else m x

variable {m m' : Mem} {a b n k v : Nat}

/-- A load depends only on the bytes it covers. -/
theorem load_congr (h : ∀ x, a ≤ x → x < a + n → m x = m' x) : load m a n = load m' a n := by
  induction n generalizing a with
  | zero => rfl
  | succ n ih =>
    have hrest : load m (a + 1) n = load m' (a + 1) n :=
      ih (fun x hlo hhi => h x (by omega) (by omega))
    rw [load, load, h a (le_refl a) (by omega), hrest]

/-- An `n`-byte load is an `n`-byte number. -/
theorem load_lt (m : Mem) (a n : Nat) : load m a n < 256 ^ n := by
  induction n generalizing a with
  | zero => simp [load]
  | succ n ih =>
    have hbyte : (m a).toNat < 256 := (m a).isLt
    have hrest := ih (a + 1)
    rw [load, pow_succ]
    omega

/-- A load of two adjacent ranges. -/
theorem load_add (m : Mem) (a n k : Nat) :
    load m a (n + k) = load m a n + 256 ^ n * load m (a + n) k := by
  induction n generalizing a with
  | zero => simp [load]
  | succ n ih =>
    rw [Nat.add_right_comm, load, ih (a + 1), load, pow_succ', Nat.add_assoc a 1 n,
      Nat.add_comm 1 n]
    ring

/-- Zero bytes read as zero. -/
theorem load_eq_zero (h : ∀ x, a ≤ x → x < a + n → m x = 0) : load m a n = 0 := by
  induction n generalizing a with
  | zero => rfl
  | succ n ih =>
    rw [load, h a (le_refl a) (by omega), ih (fun x hlo hhi => h x (by omega) (by omega))]
    rfl

/-- A store leaves the bytes outside its range alone. -/
theorem store_apply_of_disjoint {x : Nat} (h : x < a ∨ a + n ≤ x) : store m a n v x = m x := by
  unfold store
  rw [if_neg (by omega)]

/-- A store of one more byte is a one-byte store followed by the store of the rest. -/
private theorem store_succ_tail {x : Nat} (hlo : a + 1 ≤ x) (hhi : x < a + 1 + n) :
    store m a (n + 1) v x = store m (a + 1) n (v / 256) x := by
  unfold store
  rw [if_pos (by omega), if_pos (by omega), Nat.div_div_eq_div_mul, ← pow_succ']
  congr 3
  omega

/-- **Read after write.**  Loading what was just stored gives back the low `n` bytes. -/
theorem load_store_same (m : Mem) (a n v : Nat) : load (store m a n v) a n = v % 256 ^ n := by
  induction n generalizing a v with
  | zero => simp [load, Nat.mod_one]
  | succ n ih =>
    have hhead : (store m a (n + 1) v a).toNat = v % 256 := by
      unfold store
      rw [if_pos (by omega)]
      simp
    have htail : load (store m a (n + 1) v) (a + 1) n = v / 256 % 256 ^ n := by
      rw [← ih (a + 1) (v / 256)]
      exact load_congr (fun x hlo hhi => store_succ_tail hlo hhi)
    rw [load, hhead, htail, pow_succ', Nat.mod_mul]

/-- **Read beside a write.**  A store does not change a load from a disjoint range. -/
theorem load_store_disjoint (h : b + k ≤ a ∨ a + n ≤ b) :
    load (store m a n v) b k = load m b k :=
  load_congr (fun _ hlo hhi => store_apply_of_disjoint (by omega))

/-- A byte outside the range of a store can be written before it or after it. -/
theorem store_update_of_disjoint {x : Nat} (h : x < a ∨ a + n ≤ x) (value : BitVec 8) :
    store (Function.update m x value) a n v = Function.update (store m a n v) x value := by
  funext y
  by_cases hy : y = x
  · rw [hy, store_apply_of_disjoint h, Function.update_self, Function.update_self]
  · rw [Function.update_of_ne hy]
    unfold store
    rw [Function.update_of_ne hy]

end ByteMem
