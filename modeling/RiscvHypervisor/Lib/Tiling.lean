import Mathlib.Algebra.Ring.Nat
import Mathlib.Logic.ExistsUnique

namespace Tiling

/-!
# Library — tilings of an interval

A run of non-empty chunks that lie one after the other and together make up an interval of the
natural numbers.  A chunk is anything that has an offset and a length.
-/

variable {α : Type} {offset length : α → Nat}

/-- `chunks` lie one after the other from `lo` on and end at `hi`. -/
inductive Tiles (offset length : α → Nat) : Nat → Nat → List α → Prop where
  | nil (n : Nat) : Tiles offset length n n []
  | cons {hi : Nat} {c : α} {cs : List α} (nonempty : 0 < length c)
      (rest : Tiles offset length (offset c + length c) hi cs) :
      Tiles offset length (offset c) hi (c :: cs)

namespace Tiles

variable {lo hi : Nat} {chunks : List α}

theorem le (h : Tiles offset length lo hi chunks) : lo ≤ hi := by
  induction h with
  | nil n => exact Nat.le_refl n
  | cons nonempty rest ih => omega

/-- Every chunk has bytes, and these are of the interval. -/
theorem mem_bounds (h : Tiles offset length lo hi chunks) {c : α} (hc : c ∈ chunks) :
    0 < length c ∧ lo ≤ offset c ∧ offset c + length c ≤ hi := by
  induction h with
  | nil n => cases hc
  | cons nonempty rest ih =>
    rcases List.mem_cons.mp hc with rfl | hc
    · exact ⟨nonempty, Nat.le_refl _, rest.le⟩
    · obtain ⟨hpos, hlo, hhi⟩ := ih hc
      exact ⟨hpos, by omega, hhi⟩

/-- The lengths add up to the length of the interval. -/
theorem sum_length (h : Tiles offset length lo hi chunks) :
    lo + (chunks.map length).sum = hi := by
  induction h with
  | nil n => simp
  | cons nonempty rest ih =>
    rw [List.map_cons, List.sum_cons]
    omega

/-- Every element of the interval is in one chunk and in no other. -/
theorem existsUnique_mem (h : Tiles offset length lo hi chunks) {x : Nat} (hlo : lo ≤ x)
    (hhi : x < hi) : ∃! c, c ∈ chunks ∧ offset c ≤ x ∧ x < offset c + length c := by
  induction h with
  | nil n => omega
  | @cons hi c cs nonempty rest ih =>
    by_cases hx : x < offset c + length c
    · -- the chunks that follow start after `x`
      refine ⟨c, ⟨List.mem_cons_self, hlo, hx⟩, ?_⟩
      rintro d ⟨hd, hdlo, -⟩
      rcases List.mem_cons.mp hd with rfl | hd
      · rfl
      · have hstart := (rest.mem_bounds hd).2.1
        omega
    · obtain ⟨d, ⟨hd, hdlo, hdhi⟩, hunique⟩ := ih (by omega) hhi
      refine ⟨d, ⟨List.mem_cons_of_mem _ hd, hdlo, hdhi⟩, ?_⟩
      rintro e ⟨he, helo, hehi⟩
      rcases List.mem_cons.mp he with rfl | he
      · exact absurd hehi hx
      · exact hunique e ⟨he, helo, hehi⟩

end Tiles

end Tiling
