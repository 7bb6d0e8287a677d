namespace FirstMin

/-!
# Library — the first minimum of a list

A loop over a list that keeps the best element so far, and replaces it only by a strictly better
one, ends with the *first* element of least key, if that key is below the bound the loop started
from (`IsFirstMin`).  `IsFirstMin.snoc` is one turn of such a loop, `foldl_induction` the rule for
a loop whose invariant speaks about the elements it has seen.
-/

variable {α β : Type}

/-- The loop over `l` that started from `bound` ends with `best`: nothing is below the bound, or
    `best` is the first of the elements with the least key. -/
def IsFirstMin (key : α → Nat) (bound : Nat) (l : List α) : Option α → Prop
  | none   => ∀ a ∈ l, bound ≤ key a
  | some a => key a < bound ∧ ∃ before after, l = before ++ a :: after ∧
      (∀ b ∈ before, key a < key b) ∧ ∀ b ∈ after, key a ≤ key b

/-- What a new element has to beat. -/
def mark (key : α → Nat) (bound : Nat) : Option α → Nat
  | none   => bound
  | some a => key a

variable {key : α → Nat} {bound : Nat} {l : List α} {best : Option α}

/-- Nothing in the list is below the mark. -/
theorem IsFirstMin.mark_le (h : IsFirstMin key bound l best) :
    ∀ a ∈ l, mark key bound best ≤ key a := by
  cases best with
  | none => exact h
  | some m =>
    obtain ⟨-, before, after, rfl, hbefore, hafter⟩ := h
    intro a ha
    rcases List.mem_append.mp ha with ha | ha
    · exact Nat.le_of_lt (hbefore a ha)
    · rcases List.mem_cons.mp ha with rfl | ha
      · exact Nat.le_refl _
      · exact hafter a ha

/-- The mark never exceeds the bound. -/
theorem IsFirstMin.mark_le_bound (h : IsFirstMin key bound l best) :
    mark key bound best ≤ bound := by
  cases best with
  | none => exact Nat.le_refl _
  | some m => exact Nat.le_of_lt h.1

/-- **One turn.**  An element that beats the mark becomes the best, any other is passed over. -/
theorem IsFirstMin.snoc (h : IsFirstMin key bound l best) (a : α) :
    IsFirstMin key bound (l ++ [a]) (if key a < mark key bound best then some a else best) := by
  have hle := h.mark_le
  split
  · rename_i hlt
    refine ⟨Nat.lt_of_lt_of_le hlt h.mark_le_bound, l, [], rfl, ?_, ?_⟩
    · intro b hb
      exact Nat.lt_of_lt_of_le hlt (hle b hb)
    · intro b hb
      cases hb
  · rename_i hge
    cases best with
    | none =>
      intro b hb
      rcases List.mem_append.mp hb with hb | hb
      · exact h b hb
      · rw [List.mem_singleton.mp hb]
        exact Nat.le_of_not_lt hge
    | some m =>
      obtain ⟨hm, before, after, rfl, hbefore, hafter⟩ := h
      refine ⟨hm, before, after ++ [a], by simp, hbefore, ?_⟩
      intro b hb
      rcases List.mem_append.mp hb with hb | hb
      · exact hafter b hb
      · rw [List.mem_singleton.mp hb]
        exact Nat.le_of_not_lt hge

/-- **Loops.**  An invariant about the elements seen so far and the state. -/
theorem foldl_induction {P : List α → β → Prop} {f : β → α → β} {b : β} (l : List α)
    (start : P [] b) (step : ∀ seen b a, a ∈ l → P seen b → P (seen ++ [a]) (f b a)) :
    P l (l.foldl f b) := by
  have hrun : ∀ (rest seen : List α) (b : β), (∀ a ∈ rest, a ∈ l) → P seen b →
      P (seen ++ rest) (rest.foldl f b) := by
    intro rest
    induction rest with
    | nil =>
      intro seen b _ h
      rw [List.append_nil]
      exact h
    | cons a rest ih =>
      intro seen b hmem h
      have hnext := ih (seen ++ [a]) (f b a) (fun c hc => hmem c (List.mem_cons_of_mem a hc))
        (step seen b a (hmem a List.mem_cons_self) h)
      rw [List.append_assoc] at hnext
      exact hnext
  exact hrun l [] b (fun _ ha => ha) start

end FirstMin
