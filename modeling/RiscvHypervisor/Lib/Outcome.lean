namespace Except

/-!
# Library — postconditions of fallible computations

A computation that may fail is an `Except ε α`.  `x.Post E Q` says what holds of its outcome
either way: `Q` of the result, `E` of the error.  `Post.bind` composes the postconditions of
the parts of a computation and `Post.mono` weakens them; with these two a specification of a
`do` block is assembled from one specification per call.
-/

variable {ε α β : Type}

/-- `Q` holds of the result if `x` returns, and `E` of the error if it fails. -/
structure Post (x : Except ε α) (E : ε → Prop) (Q : α → Prop) : Prop where
  ok : ∀ {a}, x = .ok a → Q a
  error : ∀ {e}, x = .error e → E e

variable {x : Except ε α} {E E' : ε → Prop} {Q Q' : α → Prop}

@[simp] theorem post_ok {a : α} : Post (.ok a : Except ε α) E Q ↔ Q a := by
  constructor
  · intro h
    exact h.ok rfl
  · intro h
    exact ⟨fun heq => by cases heq; exact h, nofun⟩

@[simp] theorem post_error {e : ε} : Post (.error e : Except ε α) E Q ↔ E e := by
  constructor
  · intro h
    exact h.error rfl
  · intro h
    exact ⟨nofun, fun heq => by cases heq; exact h⟩

/-- The rule of consequence, on both outcomes. -/
theorem Post.mono (h : x.Post E Q) (hE : ∀ e, E e → E' e) (hQ : ∀ a, Q a → Q' a) :
    x.Post E' Q' where
  ok heq := hQ _ (h.ok heq)
  error heq := hE _ (h.error heq)

/-- The rule of sequential composition. -/
theorem Post.bind {f : α → Except ε β} {R : β → Prop} (h : x.Post E Q)
    (hf : ∀ a, Q a → (f a).Post E R) : (x >>= f).Post E R := by
  cases x with
  | ok a    => exact hf a (h.ok rfl)
  | error e => exact post_error.mpr (h.error rfl)

/-- The rule for loops over `0, …, n - 1`: what holds at `i` holds at `i + 1` after turn `i`. -/
theorem Post.foldlM_range {σ : Type} {f : σ → Nat → Except ε σ} {P : Nat → σ → Prop} {s : σ}
    (h0 : P 0 s) : ∀ n, (∀ i t, i < n → P i t → (f t i).Post E (P (i + 1))) →
      ((List.range n).foldlM f s).Post E (P n) := by
  intro n
  induction n with
  | zero => exact fun _ => post_ok.mpr h0
  | succ n ih =>
    intro hstep
    rw [List.range_succ, List.foldlM_append]
    refine (ih (fun i t hi => hstep i t (Nat.lt_succ_of_lt hi))).bind (fun t ht => ?_)
    simp only [List.foldlM_cons, List.foldlM_nil]
    exact (hstep n t (Nat.lt_succ_self n) ht).bind (fun u hu => post_ok.mpr hu)

/-- A composition returns exactly when both parts do. -/
theorem bind_eq_ok {f : α → Except ε β} {b : β} :
    (x >>= f) = .ok b ↔ ∃ a, x = .ok a ∧ f a = .ok b := by
  cases x with
  | ok a =>
    constructor
    · intro h
      exact ⟨a, rfl, h⟩
    · rintro ⟨a', ha, hb⟩
      cases ha
      exact hb
  | error e =>
    constructor
    · intro h
      cases h
    · rintro ⟨a', ha, -⟩
      cases ha

/-- A composition fails when one of its parts does. -/
theorem bind_eq_error {f : α → Except ε β} {e : ε} :
    (x >>= f) = .error e ↔ x = .error e ∨ ∃ a, x = .ok a ∧ f a = .error e := by
  cases x with
  | ok a =>
    constructor
    · intro h
      exact Or.inr ⟨a, rfl, h⟩
    · rintro (h | ⟨a', ha, he⟩)
      · cases h
      · cases ha
        exact he
  | error e' =>
    constructor
    · intro h
      cases h
      exact Or.inl rfl
    · rintro (h | ⟨a', ha, -⟩)
      · cases h
        rfl
      · cases ha

/-- A computation that returns, seen as an option. -/
theorem toOption_eq_some {a : α} : x.toOption = some a ↔ x = .ok a := by
  cases x with
  | ok b    => simp [Except.toOption]
  | error e => simp [Except.toOption]

/-- What is seen of the result through `f`, if there is one. -/
theorem map_toOption_eq_some {f : α → β} {b : β} :
    x.toOption.map f = some b ↔ ∃ a, x = .ok a ∧ f a = b := by
  cases x with
  | ok a    => simp [Except.toOption]
  | error e => simp [Except.toOption]

/-- A failure passes through `map`. -/
theorem map_eq_error {f : α → β} {e : ε} : x.map f = .error e ↔ x = .error e := by
  cases x with
  | ok a     => simp [Except.map]
  | error e' => simp [Except.map]

end Except
