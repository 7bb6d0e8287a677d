namespace FreeChain

/-!
# Library — intrusive linked lists

A free list whose links live inside the blocks it strings together: `next p` is the link
stored in block `p`, and `0` ends the list.  `Linked next top l` says that the list entered at
`top` runs through exactly the blocks `l`.  The lemmas say which writes keep the list: those
that leave its own links alone (`Linked.congr`), and pushing a block in front (`Linked.push`);
and that a list which ends visits no block twice (`Linked.nodup`).
-/

/-- The list entered at `top` visits exactly the blocks of `l`, in order, and then ends. -/
def Linked (next : Nat → Nat) : Nat → List Nat → Prop
  | top, []        => top = 0
  | top, p :: rest => top = p ∧ p ≠ 0 ∧ Linked next (next p) rest

variable {next next' : Nat → Nat} {top : Nat} {l : List Nat}

/-- A list depends only on the links of its own blocks. -/
theorem Linked.congr (h : Linked next top l) (hnext : ∀ p ∈ l, next' p = next p) :
    Linked next' top l := by
  induction l generalizing top with
  | nil => exact h
  | cons p rest ih =>
    obtain ⟨htop, hp, hrest⟩ := h
    refine ⟨htop, hp, ?_⟩
    rw [hnext p (by simp)]
    exact ih hrest (fun q hq => hnext q (by simp [hq]))

/-- Pushing a block whose link is the old entry point. -/
theorem Linked.push {p : Nat} (h : Linked next top l) (hp : p ≠ 0) (hlink : next' p = top)
    (hnext : ∀ q ∈ l, next' q = next q) : Linked next' p (p :: l) := by
  refine ⟨rfl, hp, ?_⟩
  rw [hlink]
  exact h.congr hnext

/-- A list entered at `0` is empty. -/
theorem Linked.eq_nil (h : Linked next 0 l) : l = [] := by
  cases l with
  | nil => rfl
  | cons p rest =>
    obtain ⟨htop, hp, -⟩ := h
    exact absurd htop.symm hp

/-- A list entered at a block starts with that block and goes on at its link. -/
theorem Linked.eq_cons (h : Linked next top l) (htop : top ≠ 0) :
    ∃ rest, l = top :: rest ∧ Linked next (next top) rest := by
  cases l with
  | nil => exact absurd h htop
  | cons p rest =>
    obtain ⟨rfl, -, hrest⟩ := h
    exact ⟨rest, rfl, hrest⟩

/-- The entry point and the links determine the list. -/
theorem Linked.unique {l' : List Nat} (h : Linked next top l) (h' : Linked next top l') :
    l = l' := by
  induction l generalizing top l' with
  | nil =>
    rw [show top = 0 from h] at h'
    exact h'.eq_nil.symm
  | cons p rest ih =>
    obtain ⟨rfl, hp, hrest⟩ := h
    obtain ⟨rest', rfl, hrest'⟩ := h'.eq_cons hp
    rw [ih hrest hrest']

/-- From a block in the middle the list goes on with what follows that block. -/
theorem Linked.drop {before : List Nat} {p : Nat} {rest : List Nat}
    (h : Linked next top (before ++ p :: rest)) : Linked next p (p :: rest) := by
  induction before generalizing top with
  | nil =>
    obtain ⟨rfl, hp, hrest⟩ := h
    exact ⟨rfl, hp, hrest⟩
  | cons q before ih => exact ih h.2.2

/-- A list that ends visits no block twice. -/
theorem Linked.nodup (h : Linked next top l) : l.Nodup := by
  induction l generalizing top with
  | nil => exact List.nodup_nil
  | cons p rest ih =>
    refine List.nodup_cons.mpr ⟨?_, ih h.2.2⟩
    intro hmem
    obtain ⟨before, after, rfl⟩ := List.append_of_mem hmem
    obtain ⟨-, hp, hrest⟩ := h
    -- the list from the second visit is the list from the first one, but shorter
    have hsame : p :: (before ++ p :: after) = p :: after :=
      Linked.unique ⟨rfl, hp, hrest⟩ hrest.drop
    have hlength := congrArg List.length hsame
    simp only [List.length_cons, List.length_append] at hlength
    omega

end FreeChain
