/-!
# Cutting texts at a character

Texts are cut at the first or last place of a separator, or at every place. `cutFirst?_eq_some` and
`cutLast?_eq_some` say that the parts and the separator make up the text, and on which side no
further separator is left.
-/

namespace BlueprintPackages.Text

/-- The parts before and after the first separator. -/
def cutFirst? (sep : Char) : List Char → Option (List Char × List Char)
  | [] => none
  | c :: rest =>
    if c = sep then some ([], rest)
    else (cutFirst? sep rest).map fun (before, after) => (c :: before, after)

/-- The parts before and after the last separator. -/
def cutLast? (sep : Char) : List Char → Option (List Char × List Char)
  | [] => none
  | c :: rest =>
    match cutLast? sep rest with
    | some (before, after) => some (c :: before, after)
    | none => if c = sep then some ([], rest) else none

/-- The pieces between separators; a text without separators is one piece. -/
def pieces (sep : Char) : List Char → List (List Char)
  | [] => [[]]
  | c :: rest =>
    if c = sep then [] :: pieces sep rest
    else
      match pieces sep rest with
      | [] => [[c]]
      | first :: more => (c :: first) :: more

/-! ## Laws -/

theorem cutFirst?_eq_some {sep : Char} {text before after : List Char}
    (h : cutFirst? sep text = some (before, after)) :
    text = before ++ sep :: after ∧ sep ∉ before := by
  induction text generalizing before with
  | nil => exact nomatch h
  | cons c rest ih =>
      rw [cutFirst?] at h
      split at h
      · next hc =>
        obtain ⟨rfl, rfl⟩ := Prod.mk.inj (Option.some.inj h)
        exact ⟨by rw [hc, List.nil_append], List.not_mem_nil⟩
      · next hc =>
        obtain ⟨⟨b, a⟩, hcut, heq⟩ := Option.map_eq_some_iff.mp h
        obtain ⟨rfl, rfl⟩ := Prod.mk.inj heq
        obtain ⟨hrest, hsep⟩ := ih hcut
        refine ⟨by rw [hrest, List.cons_append], ?_⟩
        rw [List.mem_cons]
        rintro (rfl | hmem)
        · exact hc rfl
        · exact hsep hmem

theorem cutFirst?_eq_none {sep : Char} {text : List Char} :
    cutFirst? sep text = none ↔ sep ∉ text := by
  induction text with
  | nil => simp [cutFirst?]
  | cons c rest ih =>
      rw [cutFirst?]
      split
      · next hc => simp [hc]
      · next hc =>
        have hc' : sep ≠ c := fun h => hc h.symm
        simp [ih, hc']

theorem cutLast?_eq_none {sep : Char} {text : List Char} :
    cutLast? sep text = none ↔ sep ∉ text := by
  induction text with
  | nil => simp [cutLast?]
  | cons c rest ih =>
      rw [cutLast?]
      split
      · next before after hcut =>
        have hmem : sep ∈ rest := Classical.byContradiction fun h => by simp [ih.mpr h] at hcut
        simp [hmem]
      · next hcut =>
        have hmem := ih.mp hcut
        by_cases hc : c = sep
        · simp [hc]
        · have hc' : sep ≠ c := fun h => hc h.symm
          simp [hc, hc', hmem]

theorem cutLast?_eq_some {sep : Char} {text before after : List Char}
    (h : cutLast? sep text = some (before, after)) :
    text = before ++ sep :: after ∧ sep ∉ after := by
  induction text generalizing before with
  | nil => exact nomatch h
  | cons c rest ih =>
      rw [cutLast?] at h
      split at h
      · next b a hcut =>
        obtain ⟨rfl, rfl⟩ := Prod.mk.inj (Option.some.inj h)
        obtain ⟨hrest, hsep⟩ := ih hcut
        exact ⟨by rw [hrest, List.cons_append], hsep⟩
      · next hcut =>
        split at h
        · next hc =>
          obtain ⟨rfl, rfl⟩ := Prod.mk.inj (Option.some.inj h)
          exact ⟨by rw [hc, List.nil_append], cutLast?_eq_none.mp hcut⟩
        · exact nomatch h

theorem pieces_ne_nil (sep : Char) (text : List Char) : pieces sep text ≠ [] := by
  cases text with
  | nil => exact fun h => nomatch h
  | cons c rest =>
      rw [pieces]
      split
      · exact fun h => nomatch h
      · split <;> exact fun h => nomatch h

end BlueprintPackages.Text
