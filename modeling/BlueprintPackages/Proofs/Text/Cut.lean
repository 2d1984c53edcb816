import BlueprintPackages.Text.Cut

/-!
# Cutting and putting together

What is put together from parts at a separator is cut into the same parts, if the separator is not
in the part that it must not be in: `cutFirst?_eq_some_iff` and `cutLast?_eq_some_iff` for one cut,
`pieces_eq_splitOn` for all of them, which makes the laws of the standard library's `splitOn` those
of `pieces`. For texts at slashes that is `map_ofList_pieces_eq_iff`.
-/

namespace BlueprintPackages.Text

variable {sep : Char} {text before after : List Char}

theorem cutFirst?_append (after : List Char) (h : sep ∉ before) :
    cutFirst? sep (before ++ sep :: after) = some (before, after) := by
  induction before with
  | nil => rw [List.nil_append, cutFirst?, if_pos rfl]
  | cons c rest ih =>
      rw [List.mem_cons, not_or] at h
      rw [List.cons_append, cutFirst?, if_neg (Ne.symm h.1), ih h.2, Option.map_some]

theorem cutFirst?_eq_some_iff :
    cutFirst? sep text = some (before, after) ↔ text = before ++ sep :: after ∧ sep ∉ before := by
  constructor
  · exact cutFirst?_eq_some
  · rintro ⟨rfl, h⟩
    exact cutFirst?_append after h

theorem cutLast?_append (before : List Char) (h : sep ∉ after) :
    cutLast? sep (before ++ sep :: after) = some (before, after) := by
  induction before with
  | nil => rw [List.nil_append, cutLast?, cutLast?_eq_none.mpr h, if_pos rfl]
  | cons c rest ih => rw [List.cons_append, cutLast?, ih]

theorem cutLast?_eq_some_iff :
    cutLast? sep text = some (before, after) ↔ text = before ++ sep :: after ∧ sep ∉ after := by
  constructor
  · exact cutLast?_eq_some
  · rintro ⟨rfl, h⟩
    exact cutLast?_append before h

theorem pieces_eq_splitOn (sep : Char) (text : List Char) : pieces sep text = text.splitOn sep := by
  induction text with
  | nil => rfl
  | cons c rest ih =>
      rw [pieces, List.splitOn_cons_eq_if_modifyHead, ih]
      by_cases hc : c = sep
      · simp [hc]
      · rw [if_neg hc, if_neg (by simpa using hc)]
        cases hrest : rest.splitOn sep with
        | nil => exact absurd hrest (List.splitOn_ne_nil sep rest)
        | cons first more => rfl

/-- No separator is left in a piece. -/
theorem not_mem_of_mem_pieces {piece : List Char} (h : piece ∈ pieces sep text) : sep ∉ piece := by
  induction text generalizing piece with
  | nil => simp_all [pieces]
  | cons c rest ih =>
      rw [pieces] at h
      split at h
      · rcases List.mem_cons.mp h with rfl | hmem
        · exact List.not_mem_nil
        · exact ih hmem
      · next hc =>
        split at h
        · next hnil => exact absurd hnil (pieces_ne_nil sep rest)
        · next first more hpieces =>
          rcases List.mem_cons.mp h with rfl | hmem
          · rw [List.mem_cons, not_or]
            exact ⟨Ne.symm hc, ih (hpieces ▸ List.mem_cons_self)⟩
          · exact ih (hpieces ▸ List.mem_cons_of_mem _ hmem)

/-- The pieces of a text between its slashes are the parts without slash that make it up. -/
theorem map_ofList_pieces_eq_iff {parts : List String} :
    (pieces '/' text).map String.ofList = parts ↔
      String.ofList text = "/".intercalate parts ∧ parts ≠ [] ∧
        ∀ part ∈ parts, '/' ∉ part.toList := by
  constructor
  · rintro rfl
    refine ⟨?_, by simpa using pieces_ne_nil '/' text, ?_⟩
    · rw [← String.toList_inj]
      simp [pieces_eq_splitOn, Function.comp_def]
    · intro part hpart
      obtain ⟨piece, hpiece, rfl⟩ := List.mem_map.mp hpart
      rw [String.toList_ofList]
      exact not_mem_of_mem_pieces hpiece
  · rintro ⟨htext, hne, hfree⟩
    have hchars : text = ['/'].intercalate (parts.map String.toList) := by
      rw [← String.toList_ofList (l := text), htext]
      simp
    have hfree' : ∀ chars ∈ parts.map String.toList, '/' ∉ chars := by simpa using hfree
    rw [hchars, pieces_eq_splitOn, List.splitOn_intercalate '/' hfree' (by simpa using hne)]
    simp

/-- What follows the last separator of a text lies within whatever follows some separator of it. -/
theorem suffix_of_append_eq_append {front back : List Char}
    (h : before ++ sep :: after = front ++ sep :: back) (hsep : sep ∉ after) : after <:+ back := by
  rcases List.append_eq_append_iff.mp h with ⟨gap, -, hgap⟩ | ⟨gap, -, hgap⟩
  · cases gap with
    | nil =>
        obtain ⟨-, rfl⟩ := List.cons.inj hgap
        exact List.suffix_refl _
    | cons c rest =>
        -- then a separator would follow the last one
        obtain ⟨-, rfl⟩ := List.cons.inj hgap
        exact absurd (List.mem_append_right rest List.mem_cons_self) hsep
  · cases gap with
    | nil =>
        obtain ⟨-, rfl⟩ := List.cons.inj hgap
        exact List.suffix_refl _
    | cons c rest =>
        obtain ⟨-, rfl⟩ := List.cons.inj hgap
        exact ⟨rest ++ [sep], by simp⟩

/-- A character that is in no part and not in what stands between them is not in the whole. -/
theorem not_mem_intercalate {c : Char} {between : String} {parts : List String}
    (hbetween : c ∉ between.toList) (h : ∀ part ∈ parts, c ∉ part.toList) :
    c ∉ (between.intercalate parts).toList := by
  induction parts with
  | nil => simp
  | cons part rest ih =>
      rw [List.forall_mem_cons] at h
      cases rest with
      | nil => simpa using h.1
      | cons next more =>
          rw [String.intercalate_cons_cons, String.toList_append, String.toList_append,
            List.mem_append, List.mem_append, not_or, not_or]
          exact ⟨⟨h.1, hbetween⟩, ih h.2⟩

theorem mem_intercalate {c : Char} {between part : String} {parts : List String}
    (hpart : part ∈ parts) (hc : c ∈ part.toList) : c ∈ (between.intercalate parts).toList := by
  induction parts with
  | nil => exact absurd hpart List.not_mem_nil
  | cons first rest ih =>
      by_cases hrest : rest = []
      · subst hrest
        rw [List.mem_singleton] at hpart
        simpa [hpart] using hc
      · rw [String.intercalate_cons_of_ne_nil hrest, String.toList_append, List.mem_append]
        rcases List.mem_cons.mp hpart with rfl | hmem
        · left
          simp [hc]
        · exact .inr (ih hmem)

end BlueprintPackages.Text
