import BlueprintPackages.Proofs.Address.Outcome

/-!
# Lookups in parts

What a lookup comes to is told by two things, a name and the package in which it is looked up, or
the error with which the way to that package ends (`LooksUp`). For an address with segments the way
is their walk (`looksUp_of_splitsInto`), and a walk along some segments and then others is two walks
(`walk_append`). Along names a walk does nothing but go from package to subpackage, wherever it
started (`walk_names`).

Only one error knows anything of the address that was looked up: a missing system package quotes it.
So two lookups can come to the same under different addresses, apart from what is quoted; that is
what `AnswersAs` says. A walk behaves so whatever address it is given (`walk_quoting`).
-/

namespace BlueprintPackages

/-! ## Texts in parts -/

namespace Address

/-- The parts of a text between its slashes. -/
structure Parts (text : String) (parts : List String) : Prop where
  eq : text = "/".intercalate parts
  ne_nil : parts ≠ []
  slash_free : ∀ part ∈ parts, '/' ∉ part.toList

variable {text text' name : String} {parts parts' segments : List String}

/-- A text without slash is one part. -/
theorem Parts.single (h : '/' ∉ text.toList) : Parts text [text] :=
  ⟨(String.intercalate_singleton ..).symm, List.cons_ne_nil text [], by simpa using h⟩

/-- With a slash between them, two texts have the parts of the one and then those of the other. -/
theorem Parts.append (h : Parts text parts) (h' : Parts text' parts') :
    Parts (text ++ "/" ++ text') (parts ++ parts') where
  eq := by rw [h.eq, h'.eq, String.intercalate_append_of_ne_nil h.ne_nil h'.ne_nil]
  ne_nil := List.append_ne_nil_of_left_ne_nil h.ne_nil parts'
  slash_free := by
    intro part hpart
    rcases List.mem_append.mp hpart with hfirst | hsecond
    · exact h.slash_free part hfirst
    · exact h'.slash_free part hsecond

/-- The last part of a text is the name that its segments stand before. -/
theorem Parts.splitsInto (h : Parts text (segments ++ [name])) (hne : segments ≠ []) :
    SplitsInto text segments name where
  eq := by
    have hname : [name] ≠ [] := List.cons_ne_nil name []
    rw [h.eq, String.intercalate_append_of_ne_nil hne hname, String.intercalate_singleton]
  ne_nil := hne
  segment := fun segment hsegment => h.slash_free segment (List.mem_append_left _ hsegment)
  name := h.slash_free name (by simp)

/-- A text has its parts in one way only. -/
theorem parts_iff : Parts text parts ↔ (Text.pieces '/' text.toList).map String.ofList = parts := by
  rw [Text.map_ofList_pieces_eq_iff, String.ofList_toList]
  exact ⟨fun h => ⟨h.eq, h.ne_nil, h.slash_free⟩, fun ⟨heq, hne, hfree⟩ => ⟨heq, hne, hfree⟩⟩

/-- Every text has a last part. -/
theorem exists_parts (text : String) : ∃ segments name, Parts text (segments ++ [name]) := by
  have hparts : Parts text ((Text.pieces '/' text.toList).map String.ofList) := parts_iff.mpr rfl
  exact ⟨_, _, (List.dropLast_concat_getLast hparts.ne_nil).symm ▸ hparts⟩

/-- The last part is the end of the text. -/
theorem Parts.suffix (h : Parts text (segments ++ [name])) : name.toList <:+ text.toList := by
  by_cases hne : segments = []
  · subst hne
    have htext : text = name := by rw [h.eq, List.nil_append, String.intercalate_singleton]
    exact htext ▸ List.suffix_refl _
  · rw [(h.splitsInto hne).eq, String.toList_append]
    exact List.suffix_append _ _

theorem Parts.not_mem {c : Char} {part : String} (h : Parts text parts) (hc : c ∉ text.toList)
    (hpart : part ∈ parts) : c ∉ part.toList := by
  intro hmem
  apply hc
  rw [h.eq]
  exact Text.mem_intercalate hpart hmem

/-- Parts of a text that make up a text of their own. -/
theorem Parts.of_subset (h : Parts text parts) (hsub : parts' ⊆ parts) (hne : parts' ≠ []) :
    Parts ("/".intercalate parts') parts' :=
  ⟨rfl, hne, fun part hpart => h.slash_free part (hsub hpart)⟩

theorem Parts.not_mem_of_subset {c : Char} (h : Parts text parts) (hc : c ∉ text.toList)
    (hslash : c ≠ '/') (hsub : parts' ⊆ parts) : c ∉ ("/".intercalate parts').toList := by
  apply Text.not_mem_intercalate
  · simpa using hslash
  · intro part hpart
    exact h.not_mem hc (hsub hpart)

end Address

/-! ## Errors that quote an address -/

namespace LookupError

/-- The same error, with another address in place of the one that it may quote. -/
def quoting (address : String) : LookupError → LookupError
  | .noSystemPackage _ => .noSystemPackage address
  | .unresolvedAlias aliasName package => .unresolvedAlias aliasName package
  | .notFound kind name package => .notFound kind name package
  | .wrongRoot expected found => .wrongRoot expected found

end LookupError

namespace Package

variable {start start' q : Package} {address address' text name : String}

/-! ## Lookups -/

/-- Looking up an address comes to looking up a name in the package that was found as its owner, or
to the error that was met instead of one, for blueprints and for enumerations. -/
structure LooksUp (start : Package) (address : String) (owner : Except LookupError Package)
    (name : String) : Prop where
  blueprint : start.blueprintAt address = owner >>= fun q => (q.blueprint name).map (Resolved.mk q)
  enumeration : start.enumerationAt address =
    owner >>= fun q => (q.enumeration name).map (Resolved.mk q)

/-- Both lookups have the same outcome, but for the address that is quoted: if the one fails with a
missing system package, so does the other, each with the address that it was given. -/
structure AnswersAs (start : Package) (address : String) (start' : Package) (address' : String) :
    Prop where
  blueprint : start.blueprintAt address =
    (start'.blueprintAt address').mapError (.quoting address)
  enumeration : start.enumerationAt address =
    (start'.enumerationAt address').mapError (.quoting address)

/-- The name itself is looked up without a word on the address. -/
theorem blueprint_quoting (p : Package) (name address : String) :
    (p.blueprint name).mapError (.quoting address) = p.blueprint name := by
  unfold blueprint
  cases p.node.blueprints.get? name <;> rfl

theorem enumeration_quoting (p : Package) (name address : String) :
    (p.enumeration name).mapError (.quoting address) = p.enumeration name := by
  unfold enumeration
  cases p.node.enumerations.get? name <;> rfl

section Find

variable {α : Type} {find : Package → String → Except LookupError α}
  {owner : Except LookupError Package}

theorem resolve_bind_of_resolve (h : start.resolve address = owner.map fun q => (q, name)) :
    (do
      let (owner, name) ← start.resolve address
      return (⟨owner, ← find owner name⟩ : Resolved α)) =
      owner >>= fun q => (find q name).map (Resolved.mk q) := by
  rw [h]
  cases owner with
  | error error => rfl
  | ok q =>
      show (do return (⟨q, ← find q name⟩ : Resolved α)) = (find q name).map (Resolved.mk q)
      cases find q name <;> rfl

theorem bind_quoting (hfind : ∀ q, (find q name).mapError (.quoting address) = find q name) :
    (owner.mapError (.quoting address) >>= fun q => (find q name).map (Resolved.mk q)) =
      (owner >>= fun q => (find q name).map (Resolved.mk q)).mapError (.quoting address) := by
  cases owner with
  | error error => rfl
  | ok q =>
      show (find q name).map (Resolved.mk q) = ((find q name).map (Resolved.mk q)).mapError _
      conv_lhs => rw [← hfind q]
      cases find q name <;> rfl

end Find

theorem looksUp_of_resolve {owner : Except LookupError Package}
    (h : start.resolve address = owner.map fun q => (q, name)) :
    start.LooksUp address owner name :=
  ⟨resolve_bind_of_resolve h, resolve_bind_of_resolve h⟩

/-- An address with segments is looked up where they lead. -/
theorem looksUp_of_splitsInto {segments : List String} (h : start.Expands address text)
    (hsplit : Address.SplitsInto text segments name) :
    start.LooksUp address (start.walk address none (segments.map Segment.ofText)) name := by
  apply looksUp_of_resolve
  rw [resolve_of_expands h, follow_of_splitsInto hsplit]

/-- An address without colon is looked up where all its parts but the last lead. -/
theorem looksUp_of_parts {segments : List String} (hcolon : ':' ∉ address.toList)
    (hparts : Address.Parts address (segments ++ [name])) (hne : segments ≠ []) :
    start.LooksUp address (start.walk address none (segments.map Segment.ofText)) name :=
  looksUp_of_splitsInto (.plain (.inl hcolon)) (hparts.splitsInto hne)

theorem LooksUp.of_error {error : LookupError} (h : start.LooksUp address (.error error) name) :
    start.blueprintAt address = .error error ∧ start.enumerationAt address = .error error :=
  ⟨h.blueprint, h.enumeration⟩

/-- What is looked up in the same place is found, or not found, alike. -/
theorem LooksUp.unique {owner : Except LookupError Package} (h : start.LooksUp address owner name)
    (h' : start'.LooksUp address' owner name) :
    start.blueprintAt address = start'.blueprintAt address' ∧
      start.enumerationAt address = start'.enumerationAt address' :=
  ⟨h.blueprint.trans h'.blueprint.symm, h.enumeration.trans h'.enumeration.symm⟩

/-- The same name is looked up at the ends of two ways, so it is enough that the ways agree. -/
theorem LooksUp.answersAs {owner : Except LookupError Package}
    (h : start.LooksUp address (owner.mapError (.quoting address)) name)
    (h' : start'.LooksUp address' owner name) : start.AnswersAs address start' address' := by
  constructor
  · rw [h.blueprint, h'.blueprint, bind_quoting]
    exact fun q => q.blueprint_quoting name address
  · rw [h.enumeration, h'.enumeration, bind_quoting]
    exact fun q => q.enumeration_quoting name address

/-! ## Walks -/

/-- The address that a walk is given is quoted by its error, and is good for nothing else. -/
theorem step_quoting (address address' : String) (current : Option Package) (segment : Segment) :
    start.step address current segment =
      (start.step address' current segment).mapError (.quoting address) := by
  cases segment with
  | root => rfl
  | system =>
      rw [step, step]
      cases start.system? <;> rfl
  | name text =>
      cases current with
      | none =>
          rw [step, step]
          split <;> rfl
      | some q =>
          show q.subpackage text = (q.subpackage text).mapError _
          rw [subpackage]
          split <;> rfl

theorem walk_quoting (address address' : String) (current : Option Package)
    (segments : List Segment) :
    start.walk address current segments =
      (start.walk address' current segments).mapError (.quoting address) := by
  induction segments generalizing current with
  | nil => rfl
  | cons segment rest ih =>
      rw [walk, walk, step_quoting address address' current segment]
      cases start.step address' current segment with
      | error error => rfl
      | ok next => exact ih (some next)

/-- Once there is a segment, a walk that goes on is a walk from where it has led. Without one it
has come nowhere yet, which is not the same as being at the start: the first name must still be the
root's. -/
theorem walk_append {before : List Segment} (hne : before ≠ []) (after : List Segment)
    (current : Option Package) :
    start.walk address current (before ++ after) =
      start.walk address current before >>= fun q => start.walk address (some q) after := by
  induction before generalizing current with
  | nil => exact absurd rfl hne
  | cons segment rest ih =>
      rw [List.cons_append, walk, walk]
      cases start.step address current segment with
      | error error => rfl
      | ok next =>
          show start.walk address (some next) (rest ++ after) = _
          by_cases hrest : rest = []
          · subst hrest
            rfl
          · exact ih hrest (some next)

/-- Along names a walk goes down from package to subpackage. -/
theorem walk_names {names : List String} (hnames : ∀ name ∈ names, Segment.IsName name) :
    start.walk address (some q) (names.map Segment.ofText) = names.foldlM subpackage q := by
  induction names generalizing q with
  | nil => rfl
  | cons name rest ih =>
      rw [List.forall_mem_cons] at hnames
      rw [List.map_cons, hnames.1.ofText_eq, walk, List.foldlM_cons]
      show (q.subpackage name >>= fun next =>
        start.walk address (some next) (rest.map Segment.ofText)) = _
      simp only [ih hnames.2]

/-- Where an address goes on with names, they lead down from where its first segments have led. -/
theorem looksUp_below {way names : List String} {base rest quoted : String}
    (hbase : Address.Parts base way)
    (hwalk : start.walk quoted none (way.map Segment.ofText) = .ok q)
    (hnames : ∀ name ∈ names, Segment.IsName name)
    (hrest : Address.Parts rest (names ++ [name]))
    (h : start.Expands address (base ++ "/" ++ rest)) :
    start.LooksUp address (names.foldlM subpackage q) name := by
  have hparts : Address.Parts (base ++ "/" ++ rest) (way ++ names ++ [name]) := by
    rw [List.append_assoc]
    exact hbase.append hrest
  have hne : way.map Segment.ofText ≠ [] := by simpa using hbase.ne_nil
  have hlooks := looksUp_of_splitsInto h
    (hparts.splitsInto (List.append_ne_nil_of_left_ne_nil hbase.ne_nil names))
  rw [List.map_append, walk_append hne, walk_quoting address quoted, hwalk] at hlooks
  rw [← walk_names hnames]
  exact hlooks

end Package

end BlueprintPackages
