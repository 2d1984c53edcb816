import BlueprintPackages.Proofs.Address.Rules

/-!
# What looking up an address comes to

The rules of addresses decide every lookup in a loaded tree. The lookup takes an address apart into
an alias, segments and a name; `split?_eq_some_iff` and `splitsInto_iff` say that the parts are
those of the rules, and `resolve_eq` that the name which is cut off the address as it was given is
the one that the segments led to. So resolving gives what the address designates
(`resolve_eq_ok_iff`) or the error it is misled by (`resolve_eq_error_iff`), and an entity is
looked up where that leads (`lookup_outcome`).
-/

namespace BlueprintPackages

/-! ## Taking an address apart -/

namespace Address

variable {text aliasName rest name : String} {segments : List String}

theorem split?_eq_some_iff :
    Alias.split? text = some (aliasName, rest) ↔ UsesAlias text aliasName rest := by
  rw [Alias.split?]
  constructor
  · intro h
    split at h
    · next c before after hcut =>
      obtain ⟨rfl, rfl⟩ := Prod.mk.inj (Option.some.inj h)
      obtain ⟨htext, hcolon⟩ := Text.cutFirst?_eq_some hcut
      refine ⟨?_, by rwa [String.toList_ofList], ?_⟩
      · rw [← String.toList_inj, htext]
        simp
      · intro hempty
        have hnil := congrArg String.toList hempty
        simp at hnil
    · exact nomatch h
  · rintro ⟨rfl, hcolon, hne⟩
    have hcut : Text.cutFirst? ':' (aliasName ++ ":" ++ rest).toList =
        some (aliasName.toList, rest.toList) := by
      rw [Text.cutFirst?_eq_some_iff]
      exact ⟨by simp, hcolon⟩
    cases hchars : aliasName.toList with
    | nil => exact absurd (String.toList_eq_nil_iff.mp hchars) hne
    | cons c before =>
        rw [hcut, hchars]
        simp [← hchars]

theorem split?_eq_none_iff :
    Alias.split? text = none ↔ ':' ∉ text.toList ∨ ∃ rest, text = ":" ++ rest := by
  rw [Alias.split?]
  constructor
  · intro h
    split at h
    · exact nomatch h
    · next hcut =>
      cases hfirst : Text.cutFirst? ':' text.toList with
      | none => exact .inl (Text.cutFirst?_eq_none.mp hfirst)
      | some parts =>
          obtain ⟨before, after⟩ := parts
          cases before with
          | cons c before => exact absurd hfirst (hcut c before after)
          | nil =>
              obtain ⟨htext, -⟩ := Text.cutFirst?_eq_some hfirst
              refine .inr ⟨String.ofList after, ?_⟩
              rw [← String.toList_inj, htext]
              simp
  · rintro (hcolon | ⟨rest, rfl⟩)
    · rw [Text.cutFirst?_eq_none.mpr hcolon]
    · have hcut : Text.cutFirst? ':' (":" ++ rest).toList = some ([], rest.toList) := by
        rw [Text.cutFirst?_eq_some_iff]
        exact ⟨by simp, List.not_mem_nil⟩
      rw [hcut]

/-- The segments and the name of a text are what it is cut into at its slashes. -/
theorem splitsInto_iff :
    SplitsInto text segments name ↔ ∃ path last, Text.cutLast? '/' text.toList = some (path, last) ∧
      segments = (Text.pieces '/' path).map String.ofList ∧ name = String.ofList last := by
  constructor
  · rintro ⟨rfl, hne, hsegment, hname⟩
    refine ⟨("/".intercalate segments).toList, name.toList, ?_, ?_, by simp⟩
    · rw [Text.cutLast?_eq_some_iff]
      exact ⟨by simp, hname⟩
    · exact (Text.map_ofList_pieces_eq_iff.mpr ⟨String.ofList_toList, hne, hsegment⟩).symm
  · rintro ⟨path, last, hcut, hsegments, rfl⟩
    obtain ⟨htext, hname⟩ := Text.cutLast?_eq_some hcut
    obtain ⟨hpath, hne, hsegment⟩ := Text.map_ofList_pieces_eq_iff.mp hsegments.symm
    refine ⟨?_, hne, hsegment, by rwa [String.toList_ofList]⟩
    rw [← String.toList_inj, ← hpath, htext]
    simp

/-- What ends the text behind the colon can be cut off the address by its size in bytes. -/
theorem UsesAlias.endOfSize? (h : UsesAlias text aliasName rest)
    (hend : name.toList <:+ rest.toList) :
    Text.endOfSize? (Text.byteSize name.toList) text.toList = some name.toList := by
  obtain ⟨front, hfront⟩ := hend
  rw [h.eq, String.toList_append, ← hfront, ← List.append_assoc]
  exact Text.endOfSize?_append _ name.toList

theorem slash_free_or_splitsInto (text : String) :
    '/' ∉ text.toList ∨ ∃ segments name, SplitsInto text segments name := by
  cases hcut : Text.cutLast? '/' text.toList with
  | none => exact .inl (Text.cutLast?_eq_none.mp hcut)
  | some parts => exact .inr ⟨_, _, splitsInto_iff.mpr ⟨parts.1, parts.2, hcut, rfl, rfl⟩⟩

theorem SplitsInto.slash_mem (h : SplitsInto text segments name) : '/' ∈ text.toList := by
  rw [h.eq]
  simp

/-- A text splits in one way only. -/
theorem SplitsInto.unique {segments' : List String} {name' : String}
    (h : SplitsInto text segments name) (h' : SplitsInto text segments' name') :
    segments = segments' ∧ name = name' := by
  obtain ⟨path, last, hcut, rfl, rfl⟩ := splitsInto_iff.mp h
  obtain ⟨path', last', hcut', rfl, rfl⟩ := splitsInto_iff.mp h'
  obtain ⟨rfl, rfl⟩ := Prod.mk.inj (Option.some.inj (hcut.symm.trans hcut'))
  exact ⟨rfl, rfl⟩

end Address

namespace Package

variable {start : Package} {address text : String}

/-! ## Following -/

/-- Only a walk of no segments has come nowhere. -/
theorem Walks.eq_nil {current : Option Package} {segments : List String}
    (h : start.Walks current segments none) : segments = [] := by
  generalize hlast : (none : Option Package) = last at h
  induction h with
  | nil => rfl
  | cons _ hrest ih =>
      obtain rfl := ih hlast
      cases hrest
      exact nomatch hlast

theorem follow_of_slash_free (h : '/' ∉ text.toList) :
    start.follow text address = .ok (start, text) := by
  rw [follow, Segment.separator, Text.cutLast?_eq_none.mpr h]

theorem follow_of_splitsInto {segments : List String} {name : String}
    (h : Address.SplitsInto text segments name) :
    start.follow text address =
      (start.walk address none (segments.map Segment.ofText)).map fun owner => (owner, name) := by
  obtain ⟨path, last, hcut, rfl, rfl⟩ := Address.splitsInto_iff.mp h
  rw [follow, Segment.separator, hcut, List.map_map]
  rfl

theorem follow_eq_ok_iff {owner : Package} {name : String} :
    start.follow text address = .ok (owner, name) ↔
      ('/' ∉ text.toList ∧ start = owner ∧ text = name) ∨
        ∃ segments, Address.SplitsInto text segments name ∧
          start.Walks none segments (some owner) := by
  rcases Address.slash_free_or_splitsInto text with hslash | ⟨segments, name', hsplit⟩
  · rw [follow_of_slash_free hslash, Except.ok.injEq, Prod.mk.injEq]
    constructor
    · exact fun h => .inl ⟨hslash, h⟩
    · rintro (⟨-, h⟩ | ⟨segments, hsplit, -⟩)
      · exact h
      · exact absurd hsplit.slash_mem hslash
  · rw [follow_of_splitsInto hsplit, Fallible.map_eq_ok_iff]
    constructor
    · rintro ⟨owner', hwalk, howner⟩
      obtain ⟨rfl, rfl⟩ := Prod.mk.inj howner
      obtain ⟨last, hwalks, hlast⟩ := walk_eq_ok_iff.mp hwalk
      cases last with
      | none => exact absurd hwalks.eq_nil hsplit.ne_nil
      | some q => exact .inr ⟨segments, hsplit, hlast ▸ hwalks⟩
    · rintro (⟨hslash, -⟩ | ⟨segments', hsplit', hwalks⟩)
      · exact absurd hsplit.slash_mem hslash
      · obtain ⟨rfl, rfl⟩ := hsplit.unique hsplit'
        exact ⟨owner, walk_eq_ok_iff.mpr ⟨_, hwalks, rfl⟩, rfl⟩

theorem follow_eq_error_iff (h : start.tree.Loaded) {error : LookupError} :
    start.follow text address = .error error ↔
      ∃ before segment after name last,
        Address.SplitsInto text (before ++ segment :: after) name ∧
          start.Walks none before last ∧ start.Stuck address last segment error := by
  have hnone : ∀ p, (none : Option Package) = some p → p.tree.Loaded := fun _ h => nomatch h
  rcases Address.slash_free_or_splitsInto text with hslash | ⟨segments, name, hsplit⟩
  · rw [follow_of_slash_free hslash]
    refine ⟨(fun h => nomatch h), ?_⟩
    rintro ⟨_, _, _, _, _, hsplit, -⟩
    exact absurd hsplit.slash_mem hslash
  · rw [follow_of_splitsInto hsplit, Fallible.map_eq_error_iff, walk_eq_error_iff h hnone]
    constructor
    · rintro ⟨before, segment, after, last, rfl, hwalks, hstuck⟩
      exact ⟨before, segment, after, name, last, hsplit, hwalks, hstuck⟩
    · rintro ⟨before, segment, after, name', last, hsplit', hwalks, hstuck⟩
      obtain ⟨rfl, -⟩ := hsplit.unique hsplit'
      exact ⟨before, segment, after, last, rfl, hwalks, hstuck⟩

/-! ## Resolving -/

/-- The name that is cut off the address as it was given is the one that was followed to: behind the
last slash of an expanded address there stands nothing but an end of the address given. -/
theorem endOfSize?_of_follow {aliasName rest meaning name : String} {owner : Package}
    (h : Address.UsesAlias address aliasName rest)
    (hfollow : start.follow (meaning ++ "/" ++ rest) address = .ok (owner, name)) :
    Text.endOfSize? (Text.byteSize name.toList) address.toList = some name.toList := by
  rcases follow_eq_ok_iff.mp hfollow with ⟨hslash, -, -⟩ | ⟨segments, hsplit, -⟩
  · exact absurd (by simp) hslash
  · have hchars := congrArg String.toList hsplit.eq
    simp only [String.toList_append, List.append_assoc] at hchars
    exact h.endOfSize? (Text.suffix_of_append_eq_append hchars.symm hsplit.name)

theorem expands_or_unresolved (start : Package) (address : String) :
    (∃ text, start.Expands address text) ∨
      ∃ aliasName rest, Address.UsesAlias address aliasName rest ∧
        start.alias? aliasName = none := by
  cases hsplit : Alias.split? address with
  | none => exact .inl ⟨_, .plain (Address.split?_eq_none_iff.mp hsplit)⟩
  | some parts =>
      have huses : Address.UsesAlias address parts.1 parts.2 :=
        Address.split?_eq_some_iff.mp hsplit
      cases halias : start.alias? parts.1 with
      | none => exact .inr ⟨_, _, huses, halias⟩
      | some meaning => exact .inl ⟨_, .expanded huses halias⟩

/-- Resolving an address is following what it expands to. -/
theorem resolve_of_expands (h : start.Expands address text) :
    start.resolve address = start.follow text address := by
  cases h with
  | plain h => rw [resolve, Alias.expand, Address.split?_eq_none_iff.mpr h]
  | @expanded aliasName rest meaning h halias =>
      rw [alias?] at halias
      simp only [resolve, Alias.expand, Address.split?_eq_some_iff.mpr h, halias]
      cases hfollow : start.follow (meaning ++ "/" ++ rest) address with
      | error error => rfl
      | ok found =>
          obtain ⟨owner, name⟩ := found
          -- the name is cut off the address by its size, and is still the one that was followed to
          have hend := endOfSize?_of_follow h hfollow
          simp [bind, Except.bind, pure, Except.pure, hend]

theorem resolve_of_unresolved {aliasName rest : String}
    (h : Address.UsesAlias address aliasName rest) (halias : start.alias? aliasName = none) :
    start.resolve address = .error (.unresolvedAlias aliasName start.name) := by
  rw [alias?] at halias
  simp only [resolve, Alias.expand, Address.split?_eq_some_iff.mpr h, halias]

theorem resolve_eq_ok_iff {owner : Package} {name : String} :
    start.resolve address = .ok (owner, name) ↔ start.Designates address owner name := by
  constructor
  · intro h
    rcases start.expands_or_unresolved address with ⟨text, hexpands⟩ | ⟨_, _, huses, halias⟩
    · rw [resolve_of_expands hexpands] at h
      rcases follow_eq_ok_iff.mp h with ⟨hslash, rfl, rfl⟩ | ⟨segments, hsplit, hwalks⟩
      · exact .here hexpands hslash
      · exact .there hexpands hsplit hwalks
    · rw [resolve_of_unresolved huses halias] at h
      exact nomatch h
  · intro h
    cases h with
    | here hexpands hslash =>
        rw [resolve_of_expands hexpands]
        exact follow_of_slash_free hslash
    | there hexpands hsplit hwalks =>
        rw [resolve_of_expands hexpands]
        exact follow_eq_ok_iff.mpr (.inr ⟨_, hsplit, hwalks⟩)

theorem resolve_eq_error_iff (h : start.tree.Loaded) {error : LookupError} :
    start.resolve address = .error error ↔ start.Misled address error := by
  constructor
  · intro hresolve
    rcases start.expands_or_unresolved address with ⟨text, hexpands⟩ | ⟨_, _, huses, halias⟩
    · rw [resolve_of_expands hexpands, follow_eq_error_iff h] at hresolve
      obtain ⟨before, segment, after, name, last, hsplit, hwalks, hstuck⟩ := hresolve
      cases hstuck with
      | system hsystem => exact .noSystemPackage hexpands hsplit hwalks hsystem
      | first hname hroot =>
          obtain rfl := hwalks.eq_nil
          exact .wrongRoot hexpands hsplit hname hroot
      | later hname hget => exact .notFound hexpands hsplit hwalks hname hget
    · rw [resolve_of_unresolved huses halias] at hresolve
      exact Except.error.inj hresolve ▸ .unresolvedAlias huses halias
  · intro hmisled
    cases hmisled with
    | unresolvedAlias huses halias => exact resolve_of_unresolved huses halias
    | wrongRoot hexpands hsplit hname hroot =>
        rw [resolve_of_expands hexpands, follow_eq_error_iff h]
        exact ⟨[], _, _, _, none, hsplit, .nil, .first hname hroot⟩
    | noSystemPackage hexpands hsplit hwalks hsystem =>
        rw [resolve_of_expands hexpands, follow_eq_error_iff h]
        exact ⟨_, _, _, _, _, hsplit, hwalks, .system hsystem⟩
    | notFound hexpands hsplit hwalks hname hget =>
        rw [resolve_of_expands hexpands, follow_eq_error_iff h]
        exact ⟨_, _, _, _, _, hsplit, hwalks, .later hname hget⟩

/-! ## Entities -/

theorem blueprint_eq_ok_iff {p : Package} {name : String} {b : Blueprint} :
    p.blueprint name = .ok b ↔ p.node.blueprints.get? name = some b := by
  rw [blueprint]
  cases p.node.blueprints.get? name <;> simp

theorem blueprint_eq_error_iff {p : Package} {name : String} {error : LookupError} :
    p.blueprint name = .error error ↔
      p.node.blueprints.get? name = none ∧ error = .notFound .blueprint name p.name := by
  rw [blueprint]
  cases p.node.blueprints.get? name <;> simp [notFound, eq_comm]

theorem enumeration_eq_ok_iff {p : Package} {name : String} {e : Enumeration} :
    p.enumeration name = .ok e ↔ p.node.enumerations.get? name = some e := by
  rw [enumeration]
  cases p.node.enumerations.get? name <;> simp

theorem enumeration_eq_error_iff {p : Package} {name : String} {error : LookupError} :
    p.enumeration name = .error error ↔
      p.node.enumerations.get? name = none ∧ error = .notFound .enumeration name p.name := by
  rw [enumeration]
  cases p.node.enumerations.get? name <;> simp [notFound, eq_comm]

section Find

variable {α : Type} {find : Package → String → Except LookupError α}

/-- Looking up an address in whatever way is to look up what it designates. -/
theorem resolve_bind_eq_ok_iff {r : Resolved α} :
    (do
      let (owner, name) ← start.resolve address
      return (⟨owner, ← find owner name⟩ : Resolved α)) = .ok r ↔
      ∃ name, start.Designates address r.package name ∧ find r.package name = .ok r.entity := by
  simp only [Fallible.bind_eq_ok_iff, Prod.exists, resolve_eq_ok_iff]
  constructor
  · rintro ⟨owner, name, hdesignates, entity, hfind, hr⟩
    obtain rfl := Except.ok.inj hr
    exact ⟨name, hdesignates, hfind⟩
  · rintro ⟨name, hdesignates, hfind⟩
    exact ⟨r.package, name, hdesignates, r.entity, hfind, rfl⟩

theorem resolve_bind_eq_error_iff (h : start.tree.Loaded) {error : LookupError} :
    (do
      let (owner, name) ← start.resolve address
      return (⟨owner, ← find owner name⟩ : Resolved α)) = .error error ↔
      start.Misled address error ∨
        ∃ owner name, start.Designates address owner name ∧ find owner name = .error error := by
  simp only [Fallible.bind_eq_error_iff, Prod.exists, resolve_eq_ok_iff, resolve_eq_error_iff h]
  refine or_congr_right (exists₂_congr fun owner name => and_congr_right fun _ => ?_)
  constructor
  · rintro (hfind | ⟨_, _, hpure⟩)
    · exact hfind
    · exact nomatch hpure
  · exact .inl

end Find

theorem blueprintAt_eq_ok_iff {found : Resolved Blueprint} :
    start.blueprintAt address = .ok found ↔
      ∃ name, start.Designates address found.package name ∧
        found.package.node.blueprints.get? name = some found.entity := by
  rw [← exists_congr fun name => and_congr_right fun _ => blueprint_eq_ok_iff]
  exact resolve_bind_eq_ok_iff

theorem enumerationAt_eq_ok_iff {found : Resolved Enumeration} :
    start.enumerationAt address = .ok found ↔
      ∃ name, start.Designates address found.package name ∧
        found.package.node.enumerations.get? name = some found.entity := by
  rw [← exists_congr fun name => and_congr_right fun _ => enumeration_eq_ok_iff]
  exact resolve_bind_eq_ok_iff

theorem blueprintAt_eq_error_iff (h : start.tree.Loaded) {error : LookupError} :
    start.blueprintAt address = .error error ↔
      start.Misled address error ∨
        ∃ owner name, start.Designates address owner name ∧
          owner.node.blueprints.get? name = none ∧
          error = .notFound .blueprint name owner.name := by
  simp only [← blueprint_eq_error_iff]
  exact resolve_bind_eq_error_iff h

theorem enumerationAt_eq_error_iff (h : start.tree.Loaded) {error : LookupError} :
    start.enumerationAt address = .error error ↔
      start.Misled address error ∨
        ∃ owner name, start.Designates address owner name ∧
          owner.node.enumerations.get? name = none ∧
          error = .notFound .enumeration name owner.name := by
  simp only [← enumeration_eq_error_iff]
  exact resolve_bind_eq_error_iff h

/-- Whatever address is looked up in a loaded tree: an address that is misled fails, for blueprints
and enumerations alike, and otherwise the package that it designates has an entity of the name or
has none. The first four kinds of failure are those of `Misled`, and there are no others. -/
theorem lookup_outcome (h : start.tree.Loaded) (address : String) :
    (∀ error, start.Misled address error →
      start.blueprintAt address = .error error ∧ start.enumerationAt address = .error error) ∧
    (∀ error, start.blueprintAt address = .error error ↔
      start.Misled address error ∨
        ∃ owner name, start.Designates address owner name ∧
          owner.node.blueprints.get? name = none ∧
          error = .notFound .blueprint name owner.name) ∧
    (∀ found, start.blueprintAt address = .ok found ↔
      ∃ name, start.Designates address found.package name ∧
        found.package.node.blueprints.get? name = some found.entity) ∧
    (∀ error, start.enumerationAt address = .error error ↔
      start.Misled address error ∨
        ∃ owner name, start.Designates address owner name ∧
          owner.node.enumerations.get? name = none ∧
          error = .notFound .enumeration name owner.name) ∧
    ∀ found, start.enumerationAt address = .ok found ↔
      ∃ name, start.Designates address found.package name ∧
        found.package.node.enumerations.get? name = some found.entity := by
  refine ⟨fun error hmisled => ⟨?_, ?_⟩, ?_, ?_, ?_, ?_⟩
  · exact (blueprintAt_eq_error_iff h).mpr (.inl hmisled)
  · exact (enumerationAt_eq_error_iff h).mpr (.inl hmisled)
  · exact fun error => blueprintAt_eq_error_iff h
  · exact fun found => blueprintAt_eq_ok_iff
  · exact fun error => enumerationAt_eq_error_iff h
  · exact fun found => enumerationAt_eq_ok_iff

/-- Out of the bundled package an address that begins with another root's name is misled. -/
theorem lookup_outcome_bundled :
    SystemPackage.bundled.root.tree.Loaded ∧
      SystemPackage.bundled.root.blueprintAt "marine/Vessel" =
        .error (.wrongRoot "system" "marine") := by
  have hloaded : SystemPackage.bundled.root.tree.Loaded := PackageTree.loaded_bundled
  have hroot : SystemPackage.bundled.root.root.name = "system" := by decide +kernel
  have hexpands : SystemPackage.bundled.root.Expands "marine/Vessel" "marine/Vessel" :=
    .plain (.inl (by decide))
  have hsplit : Address.SplitsInto "marine/Vessel" ["marine"] "Vessel" :=
    ⟨by decide, by decide, by decide, by decide⟩
  have hname : Segment.IsName "marine" := ⟨by decide, by decide⟩
  have hmisled := Misled.wrongRoot hexpands hsplit hname (by rw [hroot]; decide)
  rw [hroot] at hmisled
  exact ⟨hloaded, ((lookup_outcome hloaded "marine/Vessel").1 _ hmisled).1⟩

end Package

end BlueprintPackages
