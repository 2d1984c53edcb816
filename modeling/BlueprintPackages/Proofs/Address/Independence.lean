import BlueprintPackages.Proofs.Address.Outcome

/-!
# Where the start of a lookup matters

A walk is handed the package where it starts at every step, but all that a step asks of it is what
its tree answers: the root and the system package (`step_congr`). So as soon as there is a segment,
a walk from one package of a tree goes where a walk from any other goes, and quotes the same names
in its errors (`walk_congr`, `follow_congr`).

That leaves two ways for the start to matter. A name without slash and alias is meant in the package
itself, and an alias is one of its own aliases. In all other lookups the packages of a tree have the
same outcome (`sameOutcome_unless_bare_or_alias`).
-/

namespace BlueprintPackages

namespace Package

/-- Both packages answer an address alike, for blueprints and for enumerations: with the same owner
and entity, or with the same error. -/
def SameOutcome (p q : Package) (address : String) : Prop :=
  p.blueprintAt address = q.blueprintAt address ∧
    p.enumerationAt address = q.enumerationAt address

variable {p q : Package} {address text : String}

/-! ## Walks from two packages of a tree -/

theorem root_congr (h : p.tree = q.tree) : p.root = q.root := by
  rw [root, h, root]

theorem system?_congr (h : p.tree = q.tree) : p.system? = q.system? := by
  rw [system?, h, root_congr h, system?]

theorem step_congr (h : p.tree = q.tree) (current : Option Package) (segment : Segment) :
    p.step address current segment = q.step address current segment := by
  cases segment with
  | root => rw [step, step, root_congr h]
  | system => rw [step, step, system?_congr h]
  | name text =>
      cases current with
      | none => rw [step, step, root_congr h]
      | some r => rw [step, step]

theorem walk_some_congr (h : p.tree = q.tree) (r : Package) (segments : List Segment) :
    p.walk address (some r) segments = q.walk address (some r) segments := by
  induction segments generalizing r with
  | nil => rfl
  | cons segment rest ih => simp only [walk, step_congr h, ih]

/-- Where there is a segment, no walk falls back on the package where it starts. -/
theorem walk_congr (h : p.tree = q.tree) {segments : List Segment} (hne : segments ≠ []) :
    p.walk address none segments = q.walk address none segments := by
  cases segments with
  | nil => exact absurd rfl hne
  | cons segment rest => simp only [walk, step_congr h, walk_some_congr h]

theorem follow_congr (h : p.tree = q.tree) (hslash : '/' ∈ text.toList) :
    p.follow text address = q.follow text address := by
  rcases Address.slash_free_or_splitsInto text with hfree | ⟨segments, name, hsplit⟩
  · exact absurd hslash hfree
  · have hne : segments.map Segment.ofText ≠ [] := by simpa using hsplit.ne_nil
    rw [follow_of_splitsInto hsplit, follow_of_splitsInto hsplit, walk_congr h hne]

/-! ## Outcomes -/

theorem sameOutcome_of_resolve (h : p.resolve address = q.resolve address) :
    p.SameOutcome q address := by
  rw [SameOutcome, blueprintAt, blueprintAt, enumerationAt, enumerationAt, h]
  exact ⟨rfl, rfl⟩

/-- An address that both packages expand to the same text with a slash has one outcome. -/
theorem sameOutcome_of_expands (h : p.tree = q.tree) (hp : p.Expands address text)
    (hq : q.Expands address text) (hslash : '/' ∈ text.toList) : p.SameOutcome q address := by
  have hresolve : p.resolve address = q.resolve address := by
    rw [resolve_of_expands hp, resolve_of_expands hq, follow_congr h hslash]
  exact sameOutcome_of_resolve hresolve

theorem sameOutcome_of_alias (h : p.tree = q.tree) {aliasName rest meaning : String}
    (huses : Address.UsesAlias address aliasName rest) (hp : p.alias? aliasName = some meaning)
    (hq : q.alias? aliasName = some meaning) : p.SameOutcome q address := by
  have hslash : '/' ∈ (meaning ++ "/" ++ rest).toList := by simp
  exact sameOutcome_of_expands h (.expanded huses hp) (.expanded huses hq) hslash

/-- An alias that neither package has is an error that differs in the package's name alone. -/
theorem sameOutcome_of_unresolved {aliasName rest : String}
    (huses : Address.UsesAlias address aliasName rest) (hp : p.alias? aliasName = none)
    (hq : q.alias? aliasName = none) (hname : p.name = q.name) : p.SameOutcome q address := by
  have hresolve : p.resolve address = q.resolve address := by
    rw [resolve_of_unresolved huses hp, resolve_of_unresolved huses hq, hname]
  exact sameOutcome_of_resolve hresolve

/-- Two packages of one tree answer every address alike that has a slash and uses no alias, and
every address that begins with an alias by which both mean the same. Where they do not, the address
is a bare name, or it begins with an alias by which they do not mean the same or which neither has;
in the latter case the errors name two packages. -/
theorem sameOutcome_unless_bare_or_alias (h : p.tree = q.tree) (address : String) :
    ('/' ∈ address.toList → (':' ∉ address.toList ∨ ∃ rest, address = ":" ++ rest) →
      p.SameOutcome q address) ∧
    (∀ aliasName rest meaning, Address.UsesAlias address aliasName rest →
      p.alias? aliasName = some meaning → q.alias? aliasName = some meaning →
      p.SameOutcome q address) ∧
    (¬ p.SameOutcome q address →
      ('/' ∉ address.toList ∧ (':' ∉ address.toList ∨ ∃ rest, address = ":" ++ rest)) ∨
      ∃ aliasName rest, Address.UsesAlias address aliasName rest ∧
        (p.alias? aliasName ≠ q.alias? aliasName ∨
          p.alias? aliasName = none ∧ q.alias? aliasName = none ∧ p.name ≠ q.name)) := by
  refine ⟨?_, ?_, ?_⟩
  · intro hslash hcolon
    exact sameOutcome_of_expands h (.plain hcolon) (.plain hcolon) hslash
  · intro aliasName rest meaning huses hp hq
    exact sameOutcome_of_alias h huses hp hq
  intro hdiffer
  cases hsplit : Alias.split? address with
  | none =>
      have hcolon := Address.split?_eq_none_iff.mp hsplit
      refine .inl ⟨fun hslash => hdiffer ?_, hcolon⟩
      exact sameOutcome_of_expands h (.plain hcolon) (.plain hcolon) hslash
  | some parts =>
      have huses : Address.UsesAlias address parts.1 parts.2 :=
        Address.split?_eq_some_iff.mp hsplit
      refine .inr ⟨parts.1, parts.2, huses, ?_⟩
      by_cases hsame : p.alias? parts.1 = q.alias? parts.1
      · cases hq : q.alias? parts.1 with
        | some meaning =>
            have hp : p.alias? parts.1 = some meaning := hsame.trans hq
            exact absurd (sameOutcome_of_alias h huses hp hq) hdiffer
        | none =>
            have hp : p.alias? parts.1 = none := hsame.trans hq
            have hname : p.name ≠ q.name := fun hname =>
              hdiffer (sameOutcome_of_unresolved huses hp hq hname)
            exact .inr ⟨hp, rfl, hname⟩
      · exact .inl hsame

/-- In the bundled tree the root and its subpackage find the same under an address from the root. -/
theorem sameOutcome_bundled : ∃ core,
    SystemPackage.bundled.root.subpackage "SIMOS" = .ok core ∧
      SystemPackage.bundled.root.SameOutcome core "/SIMOS/Entity" := by
  have hcore : (SystemPackage.bundled.root.subpackage "SIMOS").isOk = true := by decide +kernel
  cases hsub : SystemPackage.bundled.root.subpackage "SIMOS" with
  | error error =>
      rw [hsub] at hcore
      exact nomatch hcore
  | ok core =>
      have htree : SystemPackage.bundled.root.tree = core.tree :=
        (subpackage_eq_ok_iff.mp hsub).1.symm
      have hsame := (sameOutcome_unless_bare_or_alias htree "/SIMOS/Entity").1
      exact ⟨core, rfl, hsame (by decide) (.inl (by decide))⟩

end Package

end BlueprintPackages
