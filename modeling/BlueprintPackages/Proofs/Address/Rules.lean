import BlueprintPackages.Address
import BlueprintPackages.Proofs.Text.Cut
import BlueprintPackages.Proofs.Tree.Loaded

/-!
# The rules of addresses

What an address means, said of texts, segments and nodes, with nothing of how addresses are cut
and walked. `Moves` is one segment of a walk and `Stuck` the error of a segment that leads nowhere;
`Walks` is any number of segments. `Expands` puts the meaning of an alias in its place and
`SplitsInto` parts the segments of a text from the name at its end. From these `Designates` says
which name in which package an address stands for, and `Misled` with which error an address leads to
no package at all.

The walk that runs obeys these rules in every loaded tree (`walk_eq_ok_iff`,
`walk_eq_error_iff`).
-/

namespace BlueprintPackages

/-! ## Texts -/

namespace Segment

/-- A text that as a segment of an address is a name. -/
def IsName (text : String) : Prop := text ≠ "" ∧ text ≠ systemName

@[simp] theorem ofText_empty : ofText "" = root := rfl

@[simp] theorem ofText_systemName : ofText systemName = system := by decide

theorem IsName.ofText_eq {text : String} (h : IsName text) : ofText text = name text := by
  rw [ofText, if_neg h.1, if_neg h.2]

theorem empty_or_system_or_isName (text : String) :
    text = "" ∨ text = systemName ∨ IsName text := by
  by_cases hempty : text = ""
  · exact .inl hempty
  · by_cases hsystem : text = systemName
    · exact .inr (.inl hsystem)
    · exact .inr (.inr ⟨hempty, hsystem⟩)

end Segment

namespace Address

/-- The first colon of an address, unless it stands at the very front, ends an alias. -/
structure UsesAlias (address aliasName rest : String) : Prop where
  eq : address = aliasName ++ ":" ++ rest
  colon : ':' ∉ aliasName.toList
  ne : aliasName ≠ ""

/-- The segments before the last slash of a text, and the name behind it. -/
structure SplitsInto (text : String) (segments : List String) (name : String) : Prop where
  eq : text = "/".intercalate segments ++ "/" ++ name
  ne_nil : segments ≠ []
  segment : ∀ segment ∈ segments, '/' ∉ segment.toList
  name : '/' ∉ name.toList

end Address

namespace Package

/-- What an address comes to once its alias is expanded by the aliases of a package. -/
inductive Expands (p : Package) (address : String) : String → Prop
  | plain (h : ':' ∉ address.toList ∨ ∃ rest, address = ":" ++ rest) : Expands p address address
  | expanded {aliasName rest meaning : String} (h : Address.UsesAlias address aliasName rest)
      (halias : p.alias? aliasName = some meaning) : Expands p address (meaning ++ "/" ++ rest)

/-! ## Walks -/

/-- One segment leads from where a walk has come, if it has come anywhere yet, to a package. -/
inductive Moves (start : Package) : Option Package → String → Package → Prop
  | root {current : Option Package} : Moves start current "" start.root
  | system {current : Option Package} {q : Package} (h : start.system? = some q) :
      Moves start current systemName q
  | first {text : String} (hname : Segment.IsName text) (hroot : start.root.name = text) :
      Moves start none text start.root
  | later {p q : Package} {text : String} (hname : Segment.IsName text) (htree : q.tree = p.tree)
      (hget : p.node.subpackages.get? text = some q.id.val) : Moves start (some p) text q

/-- One segment leads nowhere, with this error. -/
inductive Stuck (start : Package) (address : String) : Option Package → String → LookupError → Prop
  | system {current : Option Package} (h : start.tree.system = .absent) :
      Stuck start address current systemName (.noSystemPackage address)
  | first {text : String} (hname : Segment.IsName text) (hroot : start.root.name ≠ text) :
      Stuck start address none text (.wrongRoot start.root.name text)
  | later {p : Package} {text : String} (hname : Segment.IsName text)
      (hget : p.node.subpackages.get? text = none) :
      Stuck start address (some p) text (.notFound .package text p.name)

/-- Segments lead, one after the other, from where a walk has come to where it goes. -/
inductive Walks (start : Package) : Option Package → List String → Option Package → Prop
  | nil {current : Option Package} : Walks start current [] current
  | cons {current last : Option Package} {text : String} {next : Package} {rest : List String}
      (hmove : Moves start current text next) (h : Walks start (some next) rest last) :
      Walks start current (text :: rest) last

/-- What names lead down to is where a walk along them goes. -/
theorem Descends.walks {start p q : Package} {names : List String} (h : p.Descends names q)
    (hnames : ∀ name ∈ names, Segment.IsName name) : start.Walks (some p) names (some q) := by
  induction h with
  | here => exact .nil
  | down hsub _ ih =>
      rw [List.forall_mem_cons] at hnames
      obtain ⟨htree, hget⟩ := subpackage_eq_ok_iff.mp hsub
      exact .cons (.later hnames.1 htree hget) (ih hnames.2)

/-! ## Outcomes -/

/-- The name in a package that an address stands for: without segments it is meant in the package
where the lookup starts, otherwise where the segments lead. -/
inductive Designates (start : Package) (address : String) : Package → String → Prop
  | here {text : String} (h : start.Expands address text) (hslash : '/' ∉ text.toList) :
      Designates start address start text
  | there {text name : String} {segments : List String} {owner : Package}
      (h : start.Expands address text) (hsplit : Address.SplitsInto text segments name)
      (hwalk : start.Walks none segments (some owner)) : Designates start address owner name

/-- The errors of addresses that lead to no package. -/
inductive Misled (start : Package) (address : String) : LookupError → Prop
  /-- The alias is not one of the package where the lookup starts. -/
  | unresolvedAlias {aliasName rest : String} (h : Address.UsesAlias address aliasName rest)
      (halias : start.alias? aliasName = none) :
      Misled start address (.unresolvedAlias aliasName start.name)
  /-- The first segment is a name, but not that of the root. -/
  | wrongRoot {text first name : String} {rest : List String} (h : start.Expands address text)
      (hsplit : Address.SplitsInto text (first :: rest) name) (hname : Segment.IsName first)
      (hroot : start.root.name ≠ first) : Misled start address (.wrongRoot start.root.name first)
  /-- The walk comes to a segment `system` where there is no system package; the error quotes the
  address before its alias was expanded. -/
  | noSystemPackage {text name : String} {before after : List String} {current : Option Package}
      (h : start.Expands address text)
      (hsplit : Address.SplitsInto text (before ++ systemName :: after) name)
      (hwalk : start.Walks none before current) (hsystem : start.tree.system = .absent) :
      Misled start address (.noSystemPackage address)
  /-- The walk comes to a package that has no subpackage of the next name. -/
  | notFound {text segment name : String} {before after : List String} {q : Package}
      (h : start.Expands address text)
      (hsplit : Address.SplitsInto text (before ++ segment :: after) name)
      (hwalk : start.Walks none before (some q)) (hname : Segment.IsName segment)
      (hget : q.node.subpackages.get? segment = none) :
      Misled start address (.notFound .package segment q.name)

/-! ## The rules are what runs -/

variable {start : Package} {address text : String}

theorem system?_eq_none_iff : start.system? = none ↔ start.tree.system = .absent := by
  rw [system?]
  cases start.tree.system <;> simp

/-- The system package of a loaded tree is a package of a loaded tree. -/
theorem loaded_of_system? (h : start.tree.Loaded) {q : Package} (hq : start.system? = some q) :
    q.tree.Loaded := by
  rw [system?] at hq
  split at hq
  · next tree hlink =>
    obtain rfl := Option.some.inj hq
    exact h.system hlink
  · obtain rfl := Option.some.inj hq
    exact h
  · exact nomatch hq

/-- A walk never leaves the loaded trees. -/
theorem Moves.loaded {current : Option Package} {q : Package} (hmove : start.Moves current text q)
    (h : start.tree.Loaded) (hcurrent : ∀ p, current = some p → p.tree.Loaded) :
    q.tree.Loaded := by
  cases hmove with
  | root => exact h
  | system hsystem => exact loaded_of_system? h hsystem
  | first _ _ => exact h
  | later _ htree _ => exact htree ▸ hcurrent _ rfl

theorem step_eq_ok_iff {current : Option Package} {q : Package} :
    start.step address current (Segment.ofText text) = .ok q ↔ start.Moves current text q := by
  constructor
  · intro h
    rcases Segment.empty_or_system_or_isName text with rfl | rfl | hname
    · obtain rfl := Except.ok.inj h
      exact .root
    · rw [Segment.ofText_systemName, step] at h
      split at h
      · next hsystem =>
        obtain rfl := Except.ok.inj h
        exact .system hsystem
      · exact nomatch h
    · rw [hname.ofText_eq] at h
      cases current with
      | none =>
          rw [step] at h
          split at h
          · next hroot =>
            obtain rfl := Except.ok.inj h
            exact .first hname hroot.symm
          · exact nomatch h
      | some p =>
          obtain ⟨htree, hget⟩ := subpackage_eq_ok_iff.mp h
          exact .later hname htree hget
  · intro h
    cases h with
    | root => rfl
    | system hsystem => rw [Segment.ofText_systemName, step, hsystem]
    | first hname hroot => rw [hname.ofText_eq, step, if_pos hroot.symm]
    | later hname htree hget =>
        rw [hname.ofText_eq, step]
        exact subpackage_eq_ok_iff.mpr ⟨htree, hget⟩

theorem step_eq_error_iff {current : Option Package} {error : LookupError}
    (hcurrent : ∀ p, current = some p → p.tree.Loaded) :
    start.step address current (Segment.ofText text) = .error error ↔
      start.Stuck address current text error := by
  constructor
  · intro h
    rcases Segment.empty_or_system_or_isName text with rfl | rfl | hname
    · exact nomatch h
    · rw [Segment.ofText_systemName, step] at h
      split at h
      · exact nomatch h
      · next hsystem =>
        obtain rfl := Except.error.inj h
        exact .system (system?_eq_none_iff.mp hsystem)
    · rw [hname.ofText_eq] at h
      cases current with
      | none =>
          rw [step] at h
          split at h
          · exact nomatch h
          · next hroot =>
            obtain rfl := Except.error.inj h
            exact .first hname (Ne.symm hroot)
      | some p =>
          obtain ⟨hget, rfl⟩ := (hcurrent p rfl).arranged.subpackage_eq_error_iff.mp h
          exact .later hname hget
  · intro h
    cases h with
    | system hsystem => rw [Segment.ofText_systemName, step, system?_eq_none_iff.mpr hsystem]
    | first hname hroot => rw [hname.ofText_eq, step, if_neg (Ne.symm hroot)]
    | later hname hget =>
        rw [hname.ofText_eq, step]
        exact (hcurrent _ rfl).arranged.subpackage_eq_error_iff.mpr ⟨hget, rfl⟩

/-- A walk arrives just if all its segments lead on, one after the other. -/
theorem walk_eq_ok_iff {current : Option Package} {segments : List String} {q : Package} :
    start.walk address current (segments.map Segment.ofText) = .ok q ↔
      ∃ last, start.Walks current segments last ∧ last.getD start = q := by
  induction segments generalizing current with
  | nil =>
      rw [List.map_nil, walk, Except.ok.injEq]
      constructor
      · exact fun h => ⟨current, .nil, h⟩
      · rintro ⟨_, ⟨⟩, h⟩
        exact h
  | cons text rest ih =>
      rw [List.map_cons, walk, Fallible.bind_eq_ok_iff]
      constructor
      · rintro ⟨next, hstep, hrest⟩
        obtain ⟨last, hwalks, hlast⟩ := ih.mp hrest
        exact ⟨last, .cons (step_eq_ok_iff.mp hstep) hwalks, hlast⟩
      · rintro ⟨last, hwalks, hlast⟩
        cases hwalks with
        | cons hmove hrest =>
            exact ⟨_, step_eq_ok_iff.mpr hmove, ih.mpr ⟨last, hrest, hlast⟩⟩

/-- A walk fails just if a segment leads nowhere from where the segments before it lead. -/
theorem walk_eq_error_iff (h : start.tree.Loaded) {current : Option Package}
    (hcurrent : ∀ p, current = some p → p.tree.Loaded) {segments : List String}
    {error : LookupError} :
    start.walk address current (segments.map Segment.ofText) = .error error ↔
      ∃ before text after last, segments = before ++ text :: after ∧
        start.Walks current before last ∧ start.Stuck address last text error := by
  induction segments generalizing current with
  | nil => simp [walk]
  | cons text rest ih =>
      rw [List.map_cons, walk, Fallible.bind_eq_error_iff, step_eq_error_iff hcurrent]
      constructor
      · rintro (hstuck | ⟨next, hstep, hrest⟩)
        · exact ⟨[], text, rest, current, rfl, .nil, hstuck⟩
        · have hmove := step_eq_ok_iff.mp hstep
          have hnext : ∀ p, some next = some p → p.tree.Loaded := by
            rintro _ ⟨⟩
            exact hmove.loaded h hcurrent
          obtain ⟨before, text', after, last, rfl, hwalks, hstuck⟩ := (ih hnext).mp hrest
          exact ⟨text :: before, text', after, last, rfl, .cons hmove hwalks, hstuck⟩
      · rintro ⟨before, text', after, last, hsplit, hwalks, hstuck⟩
        cases hwalks with
        | nil =>
            obtain ⟨rfl, rfl⟩ := List.cons.inj hsplit
            exact .inl hstuck
        | @cons _ _ _ next rest' hmove hrest =>
            obtain ⟨rfl, rfl⟩ := List.cons.inj hsplit
            have hnext : ∀ p, some next = some p → p.tree.Loaded := by
              rintro _ ⟨⟩
              exact hmove.loaded h hcurrent
            exact .inr ⟨next, step_eq_ok_iff.mpr hmove,
              (ih hnext).mpr ⟨rest', text', after, last, rfl, hrest, hstuck⟩⟩

end Package

end BlueprintPackages
