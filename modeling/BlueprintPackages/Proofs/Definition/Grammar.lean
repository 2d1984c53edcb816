import BlueprintPackages.Enumeration
import BlueprintPackages.Proofs.Definition.Fields

/-!
# The grammar of blueprints

Which definitions are blueprints (`Blueprint.Grammatical`), what a definition defines
(`Blueprint.DefinedBy`), and which faults it can have, in the order in which they are looked for
(`Blueprint.faults`), each said by what the content holds under its keys. `Blueprint.ofDefinition`
accepts the grammar and nothing else, builds what is defined, and otherwise reports the first fault
(`Blueprint.ofDefinition_decides`).

The fields are read in sequence, so the faults of a blueprint and of an attribute are lists. The
list of attributes is worked off with the attributes' own faults, and its fault is that of the first
attribute that has any: behind it nothing is looked at.
-/

namespace BlueprintPackages

open Fallible

/-! ## Attributes -/

namespace Attribute

structure Grammatical (content : Members) : Prop where
  name : ∃ name, content.lookup "name" = some (.string name) ∧ name ≠ ""
  attributeType : ∃ type, content.lookup "attributeType" = some (.string type) ∧ type ≠ ""
  description : ∃ text, Reads .string "" (content.lookup "description") text
  contained : ∃ flag, Reads .boolean true (content.lookup "contained") flag
  optional : ∃ flag, Reads .boolean true (content.lookup "optional") flag

/-- The second character stands for the first where all quotes are single. -/
def QuotedAs (c c' : Char) : Prop :=
  c = '"' ∧ c' = '\x27' ∨ c ≠ '"' ∧ c' = c

/-- What an attribute is, by the content of its definition. -/
structure DefinedBy (content : Members) (a : Attribute) : Prop where
  name : content.lookup "name" = some (.string a.name) ∧ a.name ≠ ""
  attributeType : content.lookup "attributeType" = some (.string a.attributeType) ∧
    a.attributeType ≠ ""
  description : ∃ text, Reads .string "" (content.lookup "description") text ∧
    List.Forall₂ QuotedAs text.toList a.description.toList
  contained : Reads .boolean true (content.lookup "contained") a.contained
  optional : Reads .boolean true (content.lookup "optional") a.optional
  many : a.isMany = true ↔ ∃ value, content.lookup "dimensions" = some value
  enum : a.isEnum = true ↔ ∃ value, content.lookup "enumType" = some value ∧ value ≠ .null
  primitive : a.isPrimitive = true ↔ a.attributeType = "boolean" ∨ a.attributeType = "number" ∨
    a.attributeType = "string" ∨ a.attributeType = "integer"
  content : a.content = content

/-- The faults of the definition of an attribute, in the order in which they are looked for. -/
def faults (d : Definition) : List (FieldError → Prop) := [
  d.TextFault "name",
  d.TextFault "attributeType",
  d.KindFault .string .text "description",
  d.KindFault .boolean .flag "contained",
  d.KindFault .boolean .flag "optional"]

variable {d : Definition} {a : Attribute}

theorem ofDefinition_eq (d : Definition) : ofDefinition d = do
    let name ← d.requiredText "name"
    let attributeType ← d.requiredText "attributeType"
    let description ← d.textOr "description" ""
    let contained ← d.flagOr "contained" true
    let optional ← d.flagOr "optional" true
    return ⟨name, singleQuoted description, attributeType, contained, optional, d.content⟩ := by
  unfold ofDefinition Definition.textOr Definition.flagOr
  cases d.requiredText "name" <;> cases d.requiredText "attributeType" <;>
    cases d.optionalText "description" <;> cases d.optionalFlag "contained" <;>
    cases d.optionalFlag "optional" <;> rfl

theorem singleQuoted_eq_iff {text quoted : String} :
    singleQuoted text = quoted ↔ List.Forall₂ QuotedAs text.toList quoted.toList := by
  have hquoted : QuotedAs = fun c c' => (if c = '"' then '\x27' else c) = c' := by
    funext c c'
    by_cases hc : c = '"'
    · simp [QuotedAs, hc, eq_comm]
    · simp [QuotedAs, hc, eq_comm]
  rw [hquoted, ← List.forall₂_map_left_iff, List.forall₂_eq_eq_eq, singleQuoted,
    ← String.toList_inj, String.toList_ofList]

theorem isMany_iff : a.isMany = true ↔ ∃ value, a.content.lookup "dimensions" = some value :=
  Option.isSome_iff_exists

theorem isEnum_iff :
    a.isEnum = true ↔ ∃ value, a.content.lookup "enumType" = some value ∧ value ≠ .null := by
  unfold isEnum get?
  cases a.content.lookup "enumType" with
  | none => simp
  | some value => cases value <;> simp [Json.isNull]

theorem isPrimitive_iff : a.isPrimitive = true ↔ a.attributeType = "boolean" ∨
    a.attributeType = "number" ∨ a.attributeType = "string" ∨ a.attributeType = "integer" := by
  simp [isPrimitive, primitiveTypes]

theorem definedBy_mk {content : Members} {name attributeType description : String}
    {contained optional : Bool}
    (hname : content.lookup "name" = some (.string name) ∧ name ≠ "")
    (htype : content.lookup "attributeType" = some (.string attributeType) ∧ attributeType ≠ "")
    (hdescription : Reads .string "" (content.lookup "description") description)
    (hcontained : Reads .boolean true (content.lookup "contained") contained)
    (hoptional : Reads .boolean true (content.lookup "optional") optional) :
    DefinedBy content
      ⟨name, singleQuoted description, attributeType, contained, optional, content⟩ where
  name := hname
  attributeType := htype
  description := ⟨description, hdescription, singleQuoted_eq_iff.mp rfl⟩
  contained := hcontained
  optional := hoptional
  many := isMany_iff
  enum := isEnum_iff
  primitive := isPrimitive_iff
  content := rfl

theorem ofDefinition_eq_ok_iff : ofDefinition d = .ok a ↔ DefinedBy d.content a := by
  rw [ofDefinition_eq]
  constructor
  · intro h
    obtain ⟨name, hname, h⟩ := bind_eq_ok_iff.mp h
    obtain ⟨attributeType, htype, h⟩ := bind_eq_ok_iff.mp h
    obtain ⟨description, hdescription, h⟩ := bind_eq_ok_iff.mp h
    obtain ⟨contained, hcontained, h⟩ := bind_eq_ok_iff.mp h
    obtain ⟨optional, hoptional, h⟩ := bind_eq_ok_iff.mp h
    cases h
    exact definedBy_mk (Definition.requiredText_eq_ok_iff.mp hname)
      (Definition.requiredText_eq_ok_iff.mp htype)
      (((d.textOr_accesses _ _).eq_ok_iff _).mp hdescription)
      (((d.flagOr_accesses _ _).eq_ok_iff _).mp hcontained)
      (((d.flagOr_accesses _ _).eq_ok_iff _).mp hoptional)
  · intro h
    obtain ⟨description, hdescription, hquoted⟩ := h.description
    refine bind_eq_ok_iff.mpr ⟨_, Definition.requiredText_eq_ok_iff.mpr h.name, ?_⟩
    refine bind_eq_ok_iff.mpr ⟨_, Definition.requiredText_eq_ok_iff.mpr h.attributeType, ?_⟩
    refine bind_eq_ok_iff.mpr ⟨_, ((d.textOr_accesses _ _).eq_ok_iff _).mpr hdescription, ?_⟩
    refine bind_eq_ok_iff.mpr ⟨_, ((d.flagOr_accesses _ _).eq_ok_iff _).mpr h.contained, ?_⟩
    refine bind_eq_ok_iff.mpr ⟨_, ((d.flagOr_accesses _ _).eq_ok_iff _).mpr h.optional, ?_⟩
    rw [singleQuoted_eq_iff.mpr hquoted, ← h.content]
    rfl

theorem grammatical_iff {content : Members} : Grammatical content ↔ ∃ a, DefinedBy content a := by
  constructor
  · intro h
    obtain ⟨name, hname⟩ := h.name
    obtain ⟨attributeType, htype⟩ := h.attributeType
    obtain ⟨description, hdescription⟩ := h.description
    obtain ⟨contained, hcontained⟩ := h.contained
    obtain ⟨optional, hoptional⟩ := h.optional
    exact ⟨_, definedBy_mk hname htype hdescription hcontained hoptional⟩
  · rintro ⟨a, h⟩
    obtain ⟨description, hdescription, -⟩ := h.description
    exact ⟨⟨a.name, h.name⟩, ⟨a.attributeType, h.attributeType⟩, ⟨description, hdescription⟩,
      ⟨a.contained, h.contained⟩, ⟨a.optional, h.optional⟩⟩

theorem ofDefinition_reports (d : Definition) : Reports (ofDefinition d) (faults d) := by
  rw [ofDefinition_eq]
  refine .bind (fun e => Definition.requiredText_eq_error_iff) fun name _ => ?_
  refine .bind (fun e => Definition.requiredText_eq_error_iff) fun attributeType _ => ?_
  refine .bind (d.textOr_accesses _ _).eq_error_iff fun description _ => ?_
  refine .bind (d.flagOr_accesses _ _).eq_error_iff fun contained _ => ?_
  refine .bind (d.flagOr_accesses _ _).eq_error_iff fun optional _ => ?_
  exact .ok _

/-- The faults of an item in a list of attributes: it is no object, or has a bad field. -/
inductive ItemFault (context : String) (item : Json) : FieldError → Prop
  | noObject (h : ∀ content, item ≠ .object content) :
      ItemFault context item (.wrongShape "<root>" context .object)
  | field {content : Members} {e : FieldError} (h : item = .object content)
      (hfirst : First (faults ⟨context, content⟩) e) : ItemFault context item e

def ofItem (context : String) (item : Json) : Except FieldError Attribute :=
  Definition.ofJson context item >>= ofDefinition

theorem ofItem_eq_ok_iff {context : String} {item : Json} :
    ofItem context item = .ok a ↔ ∃ content, item = .object content ∧ DefinedBy content a := by
  cases item with
  | object content =>
      show ofDefinition ⟨context, content⟩ = .ok a ↔ _
      rw [ofDefinition_eq_ok_iff]
      simp
  | null | boolean | number | string | array => simp [ofItem, Definition.ofJson, bind, Except.bind]

theorem ofItem_eq_error_iff {context : String} {item : Json} {e : FieldError} :
    ofItem context item = .error e ↔ ItemFault context item e := by
  constructor
  · intro h
    cases item with
    | object content => exact .field rfl ((ofDefinition_reports _ e).mp h)
    | null | boolean | number | string | array =>
        cases h
        exact .noObject nofun
  · intro h
    cases h with
    | noObject h =>
        cases item with
        | object content => exact absurd rfl (h content)
        | null | boolean | number | string | array => rfl
    | field h hfirst =>
        subst h
        exact (ofDefinition_reports _ e).mpr hfirst

end Attribute

/-! ## Blueprints -/

namespace Blueprint

structure Grammatical (content : Members) : Prop where
  name : ∃ name, content.lookup "name" = some (.string name) ∧ name ≠ ""
  description : ∃ text, Reads .string "" (content.lookup "description") text
  parents : ∃ items, Reads .array [] (content.lookup "extends") items ∧
    ∀ item ∈ items, ∃ address, item = .string address
  attributes : ∃ items, Reads .array [] (content.lookup "attributes") items ∧
    ∀ item ∈ items, ∃ fields, item = .object fields ∧ Attribute.Grammatical fields

/-- What a blueprint is, by the content of its definition. -/
structure DefinedBy (content : Members) (package : PackageId) (b : Blueprint) : Prop where
  name : content.lookup "name" = some (.string b.name) ∧ b.name ≠ ""
  description : Reads .string "" (content.lookup "description") b.description
  parents : Reads .array [] (content.lookup "extends") (b.parents.map .string)
  attributes : ∃ items, Reads .array [] (content.lookup "attributes") items ∧
    List.Forall₂ (fun item a => ∃ fields, item = .object fields ∧ a.DefinedBy fields)
      items b.attributes
  package : b.package = package
  content : b.content = content

/-- One of the extended blueprints is not given by a text. -/
inductive ParentFault (d : Definition) : FieldError → Prop
  | intro {name : String} {items : List Json} {item : Json}
      (hname : d.content.lookup "name" = some (.string name))
      (hitems : d.content.lookup "extends" = some (.array items)) (hmem : item ∈ items)
      (hkind : ∀ address, item ≠ .string address) :
      ParentFault d (.wrongShape "extends" ("blueprint '" ++ name ++ "'") .textList)

/-- One of the attributes is at fault, and none before it. -/
inductive AttributeFault (d : Definition) : FieldError → Prop
  | intro {name : String} {before after : List Json} {item : Json} {e : FieldError}
      (hname : d.content.lookup "name" = some (.string name))
      (hitems : d.content.lookup "attributes" = some (.array (before ++ item :: after)))
      (hbefore : ∀ earlier ∈ before, ∃ fields,
        earlier = .object fields ∧ Attribute.Grammatical fields)
      (hfault : Attribute.ItemFault
        ("attribute #" ++ toString before.length ++ " of blueprint '" ++ name ++ "'") item e) :
      AttributeFault d e

/-- The faults of the definition of a blueprint, in the order in which they are looked for. -/
def faults (d : Definition) : List (FieldError → Prop) := [
  d.TextFault "name",
  d.KindFault .string .text "description",
  d.KindFault .array .list "extends",
  ParentFault d,
  d.KindFault .array .list "attributes",
  AttributeFault d]

variable {d : Definition} {package : PackageId} {b : Blueprint} {name : String}

theorem ofDefinition_eq (d : Definition) (package : PackageId) : ofDefinition d package = do
    let name ← d.requiredText "name"
    let description ← d.textOr "description" ""
    let addresses ← d.items "extends"
    let parents ← parentsOf name addresses
    let items ← d.items "attributes"
    let attributes ← attributesOf name 0 items
    return ⟨name, description, parents, attributes, package, d.content⟩ := by
  unfold ofDefinition Definition.textOr
  cases d.requiredText "name" <;> cases d.optionalText "description" <;> rfl

/-! ### Extended blueprints -/

theorem parentsOf_eq_ok_iff {items : List Json} {parents : List String} :
    parentsOf name items = .ok parents ↔ items = parents.map .string := by
  induction items generalizing parents with
  | nil => cases parents <;> simp [parentsOf]
  | cons item rest ih =>
      cases item with
      | string address =>
          rw [parentsOf, bind_eq_ok_iff]
          constructor
          · rintro ⟨tail, htail, h⟩
            cases h
            rw [ih.mp htail, List.map_cons]
          · intro h
            obtain ⟨_, tail, rfl, haddress, htail⟩ := List.map_eq_cons_iff.mp h.symm
            cases haddress
            exact ⟨tail, ih.mpr htail.symm, rfl⟩
      | null | boolean | number | array | object => cases parents <;> simp [parentsOf]

theorem parentsOf_eq_error_iff {items : List Json} {e : FieldError} :
    parentsOf name items = .error e ↔
      (∃ item ∈ items, ∀ address, item ≠ .string address) ∧
        e = .wrongShape "extends" (label name) .textList := by
  induction items with
  | nil => simp [parentsOf]
  | cons item rest ih =>
      cases item with
      | string address =>
          have hrest : parentsOf name (.string address :: rest) = .error e ↔
              parentsOf name rest = .error e := by
            rw [parentsOf, bind_eq_error_iff]
            simp [pure, Except.pure]
          simp [hrest, ih]
      | null | boolean | number | array | object => simp [parentsOf, eq_comm]

/-! ### The list of attributes -/

theorem attributesOf_cons (index : Nat) (item : Json) (rest : List Json) :
    attributesOf name index (item :: rest) = do
      let built ← Attribute.ofItem (attributeLabel name index) item
      return built :: (← attributesOf name (index + 1) rest) := by
  rw [attributesOf, Attribute.ofItem, bind_assoc]

theorem attributesOf_eq_ok_iff {index : Nat} {items : List Json} {attributes : List Attribute} :
    attributesOf name index items = .ok attributes ↔
      List.Forall₂ (fun item a => ∃ fields, item = .object fields ∧ a.DefinedBy fields)
        items attributes := by
  induction items generalizing index attributes with
  | nil => cases attributes <;> simp [attributesOf]
  | cons item rest ih =>
      rw [attributesOf_cons, bind_eq_ok_iff, List.forall₂_cons_left_iff]
      constructor
      · rintro ⟨built, hbuilt, h⟩
        obtain ⟨tail, htail, h⟩ := bind_eq_ok_iff.mp h
        cases h
        exact ⟨built, tail, Attribute.ofItem_eq_ok_iff.mp hbuilt, ih.mp htail, rfl⟩
      · rintro ⟨built, tail, hbuilt, htail, rfl⟩
        exact ⟨built, Attribute.ofItem_eq_ok_iff.mpr hbuilt,
          bind_eq_ok_iff.mpr ⟨tail, ih.mpr htail, rfl⟩⟩

theorem attributesOf_eq_error_iff {index : Nat} {items : List Json} {e : FieldError} :
    attributesOf name index items = .error e ↔
      ∃ before item after, items = before ++ item :: after ∧
        (∀ earlier ∈ before, ∃ fields, earlier = .object fields ∧ Attribute.Grammatical fields) ∧
        Attribute.ItemFault (attributeLabel name (index + before.length)) item e := by
  induction items generalizing index with
  | nil => simp [attributesOf]
  | cons item rest ih =>
      rw [attributesOf_cons, bind_eq_error_iff]
      constructor
      · rintro (hitem | ⟨built, hbuilt, h⟩)
        · exact ⟨[], item, rest, rfl, nofun, Attribute.ofItem_eq_error_iff.mp hitem⟩
        · obtain hrest | ⟨tail, -, h⟩ := bind_eq_error_iff.mp h
          · obtain ⟨before, bad, after, rfl, hbefore, hfault⟩ := ih.mp hrest
            obtain ⟨fields, hitem, hdefined⟩ := Attribute.ofItem_eq_ok_iff.mp hbuilt
            refine ⟨item :: before, bad, after, rfl, ?_, ?_⟩
            · rw [List.forall_mem_cons]
              exact ⟨⟨fields, hitem, Attribute.grammatical_iff.mpr ⟨built, hdefined⟩⟩, hbefore⟩
            · rwa [List.length_cons, Nat.add_comm before.length, ← Nat.add_assoc]
          · exact nomatch h
      · rintro ⟨before, bad, after, hsplit, hbefore, hfault⟩
        cases before with
        | nil =>
            cases hsplit
            exact .inl (Attribute.ofItem_eq_error_iff.mpr hfault)
        | cons first before =>
            cases hsplit
            rw [List.forall_mem_cons] at hbefore
            obtain ⟨⟨fields, hitem, hgrammatical⟩, hbefore⟩ := hbefore
            obtain ⟨built, hdefined⟩ := Attribute.grammatical_iff.mp hgrammatical
            rw [List.length_cons, Nat.add_comm before.length, ← Nat.add_assoc] at hfault
            have hrest : attributesOf name (index + 1) (before ++ bad :: after) = .error e :=
              ih.mpr ⟨before, bad, after, rfl, hbefore, hfault⟩
            exact .inr ⟨built, Attribute.ofItem_eq_ok_iff.mpr ⟨fields, hitem, hdefined⟩,
              bind_eq_error_iff.mpr (.inl hrest)⟩

/-! ### Whole definitions -/

theorem ofDefinition_eq_ok_iff :
    ofDefinition d package = .ok b ↔ DefinedBy d.content package b := by
  rw [ofDefinition_eq]
  constructor
  · intro h
    obtain ⟨name, hname, h⟩ := bind_eq_ok_iff.mp h
    obtain ⟨description, hdescription, h⟩ := bind_eq_ok_iff.mp h
    obtain ⟨addresses, haddresses, h⟩ := bind_eq_ok_iff.mp h
    obtain ⟨parents, hparents, h⟩ := bind_eq_ok_iff.mp h
    obtain ⟨items, hitems, h⟩ := bind_eq_ok_iff.mp h
    obtain ⟨attributes, hattributes, h⟩ := bind_eq_ok_iff.mp h
    cases h
    rw [parentsOf_eq_ok_iff.mp hparents] at haddresses
    exact {
      name := Definition.requiredText_eq_ok_iff.mp hname
      description := ((d.textOr_accesses _ _).eq_ok_iff _).mp hdescription
      parents := ((d.items_accesses _).eq_ok_iff _).mp haddresses
      attributes := ⟨items, ((d.items_accesses _).eq_ok_iff _).mp hitems,
        attributesOf_eq_ok_iff.mp hattributes⟩
      package := rfl
      content := rfl }
  · intro h
    obtain ⟨items, hitems, hattributes⟩ := h.attributes
    refine bind_eq_ok_iff.mpr ⟨_, Definition.requiredText_eq_ok_iff.mpr h.name, ?_⟩
    refine bind_eq_ok_iff.mpr ⟨_, ((d.textOr_accesses _ _).eq_ok_iff _).mpr h.description, ?_⟩
    refine bind_eq_ok_iff.mpr ⟨_, ((d.items_accesses _).eq_ok_iff _).mpr h.parents, ?_⟩
    refine bind_eq_ok_iff.mpr ⟨_, parentsOf_eq_ok_iff.mpr rfl, ?_⟩
    refine bind_eq_ok_iff.mpr ⟨_, ((d.items_accesses _).eq_ok_iff _).mpr hitems, ?_⟩
    refine bind_eq_ok_iff.mpr ⟨_, attributesOf_eq_ok_iff.mpr hattributes, ?_⟩
    rw [← h.content, ← h.package]
    rfl

theorem exists_parents_iff {items : List Json} :
    (∃ parents : List String, items = parents.map .string) ↔
      ∀ item ∈ items, ∃ address, item = .string address := by
  rw [← exists_forall₂_iff]
  simp only [← List.forall₂_map_right_iff, List.forall₂_eq_eq_eq]

theorem exists_attributes_iff {items : List Json} :
    (∃ attributes, List.Forall₂ (fun item (a : Attribute) =>
      ∃ fields, item = .object fields ∧ a.DefinedBy fields) items attributes) ↔
      ∀ item ∈ items, ∃ fields, item = .object fields ∧ Attribute.Grammatical fields := by
  rw [exists_forall₂_iff]
  simp only [Attribute.grammatical_iff, ← exists_and_left]
  exact forall₂_congr fun item _ => exists_comm

theorem grammatical_iff {content : Members} :
    Grammatical content ↔ ∃ b, DefinedBy content package b := by
  constructor
  · intro h
    obtain ⟨name, hname⟩ := h.name
    obtain ⟨description, hdescription⟩ := h.description
    obtain ⟨addresses, haddresses, htexts⟩ := h.parents
    obtain ⟨items, hitems, hobjects⟩ := h.attributes
    obtain ⟨parents, rfl⟩ := exists_parents_iff.mpr htexts
    obtain ⟨attributes, hattributes⟩ := exists_attributes_iff.mpr hobjects
    exact ⟨⟨name, description, parents, attributes, package, content⟩,
      hname, hdescription, haddresses, ⟨items, hitems, hattributes⟩, rfl, rfl⟩
  · rintro ⟨b, h⟩
    obtain ⟨items, hitems, hdefined⟩ := h.attributes
    exact ⟨⟨b.name, h.name⟩, ⟨b.description, h.description⟩,
      ⟨_, h.parents, exists_parents_iff.mp ⟨b.parents, rfl⟩⟩,
      ⟨items, hitems, exists_attributes_iff.mp ⟨_, hdefined⟩⟩⟩

/-! ### The first fault -/

theorem attributeLabel_eq (name : String) (index : Nat) :
    attributeLabel name index =
      "attribute #" ++ toString index ++ " of blueprint '" ++ name ++ "'" := by
  show "attribute #" ++ toString index ++ " of " ++ ("blueprint '" ++ name ++ "'") = _
  have hjoin : " of blueprint '" = " of " ++ "blueprint '" := rfl
  simp only [hjoin, String.append_assoc]

theorem parentFault_iff (hname : d.content.lookup "name" = some (.string name)) {items : List Json}
    (hitems : Reads .array [] (d.content.lookup "extends") items) {e : FieldError} :
    parentsOf name items = .error e ↔ ParentFault d e := by
  rw [parentsOf_eq_error_iff]
  constructor
  · rintro ⟨⟨item, hmem, hkind⟩, rfl⟩
    exact .intro hname (hitems.given_of_mem hmem) hmem hkind
  · rintro ⟨hname', hitems', hmem, hkind⟩
    cases hname.symm.trans hname'
    cases hitems.eq_of_given hitems'
    exact ⟨⟨_, hmem, hkind⟩, rfl⟩

theorem attributeFault_iff (hname : d.content.lookup "name" = some (.string name))
    {items : List Json} (hitems : Reads .array [] (d.content.lookup "attributes") items)
    {e : FieldError} : attributesOf name 0 items = .error e ↔ AttributeFault d e := by
  rw [attributesOf_eq_error_iff]
  constructor
  · rintro ⟨before, item, after, rfl, hbefore, hfault⟩
    have hgiven := hitems.given_of_mem (List.mem_append_right before List.mem_cons_self)
    rw [attributeLabel_eq, Nat.zero_add] at hfault
    exact .intro hname hgiven hbefore hfault
  · rintro ⟨hname', hitems', hbefore, hfault⟩
    cases hname.symm.trans hname'
    cases hitems.eq_of_given hitems'
    rw [← Nat.zero_add (List.length _), ← attributeLabel_eq] at hfault
    exact ⟨_, _, _, rfl, hbefore, hfault⟩

theorem ofDefinition_reports (d : Definition) (package : PackageId) :
    Reports (ofDefinition d package) (faults d) := by
  rw [ofDefinition_eq]
  refine .bind (fun e => Definition.requiredText_eq_error_iff) fun name hname => ?_
  -- the errors of both lists quote the name
  obtain ⟨hname, -⟩ := Definition.requiredText_eq_ok_iff.mp hname
  refine .bind (d.textOr_accesses _ _).eq_error_iff fun description _ => ?_
  refine .bind (d.items_accesses _).eq_error_iff fun addresses haddresses => ?_
  have haddresses := ((d.items_accesses _).eq_ok_iff _).mp haddresses
  refine .bind (fun e => parentFault_iff hname haddresses) fun parents _ => ?_
  refine .bind (d.items_accesses _).eq_error_iff fun items hitems => ?_
  have hitems := ((d.items_accesses _).eq_ok_iff _).mp hitems
  refine .bind (fun e => attributeFault_iff hname hitems) fun attributes _ => ?_
  exact .ok _

/-- A definition is built if and only if it is grammatical. What comes of it is what it defines and
nothing else, and if it is not grammatical, the error is that of its first fault. -/
theorem ofDefinition_decides (d : Definition) (package : PackageId) :
    ((∃ b, ofDefinition d package = .ok b) ↔ Grammatical d.content) ∧
      (∀ b, ofDefinition d package = .ok b ↔ DefinedBy d.content package b) ∧
      ∀ e, ofDefinition d package = .error e ↔ First (faults d) e := by
  refine ⟨?_, fun b => ofDefinition_eq_ok_iff, ofDefinition_reports d package⟩
  simp only [ofDefinition_eq_ok_iff]
  exact grammatical_iff.symm

/-- The second attribute has no name, and the kind of the third is not looked at. -/
example : (ofDefinition ⟨"Broken.json", [("name", .string "Broken"), ("attributes", .array [
      .object [("name", .string "a"), ("attributeType", .string "string")],
      .object [("attributeType", .string "string")], .null])]⟩ 0).map Blueprint.name =
    .error (.missing "name" "attribute #1 of blueprint 'Broken'") := by
  rfl

end Blueprint

/-! ## Enumerations -/

namespace Enumeration

/-- What an enumeration is, by the content of its definition. -/
structure DefinedBy (content : Members) (package : PackageId) (e : Enumeration) : Prop where
  name : content.lookup "name" = some (.string e.name) ∧ e.name ≠ ""
  description : Reads .string "" (content.lookup "description") e.description
  package : e.package = package
  content : e.content = content

theorem ofDefinition_eq (d : Definition) (package : PackageId) : ofDefinition d package = do
    let name ← d.requiredText "name"
    let description ← d.textOr "description" ""
    return ⟨name, description, package, d.content⟩ := by
  unfold ofDefinition Definition.textOr
  cases d.requiredText "name" <;> cases d.optionalText "description" <;> rfl

theorem ofDefinition_eq_ok_iff {d : Definition} {package : PackageId} {e : Enumeration} :
    ofDefinition d package = .ok e ↔ DefinedBy d.content package e := by
  rw [ofDefinition_eq]
  constructor
  · intro h
    obtain ⟨name, hname, h⟩ := bind_eq_ok_iff.mp h
    obtain ⟨description, hdescription, h⟩ := bind_eq_ok_iff.mp h
    cases h
    exact ⟨Definition.requiredText_eq_ok_iff.mp hname,
      ((d.textOr_accesses _ _).eq_ok_iff _).mp hdescription, rfl, rfl⟩
  · intro h
    refine bind_eq_ok_iff.mpr ⟨_, Definition.requiredText_eq_ok_iff.mpr h.name, ?_⟩
    refine bind_eq_ok_iff.mpr ⟨_, ((d.textOr_accesses _ _).eq_ok_iff _).mpr h.description, ?_⟩
    rw [← h.content, ← h.package]
    rfl

end Enumeration

end BlueprintPackages
