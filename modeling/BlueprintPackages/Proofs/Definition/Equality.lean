import BlueprintPackages.Proofs.Definition.Grammar
import BlueprintPackages.Proofs.Json.Equality

/-!
# What is built from equal definitions

Blueprints, attributes and enumerations are compared by all that was taken from their definitions,
and by the contents that they keep. The contents alone decide (`BuiltByContent`): from equal
contents every accessor takes the same, in whatever order the keys stand, so what is built differs
in nothing that is compared, and if nothing is built, it is for the same reason. The context of a
definition is in its errors and nowhere else.
-/

namespace BlueprintPackages

open Fallible Json

/-! ## Reading equal contents -/

/-- Definitions with equal contents in one context. -/
structure Definition.Alike (d d' : Definition) : Prop where
  context : d.context = d'.context
  content : Equal (.object d.content) (.object d'.content)

namespace Definition.Alike

variable {d d' : Definition} (h : d.Alike d') (key : String)
include h

theorem sameMembers_eq_true : sameMembers d.content d'.content = true :=
  (same_iff_equal (.object d.content) (.object d'.content)).mpr h.content

theorem texts_and_flags_eq : d.requiredText key = d'.requiredText key ∧
    (∀ default, d.textOr key default = d'.textOr key default) ∧
    ∀ default, d.flagOr key default = d'.flagOr key default := by
  have hlookup := h.content.lookup key
  unfold requiredText textOr optionalText flagOr optionalFlag get? missing wrongShape
  rw [h.context]
  generalize d.content.lookup key = found at hlookup ⊢
  generalize d'.content.lookup key = found' at hlookup ⊢
  cases hlookup with
  | none => exact ⟨rfl, fun _ => rfl, fun _ => rfl⟩
  | some hvalue => cases hvalue <;> exact ⟨rfl, fun _ => rfl, fun _ => rfl⟩

theorem requiredText_eq : d.requiredText key = d'.requiredText key :=
  (h.texts_and_flags_eq key).1

theorem textOr_eq (default : String) : d.textOr key default = d'.textOr key default :=
  (h.texts_and_flags_eq key).2.1 default

theorem flagOr_eq (default : Bool) : d.flagOr key default = d'.flagOr key default :=
  (h.texts_and_flags_eq key).2.2 default

theorem items_agree : Agree (List.Forall₂ Equal) (d.items key) (d'.items key) := by
  have hlookup := h.content.lookup key
  unfold Definition.items get? wrongShape
  rw [h.context]
  generalize d.content.lookup key = found at hlookup ⊢
  generalize d'.content.lookup key = found' at hlookup ⊢
  cases hlookup with
  | none => exact .ok .nil
  | some hvalue =>
      cases hvalue with
      | null => exact .ok .nil
      | array hitems => exact .ok hitems
      | boolean | integer | double | zeros | string | object => exact .error _

end Definition.Alike

/-! ## Building from equal contents -/

/-- What is built is decided by the content of the definition: it is the same just where the
contents are equal, and in one context definitions of equal contents are built alike or fail with
one error. -/
structure BuiltByContent {α : Type} (build : Definition → Except FieldError α)
    (same : α → α → Bool) : Prop where
  same_iff : ∀ d d' a a', build d = .ok a → build d' = .ok a' →
    (same a a' = true ↔ Equal (.object d.content) (.object d'.content))
  agree : ∀ d d', d.context = d'.context → Equal (.object d.content) (.object d'.content) →
    Agree (fun a a' => same a a' = true) (build d) (build d')

/-- Where a content defines what is built from it, whatever its context, and the contents are
compared with the rest, it is enough that definitions that are alike are built alike. -/
theorem builtByContent_of_agree {α : Type} {build : Definition → Except FieldError α}
    {same : α → α → Bool} (Defines : Members → α → Prop)
    (hdefines : ∀ d a, build d = .ok a ↔ Defines d.content a)
    (hsame : ∀ content content' a a', Defines content a → Defines content' a' →
      same a a' = true → sameMembers content content' = true)
    (hagree : ∀ d d', d.Alike d' → Agree (fun a a' => same a a' = true) (build d) (build d')) :
    BuiltByContent build same where
  same_iff := by
    intro d d' a a' ha ha'
    have ha'_defined := (hdefines d' a').mp ha'
    constructor
    · intro h
      have hmembers := hsame _ _ a a' ((hdefines d a).mp ha) ha'_defined h
      exact (same_iff_equal (.object d.content) (.object d'.content)).mp hmembers
    · intro h
      -- the second definition in the context of the first builds the same
      have hboth := hagree d ⟨d.context, d'.content⟩ ⟨rfl, h⟩
      rw [ha, (hdefines ⟨d.context, d'.content⟩ a').mpr ha'_defined] at hboth
      cases hboth with
      | ok hsame => exact hsame
  agree := fun d d' hcontext hcontent => hagree d d' ⟨hcontext, hcontent⟩

namespace Attribute

theorem ofDefinition_agree {d d' : Definition} (h : d.Alike d') :
    Agree (fun a a' => a.same a' = true) (ofDefinition d) (ofDefinition d') := by
  rw [ofDefinition_eq, ofDefinition_eq, h.requiredText_eq, h.requiredText_eq, h.textOr_eq,
    h.flagOr_eq, h.flagOr_eq]
  refine .bind_same fun name => .bind_same fun attributeType => .bind_same fun description =>
    .bind_same fun contained => .bind_same fun optional => .ok ?_
  simp [same, h.sameMembers_eq_true]

theorem ofItem_agree {x y : Json} (h : Equal x y) (context : String) :
    Agree (fun a a' => a.same a' = true) (ofItem context x) (ofItem context y) := by
  cases h with
  | object hkeys hvalues => exact ofDefinition_agree ⟨rfl, .object hkeys hvalues⟩
  | null | boolean | integer | double | zeros | string | array => exact .error _

theorem builtByContent : BuiltByContent ofDefinition same := by
  refine builtByContent_of_agree DefinedBy (fun d a => ofDefinition_eq_ok_iff) ?_
    fun d d' h => ofDefinition_agree h
  intro content content' a a' ha ha' h
  rw [same, Bool.and_eq_true, ha.content, ha'.content] at h
  exact h.2

/-- What is derived from the content or the type of attributes is equal where they are the same. -/
theorem derived_eq_of_same {a a' : Attribute} (h : a.same a' = true) :
    a.isMany = a'.isMany ∧ a.isEnum = a'.isEnum ∧ a.isPrimitive = a'.isPrimitive := by
  simp only [same, Bool.and_eq_true, beq_iff_eq] at h
  obtain ⟨⟨⟨⟨⟨-, -⟩, htype⟩, -⟩, -⟩, hmembers⟩ := h
  have hcontent : Equal (.object a.content) (.object a'.content) :=
    (same_iff_equal (.object a.content) (.object a'.content)).mp hmembers
  refine ⟨?_, ?_, ?_⟩
  · have hlookup := hcontent.lookup "dimensions"
    unfold isMany get?
    generalize a.content.lookup "dimensions" = found at hlookup ⊢
    generalize a'.content.lookup "dimensions" = found' at hlookup ⊢
    cases hlookup <;> rfl
  · have hlookup := hcontent.lookup "enumType"
    unfold isEnum get?
    generalize a.content.lookup "enumType" = found at hlookup ⊢
    generalize a'.content.lookup "enumType" = found' at hlookup ⊢
    cases hlookup with
    | none => rfl
    | some hvalue => cases hvalue <;> rfl
  · rw [isPrimitive, isPrimitive, htype]

end Attribute

namespace Blueprint

theorem parentsOf_eq {xs ys : List Json} (h : List.Forall₂ Equal xs ys) (name : String) :
    parentsOf name xs = parentsOf name ys := by
  induction h with
  | nil => rfl
  | cons hxy _ ih =>
      cases hxy with
      | string text => rw [parentsOf, parentsOf, ih]
      | null | boolean | integer | double | zeros | array | object => rfl

theorem attributesOf_agree {xs ys : List Json} (h : List.Forall₂ Equal xs ys) (name : String)
    (index : Nat) : Agree (fun as as' => sameAttributes as as' = true)
      (attributesOf name index xs) (attributesOf name index ys) := by
  induction h generalizing index with
  | nil => exact .ok rfl
  | cons hxy _ ih =>
      rw [attributesOf_cons, attributesOf_cons]
      refine (Attribute.ofItem_agree hxy _).bind fun a a' ha => ?_
      refine (ih (index + 1)).bind fun as as' has => .ok ?_
      rw [sameAttributes, ha, has, Bool.and_self]

theorem ofDefinition_agree {d d' : Definition} (h : d.Alike d') (package : PackageId) :
    Agree (fun b b' => b.same b' = true) (ofDefinition d package) (ofDefinition d' package) := by
  rw [ofDefinition_eq, ofDefinition_eq, h.requiredText_eq, h.textOr_eq]
  refine .bind_same fun name => .bind_same fun description => ?_
  refine (h.items_agree "extends").bind fun addresses addresses' haddresses => ?_
  rw [parentsOf_eq haddresses]
  refine .bind_same fun parents => ?_
  refine (h.items_agree "attributes").bind fun items items' hitems => ?_
  refine (attributesOf_agree hitems name 0).bind fun as as' has => .ok ?_
  simp [same, has, h.sameMembers_eq_true]

theorem builtByContent (package : PackageId) :
    BuiltByContent (fun d => ofDefinition d package) same := by
  refine builtByContent_of_agree (fun content b => DefinedBy content package b)
    (fun d b => ofDefinition_eq_ok_iff) ?_ fun d d' h => ofDefinition_agree h package
  intro content content' b b' hb hb' h
  rw [same, Bool.and_eq_true, hb.content, hb'.content] at h
  exact h.2

end Blueprint

namespace Enumeration

theorem ofDefinition_agree {d d' : Definition} (h : d.Alike d') (package : PackageId) :
    Agree (fun e e' => e.same e' = true) (ofDefinition d package) (ofDefinition d' package) := by
  rw [ofDefinition_eq, ofDefinition_eq, h.requiredText_eq, h.textOr_eq]
  refine .bind_same fun name => .bind_same fun description => .ok ?_
  simp [same, h.sameMembers_eq_true]

theorem builtByContent (package : PackageId) :
    BuiltByContent (fun d => ofDefinition d package) same := by
  refine builtByContent_of_agree (fun content e => DefinedBy content package e)
    (fun d e => ofDefinition_eq_ok_iff) ?_ fun d d' h => ofDefinition_agree h package
  intro content content' e e' he he' h
  rw [same, Bool.and_eq_true, he.content, he'.content] at h
  exact h.2

end Enumeration

/-- What is built of a package is equal just where the definitions are equal as JSON, whatever their
contexts, and where the contexts are equal too, so are the errors. Equal attributes are equal also
in what is derived from their contents. -/
theorem Definition.equal_contents_build_the_same :
    (∀ package, BuiltByContent (fun d => Blueprint.ofDefinition d package) Blueprint.same) ∧
      BuiltByContent Attribute.ofDefinition Attribute.same ∧
      (∀ package, BuiltByContent (fun d => Enumeration.ofDefinition d package) Enumeration.same) ∧
      ∀ a a' : Attribute, a.same a' = true →
        a.isMany = a'.isMany ∧ a.isEnum = a'.isEnum ∧ a.isPrimitive = a'.isPrimitive :=
  ⟨Blueprint.builtByContent, Attribute.builtByContent, Enumeration.builtByContent,
    fun _ _ => Attribute.derived_eq_of_same⟩

/-- A blueprint with one attribute, which is zero by default. -/
def boltContent : Members :=
  [("name", .string "Bolt"), ("attributes", .array [.object [("name", .string "slack"),
    ("attributeType", .string "number"), ("default", .number (.double 0))]])]

/-- The same with the keys in other orders, and a negative zero. -/
def boltContentReordered : Members :=
  [("attributes", .array [.object [("default", .number (.double 0x8000000000000000)),
    ("attributeType", .string "number"), ("name", .string "slack")]]), ("name", .string "Bolt")]

theorem Definition.equal_contents_build_the_same_bolt : ∃ b b',
    Blueprint.ofDefinition ⟨"Bolt.json", boltContent⟩ 0 = .ok b ∧
      Blueprint.ofDefinition ⟨"bolts/Bolt.json", boltContentReordered⟩ 0 = .ok b' ∧
      b.same b' = true ∧ Equal (.object boltContent) (.object boltContentReordered) := by
  obtain ⟨b, hb⟩ := exists_ok_of_isOk
    (x := Blueprint.ofDefinition ⟨"Bolt.json", boltContent⟩ 0) (by decide)
  obtain ⟨b', hb'⟩ := exists_ok_of_isOk
    (x := Blueprint.ofDefinition ⟨"bolts/Bolt.json", boltContentReordered⟩ 0) (by decide)
  have hequal : Equal (.object boltContent) (.object boltContentReordered) :=
    (same_iff_equal (.object boltContent) (.object boltContentReordered)).mp (by decide)
  have hsame := (Definition.equal_contents_build_the_same.1 0).same_iff _ _ b b' hb hb'
  exact ⟨b, b', hb, hb', hsame.mpr hequal, hequal⟩

end BlueprintPackages
