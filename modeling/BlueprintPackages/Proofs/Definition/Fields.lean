import BlueprintPackages.Definition
import BlueprintPackages.Proofs.Fallible

/-!
# What the fields of a definition hold

The accessors of `Definition` treat an absent field, a null and a value of the wrong kind in two
ways. A required text fails in all three cases, and also where it is empty (`TextFault`). Any other
field may be left out, by absence or by a null, and only a value of another kind is a fault
(`KindFault`); what the field comes to, with its default, is said by `Reads`. Both are said once for
all kinds of values, with the constructor of the kind as a parameter.
-/

namespace BlueprintPackages

/-- What a field that may be left out comes to, where `value` makes the values of its kind: what is
given, or the default for an absent field and for a null. -/
def Reads {α : Type} (value : α → Json) (default : α) (found : Option Json) (a : α) : Prop :=
  found = some (value a) ∨ (found = none ∨ found = some .null) ∧ a = default

/-- A list that has items is given. -/
theorem Reads.given_of_mem {found : Option Json} {items : List Json} {item : Json}
    (h : Reads .array [] found items) (hmem : item ∈ items) : found = some (.array items) := by
  obtain hgiven | ⟨-, rfl⟩ := h
  · exact hgiven
  · exact absurd hmem List.not_mem_nil

theorem Reads.eq_of_given {found : Option Json} {items given : List Json}
    (h : Reads .array [] found items) (hgiven : found = some (.array given)) : items = given := by
  subst hgiven
  obtain heq | ⟨hnone | hnull, -⟩ := h
  · cases heq
    rfl
  · exact nomatch hnone
  · exact nomatch hnull

namespace Definition

/-- The field holds something, which is neither null nor of the kind that `value` makes. -/
def KindFault {α : Type} (value : α → Json) (expected : Shape) (d : Definition) (key : String)
    (e : FieldError) : Prop :=
  (∃ found, d.content.lookup key = some found ∧ found ≠ .null ∧ ∀ a, found ≠ value a) ∧
    e = .wrongShape key d.context expected

/-- The field holds no text, or the empty one. -/
inductive TextFault (d : Definition) (key : String) : FieldError → Prop
  | absent (h : d.content.lookup key = none) : TextFault d key (.missing key d.context)
  | null (h : d.content.lookup key = some .null) : TextFault d key (.missing key d.context)
  | empty (h : d.content.lookup key = some (.string "")) : TextFault d key (.missing key d.context)
  | otherKind {e : FieldError} (h : KindFault .string .text d key e) : TextFault d key e

variable {d : Definition} {key : String} {e : FieldError}

/-! ## Required texts -/

theorem requiredText_eq_ok_iff {text : String} :
    d.requiredText key = .ok text ↔ d.get? key = some (.string text) ∧ text ≠ "" := by
  rw [requiredText]
  cases d.get? key with
  | none => simp
  | some value =>
      cases value with
      | string found =>
          by_cases hempty : found = ""
          · simp [hempty, eq_comm]
          · simp only [if_neg hempty, Except.ok.injEq, Option.some.injEq, Json.string.injEq]
            exact ⟨fun heq => ⟨heq, heq ▸ hempty⟩, fun hand => hand.1⟩
      | null | boolean | number | array | object => simp

theorem requiredText_eq_error_iff : d.requiredText key = .error e ↔ TextFault d key e := by
  constructor
  · intro h
    unfold requiredText at h
    split at h
    case h_1 hget => exact Except.error.inj h ▸ .absent hget
    case h_2 hget => exact Except.error.inj h ▸ .null hget
    case h_3 text hget =>
      by_cases hempty : text = ""
      · rw [if_pos hempty] at h
        exact Except.error.inj h ▸ .empty (hempty ▸ hget)
      · rw [if_neg hempty] at h
        exact nomatch h
    case h_4 found hnull hkind hget =>
      exact .otherKind ⟨⟨found, hget, hnull, hkind⟩, (Except.error.inj h).symm⟩
  · intro h
    unfold requiredText get?
    cases h with
    | absent h => rw [h]; rfl
    | null h => rw [h]; rfl
    | empty h => rw [h]; rfl
    | otherKind h =>
        obtain ⟨⟨found, hget, hnull, hkind⟩, rfl⟩ := h
        rw [hget]
        split
        case h_1 h => exact nomatch h
        case h_2 h => exact absurd (Option.some.inj h) hnull
        case h_3 h => exact absurd (Option.some.inj h) (hkind _)
        case h_4 => rfl

/-! ## Fields that may be left out -/

/-- The computation reads a field that may be left out: it succeeds with what the field comes to,
and fails exactly for a value of another kind. -/
structure Accesses {α : Type} (value : α → Json) (default : α) (expected : Shape) (d : Definition)
    (key : String) (x : Except FieldError α) : Prop where
  eq_ok_iff : ∀ a, x = .ok a ↔ Reads value default (d.content.lookup key) a
  eq_error_iff : ∀ e, x = .error e ↔ KindFault value expected d key e

def textOr (d : Definition) (key default : String) : Except FieldError String :=
  (d.optionalText key).map (·.getD default)

def flagOr (d : Definition) (key : String) (default : Bool) : Except FieldError Bool :=
  (d.optionalFlag key).map (·.getD default)

theorem textOr_accesses (d : Definition) (key default : String) :
    Accesses .string default .text d key (d.textOr key default) := by
  unfold textOr optionalText get?
  constructor
  · intro text
    unfold Reads
    cases d.content.lookup key with
    | none => simp [Except.map, eq_comm]
    | some found => cases found <;> simp [Except.map, eq_comm]
  · intro e
    unfold KindFault
    cases d.content.lookup key with
    | none => simp [Except.map]
    | some found => cases found <;> simp [Except.map, eq_comm, wrongShape]

theorem flagOr_accesses (d : Definition) (key : String) (default : Bool) :
    Accesses .boolean default .flag d key (d.flagOr key default) := by
  unfold flagOr optionalFlag get?
  constructor
  · intro flag
    unfold Reads
    cases d.content.lookup key with
    | none => simp [Except.map, eq_comm]
    | some found => cases found <;> simp [Except.map, eq_comm]
  · intro e
    unfold KindFault
    cases d.content.lookup key with
    | none => simp [Except.map]
    | some found => cases found <;> simp [Except.map, eq_comm, wrongShape]

theorem items_accesses (d : Definition) (key : String) :
    Accesses .array [] .list d key (d.items key) := by
  unfold Definition.items get?
  constructor
  · intro items
    unfold Reads
    cases d.content.lookup key with
    | none => simp [eq_comm]
    | some found => cases found <;> simp [eq_comm]
  · intro e
    unfold KindFault
    cases d.content.lookup key with
    | none => simp
    | some found => cases found <;> simp [eq_comm, wrongShape]

end Definition

end BlueprintPackages
