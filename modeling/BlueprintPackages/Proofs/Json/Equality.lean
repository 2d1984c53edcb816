import BlueprintPackages.Json.Value
import BlueprintPackages.Proofs.OrderedMap
import Mathlib.Data.List.Forall2
import Mathlib.Data.Option.Basic

/-!
# What it is for JSON values to be equal

`Json.same` computes an equality that looks past the order of members; `Json.Equal` says what it
is. Values of different kinds are never equal, nor is an integer to a double, arrays are equal item
by item, and objects have the same keys with equal values. The two are the same (`same_iff_equal`),
and for equal objects a lookup comes to nothing in both or to equal values (`Equal.lookup`). Where
the keys of an object are distinct, as in all that is read from a text, that is all there is to it
(`equal_object_iff`).
-/

namespace BlueprintPackages

/-- The positive and the negative zero, by their bits. -/
def Number.IsZero (bits : UInt64) : Prop := bits = 0 ∨ bits = 0x8000000000000000

namespace Json

/-- Equality of values, without regard to the order of the members of objects. -/
inductive Equal : Json → Json → Prop
  | null : Equal null null
  | boolean (value : Bool) : Equal (boolean value) (boolean value)
  | integer (value : Int) : Equal (number (.integer value)) (number (.integer value))
  | double (bits : UInt64) : Equal (number (.double bits)) (number (.double bits))
  | zeros {a b : UInt64} (ha : Number.IsZero a) (hb : Number.IsZero b) :
      Equal (number (.double a)) (number (.double b))
  | string (text : String) : Equal (string text) (string text)
  | array {xs ys : List Json} (h : List.Forall₂ Equal xs ys) : Equal (array xs) (array ys)
  | object {ms ns : Members} (hkeys : ∀ key, key ∈ ms.map Prod.fst ↔ key ∈ ns.map Prod.fst)
      (hvalues : ∀ key x y, (key, x) ∈ ms → ns.lookup key = some y → Equal x y) :
      Equal (object ms) (object ns)

end Json

theorem Number.isZeroBits_iff (bits : UInt64) : isZeroBits bits = true ↔ IsZero bits := by
  unfold isZeroBits IsZero
  rw [beq_iff_eq, ← UInt64.toNat_inj, ← UInt64.toNat_inj, ← UInt64.toNat_inj,
    UInt64.toNat_shiftLeft]
  have := bits.toNat_lt
  simp [Nat.shiftLeft_eq]
  omega

namespace Json

/-! ## Lookups -/

/-- In equal objects a lookup comes to nothing, or to equal values. -/
theorem Equal.lookup {ms ns : Members} (h : Equal (.object ms) (.object ns)) (key : String) :
    Option.Rel Equal (ms.lookup key) (ns.lookup key) := by
  cases h with
  | object hkeys hvalues =>
      have hsome := hkeys key
      rw [← OrderedMap.isSome_lookup_iff, ← OrderedMap.isSome_lookup_iff] at hsome
      cases hms : ms.lookup key with
      | none =>
          cases hns : ns.lookup key with
          | none => exact .none
          | some y => simp [hms, hns] at hsome
      | some x =>
          cases hns : ns.lookup key with
          | none => simp [hms, hns] at hsome
          | some y => exact .some (hvalues key x y (OrderedMap.mem_of_lookup hms) hns)

/-- Objects with distinct keys are equal if and only if all lookups agree. -/
theorem equal_object_iff {ms ns : Members} (h : (ms.map Prod.fst).Nodup) :
    Equal (object ms) (object ns) ↔ ∀ key, Option.Rel Equal (ms.lookup key) (ns.lookup key) := by
  constructor
  · exact fun hequal key => hequal.lookup key
  · intro hlookup
    refine .object ?_ ?_
    · intro key
      have hrel := hlookup key
      rw [← OrderedMap.isSome_lookup_iff, ← OrderedMap.isSome_lookup_iff]
      generalize ms.lookup key = found at hrel ⊢
      generalize ns.lookup key = found' at hrel ⊢
      cases hrel with
      | none => rfl
      | some => rfl
    · intro key x y hmem hy
      have hboth := hlookup key
      rw [(OrderedMap.lookup_eq_some_iff_mem h).mpr hmem, hy] at hboth
      cases hboth with
      | some hxy => exact hxy

/-! ## The computed equality -/

theorem equal_boolean_iff (a b : Bool) : Equal (boolean a) (boolean b) ↔ a = b := by
  constructor
  · intro h
    cases h
    rfl
  · exact fun heq => heq ▸ .boolean a

theorem equal_string_iff (a b : String) : Equal (string a) (string b) ↔ a = b := by
  constructor
  · intro h
    cases h
    rfl
  · exact fun heq => heq ▸ .string a

theorem equal_number_iff (a b : Number) : Equal (number a) (number b) ↔ a.same b = true := by
  constructor
  · intro h
    cases h with
    | integer | double => simp [Number.same]
    | zeros ha hb =>
        simp [Number.same, (Number.isZeroBits_iff _).mpr ha, (Number.isZeroBits_iff _).mpr hb]
  · intro h
    cases a with
    | integer m =>
        cases b with
        | integer n =>
            obtain rfl : m = n := by simpa [Number.same] using h
            exact .integer m
        | double => exact nomatch h
    | double a =>
        cases b with
        | integer => exact nomatch h
        | double b =>
            simp only [Number.same, Bool.or_eq_true, beq_iff_eq, Bool.and_eq_true,
              Number.isZeroBits_iff] at h
            obtain rfl | ⟨ha, hb⟩ := h
            · exact .double a
            · exact .zeros ha hb

theorem equal_array_iff (xs ys : List Json) :
    Equal (array xs) (array ys) ↔ List.Forall₂ Equal xs ys := by
  constructor
  · intro h
    cases h with
    | array h => exact h
  · exact .array

/-- Equality of objects in the order in which it is computed: the members of the first are looked up
in the second, and the keys of the second are found in the first. -/
theorem equal_object_iff_found (ms ns : Members) : Equal (object ms) (object ns) ↔
    (∀ key x, (key, x) ∈ ms → ∃ y, ns.lookup key = some y ∧ Equal x y) ∧
      ∀ m ∈ ns, (ms.lookup m.1).isSome = true := by
  constructor
  · intro h
    constructor
    · intro key x hmem
      cases h with
      | object hkeys hvalues =>
          have hkey : key ∈ ns.map Prod.fst := (hkeys key).mp (List.mem_map.mpr ⟨_, hmem, rfl⟩)
          obtain ⟨y, hy⟩ := Option.isSome_iff_exists.mp (OrderedMap.isSome_lookup_iff.mpr hkey)
          exact ⟨y, hy, hvalues key x y hmem hy⟩
    · intro m hmem
      cases h with
      | object hkeys hvalues =>
          exact OrderedMap.isSome_lookup_iff.mpr ((hkeys m.1).mpr (List.mem_map.mpr ⟨m, hmem, rfl⟩))
  · rintro ⟨hfound, hback⟩
    refine .object ?_ ?_
    · intro key
      constructor
      · intro hkey
        obtain ⟨⟨_, x⟩, hmem, rfl⟩ := List.mem_map.mp hkey
        obtain ⟨y, hy, -⟩ := hfound _ x hmem
        exact OrderedMap.isSome_lookup_iff.mp (hy ▸ rfl)
      · intro hkey
        obtain ⟨m, hmem, rfl⟩ := List.mem_map.mp hkey
        exact OrderedMap.isSome_lookup_iff.mp (hback m hmem)
    · intro key x y hmem hy
      obtain ⟨y', hy', hequal⟩ := hfound key x hmem
      cases hy.symm.trans hy'
      exact hequal

theorem foundIn_cons (key : String) (x : Json) (rest ns : Members) :
    foundIn ((key, x) :: rest) ns = true ↔
      (∃ y, ns.lookup key = some y ∧ x.same y = true) ∧ foundIn rest ns = true := by
  rw [foundIn]
  cases ns.lookup key <;> simp

mutual

theorem same_iff_equal : (a b : Json) → (a.same b = true ↔ Equal a b)
  | null, b => by
      cases b with
      | null => exact iff_of_true rfl .null
      | boolean | number | string | array | object => exact iff_of_false nofun nofun
  | boolean v, b => by
      cases b with
      | boolean w => rw [same, beq_iff_eq, equal_boolean_iff]
      | null | number | string | array | object => exact iff_of_false nofun nofun
  | number v, b => by
      cases b with
      | number w => rw [same, equal_number_iff]
      | null | boolean | string | array | object => exact iff_of_false nofun nofun
  | string v, b => by
      cases b with
      | string w => rw [same, beq_iff_eq, equal_string_iff]
      | null | boolean | number | array | object => exact iff_of_false nofun nofun
  | array xs, b => by
      cases b with
      | array ys => rw [same, equal_array_iff, sameItems_iff xs ys]
      | null | boolean | number | string | object => exact iff_of_false nofun nofun
  | object ms, b => by
      cases b with
      | object ns =>
          rw [same, Bool.and_eq_true, foundIn_iff ms ns, List.all_eq_true, equal_object_iff_found]
      | null | boolean | number | string | array => exact iff_of_false nofun nofun

theorem sameItems_iff : (xs ys : List Json) → (sameItems xs ys = true ↔ List.Forall₂ Equal xs ys)
  | [], ys => by cases ys <;> simp [sameItems]
  | x :: xs, [] => by simp [sameItems]
  | x :: xs, y :: ys => by
      rw [sameItems, Bool.and_eq_true, same_iff_equal x y, sameItems_iff xs ys, List.forall₂_cons]

theorem foundIn_iff : (ms ns : Members) → (foundIn ms ns = true ↔
      ∀ key x, (key, x) ∈ ms → ∃ y, ns.lookup key = some y ∧ Equal x y)
  | [], ns => by simp [foundIn]
  | (key, x) :: rest, ns => by
      rw [foundIn_cons, foundIn_iff rest ns]
      simp only [same_iff_equal x]
      simp [or_imp, forall_and]

end

end Json

end BlueprintPackages
