import BlueprintPackages.Metadata
import BlueprintPackages.Proofs.Json.Records

/-!
# Metadata and the values they are read from

Metadata are read from a text in one pass, without the value that the text spells. Here that value
prescribes them (`Json.DescribesMetadata`): they are read just if the value is a record of a name
and details, the details one of a version and dependencies, and every dependency one of an alias and
an address, with a rule for each field. This is said of all texts that can be read as a value and
have no key twice in one object.

So nothing counts but those fields. Values that give the same ones, level by level, describe the
same metadata (`Json.SameMetadata`), whatever other keys they have and in whatever order. White
space is gone before anything is read (`Token.Respaced`).
-/

namespace BlueprintPackages

/-! ## The value of a metadata file -/

namespace Json

def DescribesDependency (v : Json) (d : Dependency) : Prop :=
  ∃ x y, v.Gives "alias" "address" false x y ∧ Optional (fun w s => w = .string s) x d.aliasName ∧
    Optional (fun w s => w = .string s) y d.address

/-- Dependencies may be left out, but are not null. -/
inductive DescribesDependencies : Option Json → List Dependency → Prop
  | absent : DescribesDependencies none []
  | given {items : List Json} {ds : List Dependency}
      (h : List.Forall₂ DescribesDependency items ds) :
      DescribesDependencies (some (.array items)) ds

def DescribesDetails (v : Json) (details : PackageDetails) : Prop :=
  ∃ x y, v.Gives "version" "dependencies" true x y ∧
    Optional (fun w i => w = .number (.integer i) ∧ IsVersion i) x details.version ∧
    DescribesDependencies y details.dependencies

/-- The value is such as a metadata file holds, and these are the metadata in it. -/
def DescribesMetadata (v : Json) (m : Metadata) : Prop :=
  ∃ x y, v.Gives "name" "_meta_" false x y ∧ Optional (fun w s => w = .string s) x m.name ∧
    Optional DescribesDetails y m.details

end Json

/-! ## The readers of metadata -/

theorem Dependency.readsAs : Outline.ReadsAs ofOutline Json.DescribesDependency := by
  rintro room o v hv hdistinct ⟨aliasName, address⟩
  exact Outline.record_bind_eq_ok_iff Outline.readsAs_text.nullable Outline.readsAs_text.nullable
    (by decide) false (fun _ _ => Json.optional_iff) (fun _ _ => Json.optional_iff)
    (fun _ _ _ _ => Dependency.mk.inj) hv hdistinct

theorem Json.describesDependencies_iff {x : Option Json} {ds : List Dependency} :
    DescribesDependencies x ds ↔
      ∃ found, Option.Rel (fun v ds => ∃ items, v = .array items ∧
        List.Forall₂ DescribesDependency items ds) x found ∧ found.getD [] = ds := by
  constructor
  · rintro (_ | h)
    · exact ⟨none, .none, rfl⟩
    · exact ⟨some ds, .some ⟨_, rfl, h⟩, rfl⟩
  · rintro ⟨_, ⟨items, rfl, h⟩ | _, rfl⟩
    · exact .given h
    · exact .absent

theorem PackageDetails.readsAs : Outline.ReadsAs ofOutline Json.DescribesDetails := by
  rintro room o v hv hdistinct ⟨version, dependencies⟩
  exact Outline.record_bind_eq_ok_iff Outline.readsAs_integer.nullable Dependency.readsAs.list
    (by decide) true (fun _ _ => Json.optional_iff) (fun _ _ => Json.describesDependencies_iff)
    (fun _ _ _ _ => PackageDetails.mk.inj) hv hdistinct

theorem Metadata.readsAs : Outline.ReadsAs ofOutline Json.DescribesMetadata := by
  rintro room o v hv hdistinct ⟨name, details⟩
  exact Outline.record_bind_eq_ok_iff Outline.readsAs_text.nullable PackageDetails.readsAs.nullable
    (by decide) false (fun _ _ => Json.optional_iff) (fun _ _ => Json.optional_iff)
    (fun _ _ _ _ => Metadata.mk.inj) hv hdistinct

/-- A metadata file holds the metadata that its value describes. -/
theorem Metadata.ofText_eq_ok_iff {text : String} {v : Json} (hv : Json.ofText text = .ok v)
    (hdistinct : (Outline.ofText text).1.distinctKeys = true) {m : Metadata} :
    ofText text = .ok m ↔ v.DescribesMetadata m := by
  obtain ⟨hvalue, hend⟩ := Outline.readText_eq_ok_iff.mp hv
  rw [ofText, Outline.readText_eq_ok_iff, Metadata.readsAs hvalue hdistinct]
  exact and_iff_left hend

/-! ## Values that describe the same metadata -/

namespace Json

/-- The two values give the same alias and the same address. -/
def SameDependency : Json → Json → Prop :=
  SameFields "alias" "address" false (SameOptional Eq) (SameOptional Eq)

/-- The two values give the same version and, one by one, the same dependencies. -/
def SameDetails : Json → Json → Prop :=
  SameFields "version" "dependencies" true (SameOptional Eq)
    (Option.Rel (SameItems SameDependency))

/-- The two values give the same name and the same details. -/
def SameMetadata : Json → Json → Prop :=
  SameFields "name" "_meta_" false (SameOptional Eq) (SameOptional SameDetails)

theorem SameOptional.iff_of_eq {α : Type} {holds : Json → α → Prop} {x x' : Option Json}
    (h : SameOptional Eq x x') (a : Option α) : Optional holds x a ↔ Optional holds x' a := by
  apply h.iff
  · rintro v _ rfl
    exact Iff.rfl
  · rintro v _ a rfl
    exact Iff.rfl

theorem SameDependency.iff {v v' : Json} (h : SameDependency v v') (d : Dependency) :
    v.DescribesDependency d ↔ v'.DescribesDependency d :=
  SameFields.iff h (fun _ _ a hx => hx.iff_of_eq a) (fun _ _ b hy => hy.iff_of_eq b) _ _

theorem describesDependencies_congr {x x' : Option Json}
    (h : Option.Rel (SameItems SameDependency) x x') (ds : List Dependency) :
    DescribesDependencies x ds ↔ DescribesDependencies x' ds := by
  cases h with
  | none => exact Iff.rfl
  | some hitems =>
      cases hitems with
      | same => exact Iff.rfl
      | @items xs ys hall =>
          have hds : List.Forall₂ DescribesDependency xs ds ↔
              List.Forall₂ DescribesDependency ys ds := by
            induction hall generalizing ds with
            | nil => exact Iff.rfl
            | cons hsame _ ih =>
                simp only [List.forall₂_cons_left_iff, SameDependency.iff hsame, ih]
          constructor
          · rintro (_ | hdescribes)
            exact .given (hds.mp hdescribes)
          · rintro (_ | hdescribes)
            exact .given (hds.mpr hdescribes)

theorem SameDetails.iff {v v' : Json} (h : SameDetails v v') (details : PackageDetails) :
    v.DescribesDetails details ↔ v'.DescribesDetails details :=
  SameFields.iff h (fun _ _ a hx => hx.iff_of_eq a)
    (fun _ _ b hy => describesDependencies_congr hy b) _ _

theorem SameMetadata.iff {v v' : Json} (h : SameMetadata v v') (m : Metadata) :
    v.DescribesMetadata m ↔ v'.DescribesMetadata m :=
  SameFields.iff h (fun _ _ a hx => hx.iff_of_eq a)
    (fun _ _ b hy => hy.iff (fun _ _ hsame => SameFields.null_iff hsame)
      (fun _ _ details hsame => SameDetails.iff hsame details) b) _ _

end Json

/-! ## White space -/

namespace Token

/-- The two texts differ in nothing but the white space between tokens. -/
inductive Respaced : List Char → List Char → Prop
  | nil : Respaced [] []
  | blankLeft {c : Char} {a b : List Char} (hc : isBlank c = true) (h : Respaced a b) :
      Respaced (c :: a) b
  | blankRight {c : Char} {a b : List Char} (hc : isBlank c = true) (h : Respaced a b) :
      Respaced a (c :: b)
  | token {c : Char} {word a b : List Char} {t : Token} (hc : isBlank c = false)
      (ha : next c (word ++ a) = (t, a)) (hb : next c (word ++ b) = (t, b)) (h : Respaced a b) :
      Respaced (c :: (word ++ a)) (c :: (word ++ b))

theorem scanFrom_of_blank {c : Char} (hc : isBlank c = true) (fuel : Nat) (a : List Char) :
    scanFrom (fuel + 1) (c :: a) = scanFrom fuel a := by
  rw [scanFrom, if_pos hc]

theorem scanFrom_of_next {c : Char} {rest a : List Char} {t : Token} (hc : isBlank c = false)
    (h : next c rest = (t, a)) (fuel : Nat) :
    scanFrom (fuel + 1) (c :: rest) = t :: scanFrom fuel a := by
  rw [scanFrom, if_neg (Bool.eq_false_iff.mp hc), h]

/-- Enough fuel is one step for every character. -/
theorem Respaced.scanFrom_eq {a b : List Char} (h : Respaced a b) {fuel fuel' : Nat}
    (ha : a.length ≤ fuel) (hb : b.length ≤ fuel') : scanFrom fuel a = scanFrom fuel' b := by
  induction h generalizing fuel fuel' with
  | nil => cases fuel <;> cases fuel' <;> rfl
  | blankLeft hc _ ih =>
      obtain ⟨fuel, rfl⟩ := Nat.exists_eq_add_of_lt (Nat.lt_of_lt_of_le (Nat.succ_pos _) ha)
      rw [Nat.zero_add, scanFrom_of_blank hc]
      exact ih (by simpa using ha) hb
  | blankRight hc _ ih =>
      obtain ⟨fuel', rfl⟩ := Nat.exists_eq_add_of_lt (Nat.lt_of_lt_of_le (Nat.succ_pos _) hb)
      rw [Nat.zero_add, scanFrom_of_blank hc]
      exact ih ha (by simpa using hb)
  | token hc hnext hnext' _ ih =>
      obtain ⟨fuel, rfl⟩ := Nat.exists_eq_add_of_lt (Nat.lt_of_lt_of_le (Nat.succ_pos _) ha)
      obtain ⟨fuel', rfl⟩ := Nat.exists_eq_add_of_lt (Nat.lt_of_lt_of_le (Nat.succ_pos _) hb)
      rw [List.length_cons, List.length_append] at ha hb
      have hrest := @ih fuel fuel' (by omega) (by omega)
      rw [Nat.zero_add, Nat.zero_add, scanFrom_of_next hc hnext, scanFrom_of_next hc hnext', hrest]

theorem Respaced.scan_eq {text text' : String} (h : Respaced text.toList text'.toList) :
    scan text = scan text' :=
  h.scanFrom_eq (Nat.le_refl _) (Nat.le_refl _)

end Token

/-- White space is no part of what a text spells. -/
theorem Outline.readText_eq_of_respaced {α : Type} (read : Outline → Except Fault α)
    {text text' : String} (h : Token.Respaced text.toList text'.toList) :
    readText read text = readText read text' := by
  rw [readText, readText, ofText, ofText, h.scan_eq]

namespace Metadata

/-- Metadata are decoded as the value of their text prescribes, in one pass as by way of the value.
A text that spells a value and has no key twice in an object is decoded just if the value is a
record of a name and details as described, and to what the value describes. Two such texts are
decoded alike if their values give the same name, the same version and the same dependencies. This
leaves open the order of the members and all members under other keys, on each of the three levels.
White space between tokens makes no difference to any text. -/
theorem decoded_as_value :
    (∀ text v, Json.ofText text = .ok v → (Outline.ofText text).1.distinctKeys = true →
      ((∃ m, ofText text = .ok m) ↔ ∃ m, v.DescribesMetadata m) ∧
      ∀ m, ofText text = .ok m ↔ v.DescribesMetadata m) ∧
    (∀ text text' v v', Json.ofText text = .ok v → Json.ofText text' = .ok v' →
      (Outline.ofText text).1.distinctKeys = true →
      (Outline.ofText text').1.distinctKeys = true → v.SameMetadata v' →
      ∀ m, ofText text = .ok m ↔ ofText text' = .ok m) ∧
    (∀ v v' : Json, (v.Rearranged "name" "_meta_" v' → v.SameMetadata v') ∧
      (v.Rearranged "version" "dependencies" v' → v.SameDetails v') ∧
      (v.Rearranged "alias" "address" v' → v.SameDependency v')) ∧
    ∀ text text' : String, Token.Respaced text.toList text'.toList →
      ofText text = ofText text' := by
  refine ⟨?_, ?_, ?_, ?_⟩
  · intro text v hv hdistinct
    have hdecoded : ∀ m, ofText text = .ok m ↔ v.DescribesMetadata m :=
      fun m => ofText_eq_ok_iff hv hdistinct
    exact ⟨exists_congr hdecoded, hdecoded⟩
  · intro text text' v v' hv hv' hdistinct hdistinct' hsame m
    rw [ofText_eq_ok_iff hv hdistinct, ofText_eq_ok_iff hv' hdistinct', hsame.iff]
  · intro v v'
    refine ⟨?_, ?_, ?_⟩
    · exact fun h => h.sameFields (.refl Eq.refl) (.refl .same)
    · intro h
      refine h.sameFields (.refl Eq.refl) ?_
      rintro (_ | w)
      · exact .none
      · exact .some (.same w)
    · exact fun h => h.sameFields (.refl Eq.refl) (.refl Eq.refl)
  · intro text text' hrespaced
    exact Outline.readText_eq_of_respaced ofOutline hrespaced

/-- Details and a dependency in the short notation, and a key that means nothing. -/
def fleetText : String :=
  "\x7b\"_meta_\": [4, [[null, null], \x7b\"address\": \"b\", \"x\": [], \"alias\": \"a\"\x7d]]\x7d"

/-- The same in objects, with the fields in another order. -/
def fleetLongText : String :=
  "\x7b\"_meta_\":\x7b\"dependencies\":[\x7b\x7d,[\"a\",\"b\"]],\"version\":4\x7d\x7d"

def fleetTokens : List Token :=
  [.openObject, .quoted (.plain "_meta_"), .colon, .openArray, .numeral ⟨false, [4], none, none⟩,
    .comma, .openArray, .openArray, .null, .comma, .null, .closeArray, .comma, .openObject,
    .quoted (.plain "address"), .colon, .quoted (.plain "b"), .comma, .quoted (.plain "x"), .colon,
    .openArray, .closeArray, .comma, .quoted (.plain "alias"), .colon, .quoted (.plain "a"),
    .closeObject, .closeArray, .closeArray, .closeObject]

def fleetLongTokens : List Token :=
  [.openObject, .quoted (.plain "_meta_"), .colon, .openObject, .quoted (.plain "dependencies"),
    .colon, .openArray, .openObject, .closeObject, .comma, .openArray, .quoted (.plain "a"), .comma,
    .quoted (.plain "b"), .closeArray, .closeArray, .comma, .quoted (.plain "version"), .colon,
    .numeral ⟨false, [4], none, none⟩, .closeObject, .closeObject]

def fleetValue : Json :=
  .object
    [("_meta_", .array [.number (.integer 4), .array [.array [.null, .null],
      .object [("address", .string "b"), ("x", .array []), ("alias", .string "a")]]])]

def fleetLongValue : Json :=
  .object [("_meta_", .object
    [("dependencies", .array [.object [], .array [.string "a", .string "b"]]),
      ("version", .number (.integer 4))])]

def fleet : Metadata where
  name := none
  details := some { version := some 4, dependencies := [⟨none, none⟩, ⟨some "a", some "b"⟩] }

/-- Two notations of the same metadata, and a blank between brackets. -/
theorem decoded_as_value_fleet :
    Json.ofText fleetText = .ok fleetValue ∧ fleetValue.DescribesMetadata fleet ∧
      fleetValue.SameMetadata fleetLongValue ∧ ofText fleetText = .ok fleet ∧
      ofText fleetLongText = .ok fleet ∧ ofText "\x7b \x7d" = ofText "\x7b\x7d" := by
  have htokens : Token.scan fleetText = fleetTokens := by decide +kernel
  have hlongTokens : Token.scan fleetLongText = fleetLongTokens := by decide +kernel
  have hvalue : Json.ofText fleetText = .ok fleetValue := by
    rw [Json.ofText, Outline.readText, Outline.ofText, htokens]
    rfl
  have hlong : Json.ofText fleetLongText = .ok fleetLongValue := by
    rw [Json.ofText, Outline.readText, Outline.ofText, hlongTokens]
    rfl
  have hdistinct : (Outline.ofText fleetText).1.distinctKeys = true := by decide +kernel
  have hdistinctLong : (Outline.ofText fleetLongText).1.distinctKeys = true := by decide +kernel
  have hfirst : (Json.array [.null, .null]).DescribesDependency ⟨none, none⟩ :=
    ⟨_, _, .pair _ _, .null, .null⟩
  have hsecond : (Json.object [("address", .string "b"), ("x", .array []),
      ("alias", .string "a")]).DescribesDependency ⟨some "a", some "b"⟩ :=
    ⟨_, _, .object _, .given (by simp) rfl, .given (by simp) rfl⟩
  have hdescribes : fleetValue.DescribesMetadata fleet :=
    ⟨_, _, .object _, .absent, .given (by simp)
      ⟨_, _, .pair _ _, .given (by simp) ⟨rfl, by decide, by decide⟩,
        .given (.cons hfirst (.cons hsecond .nil))⟩⟩
  have hsame : fleetValue.SameMetadata fleetLongValue := by
    refine .fields (.object _) (.object _) (.missing (.inl rfl) (.inl rfl)) (.given ?_)
    refine .fields (.pair _ _) (.object _) (.given rfl) (.some (.items (.cons ?_ (.cons ?_ .nil))))
    · exact .fields (.pair _ _) (.object _) (.missing (.inr rfl) (.inl rfl))
        (.missing (.inr rfl) (.inl rfl))
    · exact .fields (.object _) (.pair _ _) (.given rfl) (.given rfl)
  have hrespaced : Token.Respaced "\x7b \x7d".toList "\x7b\x7d".toList := by
    have hclose : Token.Respaced [' ', '\x7d'] ['\x7d'] :=
      .blankLeft rfl (@Token.Respaced.token '\x7d' [] [] [] .closeObject rfl rfl rfl .nil)
    exact @Token.Respaced.token '\x7b' [] _ _ .openObject rfl rfl rfl hclose
  obtain ⟨hdecoded, halike, -, hspaces⟩ := decoded_as_value
  have hfleet := ((hdecoded _ _ hvalue hdistinct).2 fleet).mpr hdescribes
  exact ⟨hvalue, hdescribes, hsame, hfleet,
    (halike _ _ _ _ hvalue hlong hdistinct hdistinctLong hsame fleet).mp hfleet,
    hspaces _ _ hrespaced⟩

end Metadata

end BlueprintPackages
