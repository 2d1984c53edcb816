import BlueprintPackages.Proofs.Json.Retyping

/-!
# What is read of a text

A text is read as a value just if its outline is and nothing is left behind it
(`Outline.readText_eq_ok_iff`). An array or object is read item by item, in one more level of
nesting, and must be closed (`Json.ofOutline_array_eq_ok_iff`, `Json.ofOutline_object_eq_ok_iff`).
What can be read can be passed over (`Outline.skim_of_ofOutline`).

A text spells integers from `-2 ^ 63` to `2 ^ 64 - 1`; whatever is beyond that, or has a point or an
exponent, is a double. So every number that is read is one of these (`Json.spellable_of_ofOutline`),
and so are the numbers in a version table that is read from a file
(`VersionTable.spellable_of_ofText`).
-/

namespace BlueprintPackages

/-! ## Texts, arrays and objects -/

theorem Outline.readText_eq_ok_iff {α : Type} {read : Outline → Except Fault α} {text : String}
    {a : α} :
    readText read text = .ok a ↔ read (ofText text).1 = .ok a ∧ (ofText text).2 = false := by
  unfold readText
  generalize ofText text = spelled
  obtain ⟨outline, more⟩ := spelled
  simp only [Fallible.bind_eq_ok_iff]
  cases more with
  | false => simp
  | true => simp

theorem Outline.finish_eq_ok_iff {close : Option Fault} {u : Unit} :
    finish close = .ok u ↔ close = none := by
  cases close with
  | none => exact iff_of_true rfl rfl
  | some fault => exact iff_of_false nofun nofun

namespace Json

variable {room : Nat} {v : Json}

theorem ofOutline_array_eq_ok_iff {items : List Outline} {close : Option Fault} :
    ofOutline room (.array items close) = .ok v ↔
      ∃ inner values, room = inner + 1 ∧ ofItems inner items = .ok values ∧ close = none ∧
        v = array values := by
  cases room with
  | zero => exact iff_of_false nofun fun ⟨_, _, hroom, _⟩ => nomatch hroom
  | succ room =>
      simp only [ofOutline, Fallible.bind_eq_ok_iff, Outline.finish_eq_ok_iff]
      constructor
      · rintro ⟨values, hvalues, -, hclose, hv⟩
        exact ⟨room, values, rfl, hvalues, hclose, (Except.ok.inj hv).symm⟩
      · rintro ⟨inner, values, hroom, hvalues, hclose, rfl⟩
        obtain rfl := Nat.succ.inj hroom
        exact ⟨values, hvalues, (), hclose, rfl⟩

theorem ofOutline_object_eq_ok_iff {members : List (Quoted × Outline)} {close : Option Fault} :
    ofOutline room (.object members close) = .ok v ↔
      ∃ inner pairs, room = inner + 1 ∧ ofPairs inner members = .ok pairs ∧ close = none ∧
        v = object (membersOf pairs) := by
  cases room with
  | zero => exact iff_of_false nofun fun ⟨_, _, hroom, _⟩ => nomatch hroom
  | succ room =>
      simp only [ofOutline, Fallible.bind_eq_ok_iff, Outline.finish_eq_ok_iff]
      constructor
      · rintro ⟨pairs, hpairs, -, hclose, hv⟩
        exact ⟨room, pairs, rfl, hpairs, hclose, (Except.ok.inj hv).symm⟩
      · rintro ⟨inner, pairs, hroom, hpairs, hclose, rfl⟩
        obtain rfl := Nat.succ.inj hroom
        exact ⟨pairs, hpairs, (), hclose, rfl⟩

theorem ofItems_cons_eq_ok_iff {x : Outline} {xs : List Outline} {values : List Json} :
    ofItems room (x :: xs) = .ok values ↔
      ∃ value others, ofOutline room x = .ok value ∧ ofItems room xs = .ok others ∧
        values = value :: others := by
  simp only [ofItems, Fallible.bind_eq_ok_iff]
  constructor
  · rintro ⟨value, hvalue, others, hothers, hvalues⟩
    exact ⟨value, others, hvalue, hothers, (Except.ok.inj hvalues).symm⟩
  · rintro ⟨value, others, hvalue, hothers, rfl⟩
    exact ⟨value, hvalue, others, hothers, rfl⟩

theorem ofPairs_cons_eq_ok_iff {key : Quoted} {x : Outline} {rest : List (Quoted × Outline)}
    {pairs : List (String × Json)} :
    ofPairs room ((key, x) :: rest) = .ok pairs ↔
      ∃ name value others, key.text = .ok name ∧ ofOutline room x = .ok value ∧
        ofPairs room rest = .ok others ∧ pairs = (name, value) :: others := by
  simp only [ofPairs, Fallible.bind_eq_ok_iff]
  constructor
  · rintro ⟨name, hname, value, hvalue, others, hothers, hpairs⟩
    exact ⟨name, value, others, hname, hvalue, hothers, (Except.ok.inj hpairs).symm⟩
  · rintro ⟨name, value, others, hname, hvalue, hothers, rfl⟩
    exact ⟨name, hname, value, hvalue, others, hothers, rfl⟩

/-- What stands in an object that is read is the value of a member of the outline. -/
theorem exists_value_of_ofPairs {members : List (Quoted × Outline)} {pairs : List (String × Json)}
    (h : ofPairs room members = .ok pairs) {pair : String × Json} (hpair : pair ∈ pairs) :
    ∃ m ∈ members, ofOutline room m.2 = .ok pair.2 := by
  induction members generalizing pairs with
  | nil => exact absurd hpair (Except.ok.inj h ▸ List.not_mem_nil)
  | cons m rest ih =>
      obtain ⟨name, value, others, -, hvalue, hothers, rfl⟩ := ofPairs_cons_eq_ok_iff.mp h
      rcases List.mem_cons.mp hpair with rfl | hpair
      · exact ⟨m, List.mem_cons_self, hvalue⟩
      · obtain ⟨m', hm', hread⟩ := ih hothers hpair
        exact ⟨m', List.mem_cons_of_mem m hm', hread⟩

end Json

/-! ## Passing over -/

namespace Outline

mutual

/-- A value that can be read can be passed over: all that is asked of what is passed over is asked
of what is read. -/
theorem skim_of_ofOutline : (o : Outline) → ∀ {room : Nat} {v : Json},
    Json.ofOutline room o = .ok v → o.skim = .ok ()
  | null, _, _, _ => rfl
  | boolean _, _, _, _ => rfl
  | numeral _, _, _, _ => rfl
  | cutNumeral _, _, _, h => nomatch h
  | broken _, _, _, h => nomatch h
  | quoted q, _, _, h => by
      obtain ⟨text, htext, -⟩ := Fallible.map_eq_ok_iff.mp h
      exact Quoted.skim_of_text htext
  | array items close, _, _, h => by
      obtain ⟨inner, values, -, hvalues, rfl, -⟩ := Json.ofOutline_array_eq_ok_iff.mp h
      rw [skim, skimItems_of_ofItems items hvalues]
      rfl
  | object members close, _, _, h => by
      obtain ⟨inner, pairs, -, hpairs, rfl, -⟩ := Json.ofOutline_object_eq_ok_iff.mp h
      rw [skim, skimMembers_of_ofPairs members hpairs]
      rfl

theorem skimItems_of_ofItems : (items : List Outline) → ∀ {room : Nat} {values : List Json},
    Json.ofItems room items = .ok values → skimItems items = .ok ()
  | [], _, _, _ => rfl
  | x :: xs, _, _, h => by
      obtain ⟨value, others, hvalue, hothers, -⟩ := Json.ofItems_cons_eq_ok_iff.mp h
      rw [skimItems, skim_of_ofOutline x hvalue]
      exact skimItems_of_ofItems xs hothers

theorem skimMembers_of_ofPairs : (members : List (Quoted × Outline)) →
    ∀ {room : Nat} {pairs : List (String × Json)},
    Json.ofPairs room members = .ok pairs → skimMembers members = .ok ()
  | [], _, _, _ => rfl
  | (key, x) :: rest, _, _, h => by
      obtain ⟨name, value, others, hname, hvalue, hothers, -⟩ := Json.ofPairs_cons_eq_ok_iff.mp h
      rw [skimMembers, Quoted.skim_of_text hname, skim_of_ofOutline x hvalue]
      exact skimMembers_of_ofPairs rest hothers

end

end Outline

/-! ## Numbers -/

/-- A version is an integer of 64 bits with a sign. -/
def IsVersion (value : Int) : Prop :=
  Int64.minValue.toInt ≤ value ∧ value ≤ Int64.maxValue.toInt

/-- The number is one that some text spells. -/
def Number.Spellable : Number → Prop
  | integer value => Int64.minValue.toInt ≤ value ∧ value < UInt64.size
  | double _ => True

namespace Numeral

theorem absorb_lt {significand : Nat} (h : significand < capacity) (ds : List Nat) :
    (absorb significand ds).1 < capacity := by
  induction ds generalizing significand with
  | nil => exact h
  | cons d ds ih =>
      unfold absorb
      by_cases hfits : significand * 10 + d < capacity
      · rw [if_pos hfits]
        exact ih hfits
      · rw [if_neg hfits]
        exact h

theorem integral_spellable (negative : Bool) {significand : Nat} (h : significand < capacity) :
    (integral negative significand).Spellable := by
  have hcapacity : capacity = UInt64.size := rfl
  have hmin : Int64.minValue.toInt = -2 ^ 63 := rfl
  unfold integral
  cases negative with
  | false =>
      rw [if_neg Bool.false_ne_true]
      show Int64.minValue.toInt ≤ (significand : Int) ∧ (significand : Int) < UInt64.size
      omega
  | true =>
      rw [if_pos rfl]
      by_cases hfits : 0 < significand ∧ Int64.minValue.toInt ≤ -significand
      · rw [if_pos hfits]
        show Int64.minValue.toInt ≤ -(significand : Int) ∧ -(significand : Int) < UInt64.size
        omega
      · rw [if_neg hfits]
        trivial

/-- Whatever a numeral means, a text can spell. -/
theorem value?_spellable {n : Numeral} {x : Number} (h : n.value? = some x) : x.Spellable := by
  have hwhole : (absorb 0 n.whole).1 < capacity := absorb_lt (by decide) n.whole
  simp only [value?] at h
  by_cases hbare : n.fraction.isNone ∧ n.exponent.isNone ∧ (absorb 0 n.whole).2 = 0
  · rw [if_pos hbare] at h
    exact Option.some.inj h ▸ integral_spellable n.negative hwhole
  · rw [if_neg hbare] at h
    obtain ⟨f, -, rfl⟩ := Option.map_eq_some_iff.mp h
    trivial

end Numeral

theorem Outline.number_eq_ok_iff {n : Numeral} {x : Number} :
    number n = .ok x ↔ n.value? = some x := by
  unfold number
  cases n.value? with
  | none => exact iff_of_false nofun nofun
  | some y => simp

/-- Of all outlines only numerals are read as numbers. -/
theorem Json.ofOutline_eq_ok_number_iff {room : Nat} {o : Outline} {x : Number} :
    ofOutline room o = .ok (.number x) ↔ ∃ n, o = .numeral n ∧ n.value? = some x := by
  cases o with
  | numeral n => simp [ofOutline, Fallible.map_eq_ok_iff, Outline.number_eq_ok_iff]
  | quoted q => simp [ofOutline, Fallible.map_eq_ok_iff]
  | array items close => simp [ofOutline_array_eq_ok_iff]
  | object members close => simp [ofOutline_object_eq_ok_iff]
  | null | boolean | cutNumeral | broken => simp [ofOutline]

/-- Of all outlines only quoted texts are read as texts. -/
theorem Json.ofOutline_eq_ok_string_iff {room : Nat} {o : Outline} {s : String} :
    ofOutline room o = .ok (.string s) ↔ ∃ q, o = .quoted q ∧ q.text = .ok s := by
  cases o with
  | numeral n => simp [ofOutline, Fallible.map_eq_ok_iff]
  | quoted q => simp [ofOutline, Fallible.map_eq_ok_iff]
  | array items close => simp [ofOutline_array_eq_ok_iff]
  | object members close => simp [ofOutline_object_eq_ok_iff]
  | null | boolean | cutNumeral | broken => simp [ofOutline]

/-- Of all outlines only the word itself is read as null. -/
theorem Json.ofOutline_eq_ok_null_iff {room : Nat} {o : Outline} :
    ofOutline room o = .ok .null ↔ o = .null := by
  cases o with
  | numeral n => simp [ofOutline, Fallible.map_eq_ok_iff]
  | quoted q => simp [ofOutline, Fallible.map_eq_ok_iff]
  | array items close => simp [ofOutline_array_eq_ok_iff]
  | object members close => simp [ofOutline_object_eq_ok_iff]
  | null | boolean | cutNumeral | broken => simp [ofOutline]

/-- Of all outlines only closed arrays are read as arrays. -/
theorem Json.ofOutline_eq_ok_array_iff {room : Nat} {o : Outline} {values : List Json} :
    ofOutline room o = .ok (.array values) ↔
      ∃ inner items, room = inner + 1 ∧ o = .array items none ∧
        ofItems inner items = .ok values := by
  cases o with
  | numeral n => simp [ofOutline, Fallible.map_eq_ok_iff]
  | quoted q => simp [ofOutline, Fallible.map_eq_ok_iff]
  | array items close =>
      rw [ofOutline_array_eq_ok_iff]
      constructor
      · rintro ⟨inner, values', hroom, hvalues, rfl, heq⟩
        cases heq
        exact ⟨inner, items, hroom, rfl, hvalues⟩
      · rintro ⟨inner, items', hroom, heq, hvalues⟩
        cases heq
        exact ⟨inner, values, hroom, hvalues, rfl, rfl⟩
  | object members close => simp [ofOutline_object_eq_ok_iff]
  | null | boolean | cutNumeral | broken => simp [ofOutline]

theorem Json.spellable_of_ofOutline {room : Nat} {o : Outline} {x : Number}
    (h : ofOutline room o = .ok (.number x)) : x.Spellable := by
  obtain ⟨n, -, hn⟩ := ofOutline_eq_ok_number_iff.mp h
  exact Numeral.value?_spellable hn

/-- The numbers that stand directly under a key of the table are such as a text can spell. -/
def VersionTable.Spellable (table : VersionTable) : Prop :=
  ∀ key x, table.entries.lookup key = some (.number x) → x.Spellable

theorem Json.membersOfText_eq_ok_iff {text : String} {ms : Members} :
    membersOfText text = .ok ms ↔
      ∃ members pairs, Outline.ofText text = (.object members none, false) ∧
        ofPairs (depthLimit - 1) members = .ok pairs ∧ ms = membersOf pairs := by
  unfold membersOfText
  rw [Outline.readText_eq_ok_iff]
  generalize Outline.ofText text = spelled
  obtain ⟨outline, more⟩ := spelled
  cases outline with
  | object members close =>
      simp only [Fallible.bind_eq_ok_iff, Outline.finish_eq_ok_iff]
      constructor
      · rintro ⟨⟨pairs, hpairs, -, rfl, hms⟩, rfl⟩
        exact ⟨members, pairs, rfl, hpairs, (Except.ok.inj hms).symm⟩
      · rintro ⟨members', pairs, heq, hpairs, rfl⟩
        cases heq
        exact ⟨⟨pairs, hpairs, (), rfl, rfl⟩, rfl⟩
  | null | boolean | numeral | cutNumeral | quoted | array | broken => simp

/-- A table that is read from a text has only numbers that the text spells. -/
theorem VersionTable.spellable_of_ofText {context text : String} {table : VersionTable}
    (h : ofText context text = .ok table) : table.Spellable := by
  obtain ⟨entries, hentries, rfl⟩ := Fallible.map_eq_ok_iff.mp h
  obtain ⟨members, pairs, -, hpairs, rfl⟩ := Json.membersOfText_eq_ok_iff.mp hentries
  intro key x hlookup
  have hmem : (key, Json.number x) ∈ pairs := OrderedMap.mem_of_get?_ofList hlookup
  obtain ⟨m, -, hread⟩ := Json.exists_value_of_ofPairs hpairs hmem
  exact Json.spellable_of_ofOutline hread

end BlueprintPackages
