import BlueprintPackages.Proofs.Json.Values

/-!
# Records and the values they are read from

A reader of outlines works in one pass: it passes over what it does not know, and never forms the
value that the text spells. Here its result is told by that value (`Outline.ReadsAs`), for every
outline that can be read as a value and has no key twice in one object.

A record of two fields is read just if the value gives its fields, in one of the two notations, and
each field is such as its reader asks for (`Outline.record_eq_ok_iff`). The reader goes through the
members once and remembers what it has found, so the induction on the members is for any two fields
found so far (`Outline.Slot`).

Values that give the same fields are read to the same record, whatever else they hold and in
whatever order (`Json.SameFields`).
-/

namespace BlueprintPackages

/-! ## Keys that come only once -/

namespace Outline

mutual

/-- No object in the outline has a key twice. -/
def distinctKeys : Outline → Bool
  | array items _ => distinctKeysItems items
  | object members _ =>
    decide (members.map fun m => m.1.text).Nodup && distinctKeysMembers members
  | _ => true
termination_by structural o => o

def distinctKeysItems : List Outline → Bool
  | [] => true
  | x :: xs => distinctKeys x && distinctKeysItems xs
termination_by structural xs => xs

def distinctKeysMembers : List (Quoted × Outline) → Bool
  | [] => true
  | (_, x) :: rest => distinctKeys x && distinctKeysMembers rest
termination_by structural ms => ms

end

theorem distinctKeysItems_iff {items : List Outline} :
    distinctKeysItems items = true ↔ ∀ x ∈ items, x.distinctKeys = true := by
  induction items with
  | nil => simp [distinctKeysItems]
  | cons x xs ih => simp [distinctKeysItems, ih]

end Outline

/-! ## Values that give two fields -/

namespace Json

variable {α β : Type} {first second : String} {short : Bool}

/-- A field that may be left out or be null. -/
inductive Optional (holds : Json → α → Prop) : Option Json → Option α → Prop
  | absent : Optional holds none none
  | null : Optional holds (some .null) none
  | given {v : Json} {a : α} (hv : v ≠ .null) (h : holds v a) : Optional holds (some v) (some a)

/-- The value gives two fields, as an object or as an array of them in order; `short` says whether
the array may leave out the second. -/
inductive Gives (first second : String) (short : Bool) : Json → Option Json → Option Json → Prop
  | object (ms : Members) :
      Gives first second short (.object ms) (ms.lookup first) (ms.lookup second)
  | pair (x y : Json) : Gives first second short (.array [x, y]) (some x) (some y)
  | single (x : Json) (h : short = true) : Gives first second short (.array [x]) (some x) none

theorem Gives.unique {v : Json} {x y x' y' : Option Json} (h : v.Gives first second short x y)
    (h' : v.Gives first second short x' y') : x = x' ∧ y = y' := by
  cases h with
  | object ms => cases h' with | object => exact ⟨rfl, rfl⟩
  | pair x y => cases h' with | pair => exact ⟨rfl, rfl⟩
  | single x => cases h' with | single => exact ⟨rfl, rfl⟩

theorem Gives.ne_null {v : Json} {x y : Option Json} (h : v.Gives first second short x y) :
    v ≠ .null := by
  cases h <;> exact nofun

theorem optional_iff {holds : Json → α → Prop} {x : Option Json} {a : Option α} :
    Optional holds x a ↔
      ∃ found, Option.Rel (fun v => Optional holds (some v)) x found ∧ found.join = a := by
  cases x with
  | none =>
      constructor
      · rintro ⟨⟩
        exact ⟨none, .none, rfl⟩
      · rintro ⟨_, ⟨⟩, rfl⟩
        exact .absent
  | some v =>
      constructor
      · exact fun h => ⟨some a, .some h, rfl⟩
      · rintro ⟨_, ⟨h⟩, rfl⟩
        exact h

/-! ## Values that give the same fields -/

/-- The two values give fields that are related, or are the same to begin with. -/
inductive SameFields (first second : String) (short : Bool)
    (R S : Option Json → Option Json → Prop) : Json → Json → Prop
  | same (v : Json) : SameFields first second short R S v v
  | fields {v v' : Json} {x y x' y' : Option Json} (h : v.Gives first second short x y)
      (h' : v'.Gives first second short x' y') (hx : R x x') (hy : S y y') :
      SameFields first second short R S v v'

/-- Both fields are left out or null, or both have values that are related. -/
inductive SameOptional (R : Json → Json → Prop) : Option Json → Option Json → Prop
  | missing {x x' : Option Json} (h : x = none ∨ x = some .null)
      (h' : x' = none ∨ x' = some .null) : SameOptional R x x'
  | given {v v' : Json} (h : R v v') : SameOptional R (some v) (some v')

/-- The two values are arrays with items that are related, or are the same to begin with. -/
inductive SameItems (R : Json → Json → Prop) : Json → Json → Prop
  | same (v : Json) : SameItems R v v
  | items {xs ys : List Json} (h : List.Forall₂ R xs ys) : SameItems R (.array xs) (.array ys)

/-- What is said of the fields of one is true of the fields of the other. -/
theorem SameFields.iff {R S : Option Json → Option Json → Prop} {F : Option Json → α → Prop}
    {G : Option Json → β → Prop} {v v' : Json} (h : SameFields first second short R S v v')
    (hF : ∀ x x' a, R x x' → (F x a ↔ F x' a)) (hG : ∀ y y' b, S y y' → (G y b ↔ G y' b))
    (a : α) (b : β) :
    (∃ x y, v.Gives first second short x y ∧ F x a ∧ G y b) ↔
      ∃ x y, v'.Gives first second short x y ∧ F x a ∧ G y b := by
  cases h with
  | same => exact Iff.rfl
  | fields h h' hx hy =>
      constructor
      · rintro ⟨_, _, hgives, ha, hb⟩
        obtain ⟨rfl, rfl⟩ := h.unique hgives
        exact ⟨_, _, h', (hF _ _ a hx).mp ha, (hG _ _ b hy).mp hb⟩
      · rintro ⟨_, _, hgives, ha, hb⟩
        obtain ⟨rfl, rfl⟩ := h'.unique hgives
        exact ⟨_, _, h, (hF _ _ a hx).mpr ha, (hG _ _ b hy).mpr hb⟩

theorem SameFields.null_iff {R S : Option Json → Option Json → Prop} {v v' : Json}
    (h : SameFields first second short R S v v') : v = .null ↔ v' = .null := by
  cases h with
  | same => exact Iff.rfl
  | fields h h' => exact iff_of_false h.ne_null h'.ne_null

theorem optional_iff_of_missing {holds : Json → α → Prop} {x : Option Json} {a : Option α}
    (h : x = none ∨ x = some .null) : Optional holds x a ↔ a = none := by
  constructor
  · rintro (_ | _ | ⟨hv, -⟩)
    · rfl
    · rfl
    · simp [hv] at h
  · rintro rfl
    rcases h with rfl | rfl
    · exact .absent
    · exact .null

theorem optional_iff_of_ne_null {holds : Json → α → Prop} {v : Json} {a : Option α}
    (h : v ≠ .null) : Optional holds (some v) a ↔ ∃ found, holds v found ∧ a = some found := by
  constructor
  · rintro (_ | _ | ⟨-, hfound⟩)
    · exact absurd rfl h
    · exact ⟨_, hfound, rfl⟩
  · rintro ⟨found, hfound, rfl⟩
    exact .given h hfound

theorem SameOptional.iff {R : Json → Json → Prop} {holds : Json → α → Prop}
    (hnull : ∀ v v', R v v' → (v = .null ↔ v' = .null))
    (hholds : ∀ v v' a, R v v' → (holds v a ↔ holds v' a)) {x x' : Option Json}
    (h : SameOptional R x x') (a : Option α) : Optional holds x a ↔ Optional holds x' a := by
  cases h with
  | missing h h' => rw [optional_iff_of_missing h, optional_iff_of_missing h']
  | @given v v' hv =>
      by_cases hv0 : v = .null
      · have hv0' := (hnull v v' hv).mp hv0
        rw [hv0, hv0']
      · have hv0' : v' ≠ .null := mt (hnull v v' hv).mpr hv0
        rw [optional_iff_of_ne_null hv0, optional_iff_of_ne_null hv0']
        simp only [hholds v v' _ hv]

/-- The two objects have the same members under the two keys, in any order and among any others. -/
inductive Rearranged (first second : String) : Json → Json → Prop
  | object {ms ns : Members} (hms : (ms.map Prod.fst).Nodup) (hns : (ns.map Prod.fst).Nodup)
      (h : (ms.filter fun m => m.1 = first ∨ m.1 = second).Perm
        (ns.filter fun m => m.1 = first ∨ m.1 = second)) :
      Rearranged first second (.object ms) (.object ns)

/-- Neither the order of the members nor a member under another key counts. -/
theorem Rearranged.sameFields {R S : Option Json → Option Json → Prop} (hR : ∀ x, R x x)
    (hS : ∀ y, S y y) {v v' : Json} (h : Rearranged first second v v') :
    SameFields first second short R S v v' := by
  obtain @⟨ms, ns, hms, hns, hperm⟩ := h
  have hknown : ∀ key, key = first ∨ key = second → ms.lookup key = ns.lookup key := by
    intro key hkey
    refine Option.ext fun value => ?_
    rw [OrderedMap.lookup_eq_some_iff_mem hms, OrderedMap.lookup_eq_some_iff_mem hns]
    have hmem := hperm.mem_iff (a := (key, value))
    simpa [List.mem_filter, hkey] using hmem
  refine .fields (.object ms) (.object ns) ?_ ?_
  · rw [hknown first (.inl rfl)]
    exact hR _
  · rw [hknown second (.inr rfl)]
    exact hS _

theorem SameOptional.refl {R : Json → Json → Prop} (hR : ∀ v, R v v) (x : Option Json) :
    SameOptional R x x := by
  cases x with
  | none => exact .missing (.inl rfl) (.inl rfl)
  | some v => exact .given (hR v)

/-! ## Members of an object without repetition -/

/-- Keys that are spelled differently are different. -/
theorem nodup_of_ofPairs {room : Nat} {members : List (Quoted × Outline)}
    {pairs : List (String × Json)} (hpairs : ofPairs room members = .ok pairs)
    (h : (members.map fun m => m.1.text).Nodup) : (pairs.map Prod.fst).Nodup := by
  have htexts : members.map (fun m => m.1.text) = (pairs.map Prod.fst).map Except.ok := by
    -- `h` speaks of all members, so it must not go into the induction
    clear h
    induction members generalizing pairs with
    | nil => rw [← Except.ok.inj hpairs]; rfl
    | cons m rest ih =>
        obtain ⟨name, value, others, hname, -, hothers, rfl⟩ := ofPairs_cons_eq_ok_iff.mp hpairs
        rw [List.map_cons, List.map_cons, List.map_cons, hname, ih hothers]
  rw [htexts] at h
  exact List.Pairwise.of_map Except.ok (fun _ _ hne heq => hne (congrArg Except.ok heq)) h

theorem lookup_membersOf_of_nodup {pairs : List (String × Json)} (h : (pairs.map Prod.fst).Nodup)
    (key : String) : (membersOf pairs).lookup key = pairs.lookup key := by
  show (OrderedMap.ofList pairs).get? key = pairs.lookup key
  rw [OrderedMap.get?_ofList, OrderedMap.lookup_eq_of_perm pairs.reverse_perm h]

end Json

/-! ## Readers that go by the value -/

namespace Outline

variable {α β : Type} {P : Json → α → Prop} {Q : Json → β → Prop}

/-- On what is read as a value, the reader succeeds just when the value is such as it asks for. -/
def ReadsAs (read : Outline → Except Fault α) (holds : Json → α → Prop) : Prop :=
  ∀ {room : Nat} {o : Outline} {v : Json}, Json.ofOutline room o = .ok v →
    o.distinctKeys = true → ∀ a, read o = .ok a ↔ holds v a

theorem text_eq_ok_iff {o : Outline} {s : String} :
    text o = .ok s ↔ ∃ q, o = .quoted q ∧ q.text = .ok s := by
  cases o <;> simp [text]

theorem readsAs_text : ReadsAs text fun v s => v = .string s := by
  intro room o v hv _ s
  have hstring : Json.ofOutline room o = .ok (.string s) ↔ _ := Json.ofOutline_eq_ok_string_iff
  rw [text_eq_ok_iff, ← hstring, hv, Except.ok.injEq]

theorem integer_eq_ok_iff {o : Outline} {i : Int} :
    integer o = .ok i ↔
      ∃ n, o = .numeral n ∧ n.value? = some (.integer i) ∧ i ≤ Int64.maxValue.toInt := by
  cases o with
  | numeral n =>
      simp only [integer, Fallible.bind_eq_ok_iff, number_eq_ok_iff, numeral.injEq, exists_eq_left']
      constructor
      · rintro ⟨x, hx, hread⟩
        cases x with
        | double bits => exact nomatch hread
        | integer value =>
            by_cases hmax : value ≤ Int64.maxValue.toInt
            · obtain rfl := Except.ok.inj ((if_pos hmax).symm.trans hread)
              exact ⟨hx, hmax⟩
            · exact nomatch (if_neg hmax).symm.trans hread
      · rintro ⟨hx, hmax⟩
        exact ⟨_, hx, if_pos hmax⟩
  | _ => simp [integer]

theorem readsAs_integer : ReadsAs integer fun v i => v = .number (.integer i) ∧ IsVersion i := by
  intro room o v hv _ i
  rw [integer_eq_ok_iff]
  constructor
  · rintro ⟨n, rfl, hn, hmax⟩
    have hi : Json.ofOutline room (.numeral n) = .ok (.number (.integer i)) :=
      Json.ofOutline_eq_ok_number_iff.mpr ⟨n, rfl, hn⟩
    exact ⟨Except.ok.inj (hv.symm.trans hi), (Json.spellable_of_ofOutline hi).1, hmax⟩
  · rintro ⟨rfl, -, hmax⟩
    obtain ⟨n, rfl, hn⟩ := Json.ofOutline_eq_ok_number_iff.mp hv
    exact ⟨n, rfl, hn, hmax⟩

theorem ReadsAs.nullable {read : Outline → Except Fault α} (h : ReadsAs read P) :
    ReadsAs (nullable read) fun v => Json.Optional P (some v) := by
  intro room o v hv hdistinct a
  -- a null is taken by `nullable` itself, and the reader sees all else
  by_cases hnull : o = null
  · subst hnull
    obtain rfl := Except.ok.inj hv
    show Except.ok none = .ok a ↔ Json.Optional P (some .null) a
    rw [Json.optional_iff_of_missing (.inr rfl), Except.ok.injEq, eq_comm]
  · have hne : v ≠ .null := by
      rintro rfl
      exact hnull (Json.ofOutline_eq_ok_null_iff.mp hv)
    have hread : Outline.nullable read o = (read o).map some := by
      unfold Outline.nullable
      split
      · exact absurd rfl hnull
      · rfl
    simp only [hread, Fallible.map_eq_ok_iff, Json.optional_iff_of_ne_null hne, h hv hdistinct,
      Eq.comm (a := a)]

/-- Items are read one by one. -/
theorem ReadsAs.readAll_eq_ok_iff {read : Outline → Except Fault α} (h : ReadsAs read P)
    {room : Nat} {items : List Outline} {values : List Json}
    (hvalues : Json.ofItems room items = .ok values)
    (hdistinct : ∀ x ∈ items, x.distinctKeys = true) (as : List α) :
    readAll read items = .ok as ↔ List.Forall₂ P values as := by
  induction items generalizing values as with
  | nil =>
      obtain rfl := Except.ok.inj hvalues
      rw [List.forall₂_nil_left_iff]
      exact ⟨fun hread => (Except.ok.inj hread).symm, fun hnil => hnil ▸ rfl⟩
  | cons x xs ih =>
      obtain ⟨v, vs, hv, hvs, rfl⟩ := Json.ofItems_cons_eq_ok_iff.mp hvalues
      rw [List.forall_mem_cons] at hdistinct
      rw [List.forall₂_cons_left_iff]
      simp only [readAll, Fallible.bind_eq_ok_iff, h hv hdistinct.1, ih hvs hdistinct.2]
      constructor
      · rintro ⟨a, ha, others, hothers, heq⟩
        exact ⟨a, others, ha, hothers, (Except.ok.inj heq).symm⟩
      · rintro ⟨a, others, ha, hothers, rfl⟩
        exact ⟨a, ha, others, hothers, rfl⟩

theorem list_eq_ok_iff {read : Outline → Except Fault α} {o : Outline} {as : List α} :
    list read o = .ok as ↔ ∃ items, o = .array items none ∧ readAll read items = .ok as := by
  cases o with
  | array items close =>
      simp only [list, Fallible.bind_eq_ok_iff, finish_eq_ok_iff, array.injEq]
      constructor
      · rintro ⟨as', has', -, rfl, heq⟩
        exact ⟨items, ⟨rfl, rfl⟩, Except.ok.inj heq ▸ has'⟩
      · rintro ⟨_, ⟨rfl, rfl⟩, has⟩
        exact ⟨as, has, (), rfl, rfl⟩
  | _ => simp [list]

theorem ReadsAs.list {read : Outline → Except Fault α} (h : ReadsAs read P) :
    ReadsAs (list read) fun v as => ∃ items, v = .array items ∧ List.Forall₂ P items as := by
  intro room o v hv hdistinct as
  rw [list_eq_ok_iff]
  constructor
  · rintro ⟨items, rfl, has⟩
    obtain ⟨inner, values, -, hvalues, -, rfl⟩ := Json.ofOutline_array_eq_ok_iff.mp hv
    have hall := h.readAll_eq_ok_iff hvalues (distinctKeysItems_iff.mp hdistinct) as
    exact ⟨values, rfl, hall.mp has⟩
  · rintro ⟨values, rfl, has⟩
    obtain ⟨inner, items, -, rfl, hvalues⟩ := Json.ofOutline_eq_ok_array_iff.mp hv
    have hall := h.readAll_eq_ok_iff hvalues (distinctKeysItems_iff.mp hdistinct) as
    exact ⟨items, rfl, hall.mpr has⟩

/-! ## Records -/

/-- What a field comes to, given the member under its key in what is left of an object and what has
been found so far. -/
inductive Slot (P : Json → α → Prop) : Option Json → Option α → Option α → Prop
  | kept (a : Option α) : Slot P none a a
  | filled {v : Json} {a : α} (h : P v a) : Slot P (some v) none (some a)

theorem slot_of_empty_iff {x : Option Json} {a : Option α} :
    Slot P x none a ↔ Option.Rel P x a := by
  constructor
  · rintro (_ | h)
    · exact .none
    · exact .some h
  · rintro (h | _)
    · exact .filled h
    · exact .kept none

theorem slot_of_absent_iff {a a' : Option α} : Slot P none a a' ↔ a' = a := by
  constructor
  · rintro ⟨⟩
    rfl
  · rintro rfl
    exact .kept a'

theorem slot_of_present_iff {v : Json} {a' : Option α} :
    Slot P (some v) none a' ↔ ∃ a, P v a ∧ a' = some a := by
  constructor
  · rintro (_ | h)
    exact ⟨_, h, rfl⟩
  · rintro ⟨a, h, rfl⟩
    exact .filled h

/-- A member under the key of a field that is still wanted fills its slot, one under any other key
leaves both as they are. -/
theorem recordMembers_eq_ok_iff {first : Field α} {second : Field β}
    (hfirst : ReadsAs first.read P) (hsecond : ReadsAs second.read Q)
    (hkeys : first.key ≠ second.key) {room : Nat} {members : List (Quoted × Outline)}
    {pairs : List (String × Json)} (hpairs : Json.ofPairs room members = .ok pairs)
    (hnodup : (pairs.map Prod.fst).Nodup) (hdistinct : distinctKeysMembers members = true)
    {a a' : Option α} {b b' : Option β} (ha : a.isSome → pairs.lookup first.key = none)
    (hb : b.isSome → pairs.lookup second.key = none) :
    recordMembers first second a b members = .ok (a', b') ↔
      Slot P (pairs.lookup first.key) a a' ∧ Slot Q (pairs.lookup second.key) b b' := by
  -- a field that was found has no member left under its key: `ha` and `hb` carry the induction
  induction members generalizing pairs a b with
  | nil =>
      obtain rfl := Except.ok.inj hpairs
      simp [recordMembers, slot_of_absent_iff, eq_comm]
  | cons m rest ih =>
      obtain ⟨key, x⟩ := m
      obtain ⟨name, value, others, hname, hvalue, hothers, rfl⟩ :=
        Json.ofPairs_cons_eq_ok_iff.mp hpairs
      obtain ⟨hx, hrest⟩ := Bool.and_eq_true_iff.mp hdistinct
      obtain ⟨hnew, hnodup⟩ := List.nodup_cons.mp hnodup
      have hgone : others.lookup name = none :=
        Option.not_isSome_iff_eq_none.mp fun h => hnew (OrderedMap.isSome_lookup_iff.mp h)
      have ih := @ih others hothers hnodup hrest
      rw [OrderedMap.lookup_cons_ite] at ha hb
      rw [OrderedMap.lookup_cons_ite, OrderedMap.lookup_cons_ite, recordMembers, hname]
      show (if name = first.key then _ else _) = _ ↔ _
      by_cases hone : first.key = name
      · subst hone
        rw [if_pos rfl] at ha
        rw [if_neg (Ne.symm hkeys)] at hb
        rw [if_pos rfl, if_pos rfl, if_neg (Ne.symm hkeys)]
        obtain rfl : a = none := by simpa using ha
        rw [slot_of_present_iff]
        show (first.read x >>= fun found => recordMembers first second (some found) b rest) = _ ↔ _
        simp only [Fallible.bind_eq_ok_iff, hfirst hvalue hx, ih (fun _ => hgone) hb, hgone,
          slot_of_absent_iff, ← and_assoc, exists_and_right]
      -- a member under neither key is passed over, which is no fault in what was read as a value
      · rw [if_neg hone] at ha
        rw [if_neg (Ne.symm hone), if_neg hone]
        by_cases htwo : second.key = name
        · subst htwo
          rw [if_pos rfl] at hb
          rw [if_pos rfl, if_pos rfl]
          obtain rfl : b = none := by simpa using hb
          rw [slot_of_present_iff]
          show (second.read x >>= fun found => recordMembers first second a (some found) rest) =
            _ ↔ _
          simp only [Fallible.bind_eq_ok_iff, hsecond hvalue hx, ih ha (fun _ => hgone), hgone,
            slot_of_absent_iff]
          constructor
          · rintro ⟨found, hfound, hslot, rfl⟩
            exact ⟨hslot, found, hfound, rfl⟩
          · rintro ⟨hslot, found, hfound, rfl⟩
            exact ⟨found, hfound, hslot, rfl⟩
        · rw [if_neg htwo] at hb
          rw [if_neg (Ne.symm htwo), if_neg htwo, skim_of_ofOutline x hvalue]
          exact ih ha hb

/-- Three items are too many, and one is enough only if the second field may be left out. -/
theorem recordItems_eq_ok_iff {first : Field α} {second : Field β}
    (hfirst : ReadsAs first.read P) (hsecond : ReadsAs second.read Q) (short : Bool) {room : Nat}
    {items : List Outline} {values : List Json} (hvalues : Json.ofItems room items = .ok values)
    (hdistinct : ∀ x ∈ items, x.distinctKeys = true) {a : Option α} {b : Option β} :
    recordItems first second short none items = .ok (a, b) ↔
      ∃ x y, (Json.array values).Gives first.key second.key short x y ∧ Option.Rel P x a ∧
        Option.Rel Q y b := by
  -- what an array gives is fixed by its length alone
  match items with
  | [] =>
      obtain rfl := Except.ok.inj hvalues
      exact iff_of_false nofun fun ⟨_, _, hgives, _⟩ => nomatch hgives
  | [x] =>
      obtain ⟨v, _, hv, hnil, rfl⟩ := Json.ofItems_cons_eq_ok_iff.mp hvalues
      obtain rfl := Except.ok.inj hnil
      have hread := hfirst hv (hdistinct x List.mem_cons_self)
      simp only [recordItems, Fallible.bind_eq_ok_iff, hread]
      cases short with
      | false =>
          refine iff_of_false ?_ fun ⟨_, _, hgives, _⟩ => nomatch hgives
          rintro ⟨_, -, hmissing⟩
          exact nomatch hmissing
      | true =>
          constructor
          · rintro ⟨found, hfound, heq⟩
            obtain ⟨rfl, rfl⟩ := Prod.mk.inj (Except.ok.inj heq)
            exact ⟨_, _, .single v rfl, .some hfound, .none⟩
          · rintro ⟨_, _, hgives, hx, hy⟩
            cases hgives with
            | single =>
                cases hx with
                | some hfound =>
                    cases hy with
                    | none => exact ⟨_, hfound, rfl⟩
  | [x, y] =>
      obtain ⟨v, _, hv, hrest, rfl⟩ := Json.ofItems_cons_eq_ok_iff.mp hvalues
      obtain ⟨w, _, hw, hnil, rfl⟩ := Json.ofItems_cons_eq_ok_iff.mp hrest
      obtain rfl := Except.ok.inj hnil
      have hread := hfirst hv (hdistinct x (by simp))
      have hread' := hsecond hw (hdistinct y (by simp))
      simp only [recordItems, Fallible.bind_eq_ok_iff, hread, hread']
      constructor
      · rintro ⟨found, hfound, found', hfound', -, -, heq⟩
        obtain ⟨rfl, rfl⟩ := Prod.mk.inj (Except.ok.inj heq)
        exact ⟨_, _, .pair v w, .some hfound, .some hfound'⟩
      · rintro ⟨_, _, hgives, hx, hy⟩
        cases hgives with
        | pair =>
            cases hx with
            | some hfound =>
                cases hy with
                | some hfound' => exact ⟨_, hfound, _, hfound', (), rfl, rfl⟩
  | x :: y :: z :: more =>
      obtain ⟨v, _, -, hrest, rfl⟩ := Json.ofItems_cons_eq_ok_iff.mp hvalues
      obtain ⟨w, _, -, hmore, rfl⟩ := Json.ofItems_cons_eq_ok_iff.mp hrest
      obtain ⟨u, _, -, -, rfl⟩ := Json.ofItems_cons_eq_ok_iff.mp hmore
      refine iff_of_false ?_ fun ⟨_, _, hgives, _⟩ => nomatch hgives
      simp only [recordItems, Fallible.bind_eq_ok_iff]
      rintro ⟨_, -, _, -, hmalformed⟩
      exact nomatch hmalformed

/-- A record is read just if the value gives its fields and each field is read. -/
theorem record_eq_ok_iff {first : Field α} {second : Field β} (hfirst : ReadsAs first.read P)
    (hsecond : ReadsAs second.read Q) (hkeys : first.key ≠ second.key) (short : Bool) {room : Nat}
    {o : Outline} {v : Json} (hv : Json.ofOutline room o = .ok v)
    (hdistinct : o.distinctKeys = true) {a : Option α} {b : Option β} :
    record first second short o = .ok (a, b) ↔
      ∃ x y, v.Gives first.key second.key short x y ∧ Option.Rel P x a ∧ Option.Rel Q y b := by
  cases o with
  | object members close =>
      obtain ⟨inner, pairs, -, hpairs, rfl, rfl⟩ := Json.ofOutline_object_eq_ok_iff.mp hv
      obtain ⟨hkeyed, hdistinct⟩ := Bool.and_eq_true_iff.mp hdistinct
      have hnodup := Json.nodup_of_ofPairs hpairs (of_decide_eq_true hkeyed)
      -- from two empty slots a slot ends as the member under its key is, and no key comes twice
      have hread : recordMembers first second none none members = .ok (a, b) ↔ _ :=
        recordMembers_eq_ok_iff hfirst hsecond hkeys hpairs hnodup hdistinct nofun nofun
      simp only [slot_of_empty_iff, ← Json.lookup_membersOf_of_nodup hnodup] at hread
      show (recordMembers first second none none members >>= fun fields => pure fields) = _ ↔ _
      rw [bind_pure, hread]
      constructor
      · rintro ⟨hx, hy⟩
        exact ⟨_, _, .object _, hx, hy⟩
      · rintro ⟨_, _, hgives, hx, hy⟩
        cases hgives with
        | object => exact ⟨hx, hy⟩
  | array items close =>
      obtain ⟨inner, values, -, hvalues, rfl, rfl⟩ := Json.ofOutline_array_eq_ok_iff.mp hv
      exact recordItems_eq_ok_iff hfirst hsecond short hvalues (distinctKeysItems_iff.mp hdistinct)
  | numeral n =>
      obtain ⟨x, -, rfl⟩ := Fallible.map_eq_ok_iff.mp hv
      exact iff_of_false nofun fun ⟨_, _, hgives, _⟩ => nomatch hgives
  | quoted q =>
      obtain ⟨s, -, rfl⟩ := Fallible.map_eq_ok_iff.mp hv
      exact iff_of_false nofun fun ⟨_, _, hgives, _⟩ => nomatch hgives
  | null | boolean =>
      obtain rfl := Except.ok.inj hv
      exact iff_of_false nofun fun ⟨_, _, hgives, _⟩ => nomatch hgives
  | cutNumeral | broken => exact nomatch hv

/-- A reader that makes something of the two fields of a record, if neither is lost in it. -/
theorem record_bind_eq_ok_iff {γ δ ε : Type} {first : Field α} {second : Field β}
    (hfirst : ReadsAs first.read P) (hsecond : ReadsAs second.read Q)
    (hkeys : first.key ≠ second.key) (short : Bool) {f : Option α → γ} {g : Option β → δ}
    {F : Option Json → γ → Prop} {G : Option Json → δ → Prop}
    (hF : ∀ x c, F x c ↔ ∃ a, Option.Rel P x a ∧ f a = c)
    (hG : ∀ y d, G y d ↔ ∃ b, Option.Rel Q y b ∧ g b = d) {make : γ → δ → ε}
    (hmake : ∀ c d c' d', make c d = make c' d' → c = c' ∧ d = d') {room : Nat} {o : Outline}
    {v : Json} (hv : Json.ofOutline room o = .ok v) (hdistinct : o.distinctKeys = true) {c : γ}
    {d : δ} :
    (do
      let (a, b) ← record first second short o
      return make (f a) (g b)) = .ok (make c d) ↔
      ∃ x y, v.Gives first.key second.key short x y ∧ F x c ∧ G y d := by
  simp only [Fallible.bind_eq_ok_iff, Prod.exists, hF, hG,
    record_eq_ok_iff hfirst hsecond hkeys short hv hdistinct]
  constructor
  · rintro ⟨a, b, ⟨x, y, hgives, hx, hy⟩, heq⟩
    obtain ⟨ha, hb⟩ := hmake _ _ _ _ (Except.ok.inj heq)
    exact ⟨x, y, hgives, ⟨a, hx, ha⟩, b, hy, hb⟩
  · rintro ⟨x, y, hgives, ⟨a, hx, rfl⟩, b, hy, rfl⟩
    exact ⟨a, b, ⟨x, y, hgives, hx, hy⟩, rfl⟩

end Outline

end BlueprintPackages
