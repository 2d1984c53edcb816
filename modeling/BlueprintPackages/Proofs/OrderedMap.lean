import BlueprintPackages.OrderedMap
import Mathlib.Data.List.Induction

/-!
# What is in an ordered map

An entry is what a lookup of its key finds, in whatever order the entries stand (`mem_entries_iff`,
`lookup_eq_of_perm`), and a key that is not found has no entry (`get?_eq_none_iff`). A map that is
filled from a list of pairs has its keys in the order in which each first came (`keys_ofList`), and
holds for each the last of its values (`get?_ofList_eq_some_iff`, and by index
`exists_last_of_get?_ofList`). To change each value of a map by itself is to leave the keys and
their order alone, so filling a map from changed values is changing the map that is filled
(`ofList_map`).
-/

namespace BlueprintPackages.OrderedMap

universe u

variable {α : Type u}

theorem lookup_eq_some_iff_mem {entries : List (String × α)} (h : (entries.map Prod.fst).Nodup)
    {key : String} {value : α} : entries.lookup key = some value ↔ (key, value) ∈ entries := by
  induction entries with
  | nil => simp
  | cons entry rest ih =>
      obtain ⟨k, v⟩ := entry
      rw [List.map_cons, List.nodup_cons] at h
      rw [lookup_cons_ite, List.mem_cons, Prod.mk.injEq]
      by_cases hk : key = k
      · subst hk
        have hnot : (key, value) ∉ rest := fun hmem => h.1 (List.mem_map.mpr ⟨_, hmem, rfl⟩)
        simp [hnot, eq_comm]
      · simp [hk, ih h.2]

theorem mem_of_lookup {entries : List (String × α)} {key : String} {value : α}
    (h : entries.lookup key = some value) : (key, value) ∈ entries := by
  obtain ⟨before, after, rfl, -⟩ := List.lookup_eq_some_iff.mp h
  exact List.mem_append_right before List.mem_cons_self

theorem isSome_lookup_iff {entries : List (String × α)} {key : String} :
    (entries.lookup key).isSome = true ↔ key ∈ entries.map Prod.fst := by
  simp only [List.lookup_isSome_iff, beq_iff_eq, List.mem_map]
  exact exists_congr fun entry => and_congr_right fun _ => eq_comm

/-- Where every value is changed in a way of its key, so is the value that a lookup finds. -/
theorem lookup_map {β : Type u} (f : String → α → β) (entries : List (String × α)) (key : String) :
    (entries.map fun entry => (entry.1, f entry.1 entry.2)).lookup key =
      (entries.lookup key).map (f key) := by
  induction entries with
  | nil => rfl
  | cons entry rest ih =>
      obtain ⟨k, v⟩ := entry
      rw [List.map_cons, lookup_cons_ite, lookup_cons_ite, ih]
      by_cases hk : key = k
      · subst hk
        simp
      · simp [hk]

/-- What a lookup finds does not depend on the order of the entries. -/
theorem lookup_eq_of_perm {listed entries : List (String × α)} (hperm : listed.Perm entries)
    (h : (entries.map Prod.fst).Nodup) (key : String) : listed.lookup key = entries.lookup key := by
  refine Option.ext fun value => ?_
  have hlisted : (listed.map Prod.fst).Nodup := (hperm.map Prod.fst).nodup_iff.mpr h
  rw [lookup_eq_some_iff_mem h, lookup_eq_some_iff_mem hlisted, hperm.mem_iff]

theorem mem_entries_iff {m : OrderedMap α} {key : String} {value : α} :
    (key, value) ∈ m.entries ↔ m.get? key = some value :=
  (lookup_eq_some_iff_mem m.nodup_keys).symm

theorem get?_eq_none_iff {m : OrderedMap α} {key : String} : m.get? key = none ↔ key ∉ m.keys := by
  constructor
  · intro hnone hmem
    obtain ⟨⟨k, v⟩, hentry, rfl⟩ := List.mem_map.mp hmem
    rw [mem_entries_iff.mp hentry] at hnone
    exact nomatch hnone
  · intro hnot
    cases hget : m.get? key with
    | none => rfl
    | some value => exact absurd (List.mem_map_of_mem (mem_entries_iff.mpr hget)) hnot

theorem mem_values_iff {m : OrderedMap α} {value : α} :
    value ∈ m.values ↔ ∃ key, m.get? key = some value := by
  rw [values, List.mem_map]
  constructor
  · rintro ⟨⟨key, _⟩, hentry, rfl⟩
    exact ⟨key, mem_entries_iff.mp hentry⟩
  · rintro ⟨key, hget⟩
    exact ⟨(key, value), mem_entries_iff.mpr hget, rfl⟩

/-! ## Maps filled from a list -/

theorem ofList_concat (pairs : List (String × α)) (key : String) (value : α) :
    ofList (pairs ++ [(key, value)]) = (ofList pairs).insert key value := by
  rw [ofList, List.foldl_append]
  rfl

/-- Of several values for one key the last is found. -/
theorem get?_ofList (pairs : List (String × α)) (key : String) :
    (ofList pairs).get? key = pairs.reverse.lookup key := by
  induction pairs using List.reverseRecOn with
  | nil => rfl
  | append_singleton pairs pair ih =>
      rw [ofList_concat, get?_insert, ih, List.reverse_concat, lookup_cons_ite]

/-- The keys stand in the order in which each first came. -/
theorem keys_ofList (pairs : List (String × α)) :
    (ofList pairs).keys = (pairs.map Prod.fst).eraseDups := by
  induction pairs using List.reverseRecOn with
  | nil => rfl
  | append_singleton pairs pair ih =>
      obtain ⟨key, value⟩ := pair
      simp only [ofList_concat, keys_insert, ih, List.mem_eraseDups, List.map_append,
        List.map_singleton, List.eraseDups_append]
      by_cases hkey : key ∈ pairs.map Prod.fst
      · have hold : [key].removeAll (pairs.map Prod.fst) = [] := by
          simpa [List.removeAll] using hkey
        rw [if_pos hkey, hold, List.eraseDups_nil, List.append_nil]
      · have hnew : [key].removeAll (pairs.map Prod.fst) = [key] := by
          simpa [List.removeAll] using hkey
        rw [if_neg hkey, hnew]
        simp [List.eraseDups_cons]

/-- A value is found just if no pair after its own has the key. -/
theorem get?_ofList_eq_some_iff {pairs : List (String × α)} {key : String} {value : α} :
    (ofList pairs).get? key = some value ↔
      ∃ before after, pairs = before ++ (key, value) :: after ∧ ∀ pair ∈ after, pair.1 ≠ key := by
  rw [get?_ofList, List.lookup_eq_some_iff]
  constructor
  · rintro ⟨later, earlier, hsplit, hlater⟩
    refine ⟨earlier.reverse, later.reverse, ?_, ?_⟩
    · simpa using congrArg List.reverse hsplit
    · intro pair hpair
      exact (bne_iff_ne.mp (hlater pair (List.mem_reverse.mp hpair))).symm
  · rintro ⟨before, after, rfl, hlast⟩
    refine ⟨after.reverse, before.reverse, by simp, ?_⟩
    intro pair hpair
    exact bne_iff_ne.mpr (hlast pair (List.mem_reverse.mp hpair)).symm

theorem mem_of_get?_ofList {pairs : List (String × α)} {key : String} {value : α}
    (h : (ofList pairs).get? key = some value) : (key, value) ∈ pairs := by
  obtain ⟨before, after, rfl, -⟩ := get?_ofList_eq_some_iff.mp h
  exact List.mem_append_right before List.mem_cons_self

/-- What a lookup finds stands at the last index at which there is a pair with the key. -/
theorem exists_last_of_get?_ofList {pairs : List (String × α)} {key : String} {value : α}
    (h : (ofList pairs).get? key = some value) :
    ∃ i : Nat, pairs[i]? = some (key, value) ∧
      ∀ (j : Nat) (other : α), pairs[j]? = some (key, other) → j ≤ i := by
  obtain ⟨before, after, rfl, hlast⟩ := get?_ofList_eq_some_iff.mp h
  refine ⟨before.length, by simp, ?_⟩
  intro j other hj
  by_contra hlt
  -- the pair would stand among those behind, none of which has the key
  have hindex : j = before.length + (j - before.length - 1 + 1) := by omega
  rw [hindex, List.getElem?_append_right (Nat.le_add_right _ _), Nat.add_sub_cancel_left,
    List.getElem?_cons_succ] at hj
  exact hlast _ (List.mem_of_getElem? hj) rfl

/-- Every key that is put in is there to be found. -/
theorem exists_get?_ofList_of_mem {pairs : List (String × α)} {key : String} {value : α}
    (h : (key, value) ∈ pairs) : ∃ found, (ofList pairs).get? key = some found := by
  rw [← Option.ne_none_iff_exists', get?_ofList, ne_eq, List.lookup_eq_none_iff]
  intro hnone
  have hne := hnone _ (List.mem_reverse.mpr h)
  simp at hne

/-! ## One value in place of another -/

theorem setEntry_setEntry (key : String) (value value' : α) (entries : List (String × α)) :
    setEntry key value' (setEntry key value entries) = setEntry key value' entries := by
  induction entries with
  | nil => simp [setEntry]
  | cons entry rest ih =>
      obtain ⟨k, v⟩ := entry
      by_cases hk : k = key
      · simp [setEntry, hk]
      · simp [setEntry, hk, ih]

/-- A key that is there already keeps its place, whatever else is put in. -/
theorem setEntry_comm {key other : String} (hne : other ≠ key) (value value' : α)
    {entries : List (String × α)} (hkey : key ∈ entries.map Prod.fst) :
    setEntry key value (setEntry other value' entries) =
      setEntry other value' (setEntry key value entries) := by
  induction entries with
  | nil => exact absurd hkey List.not_mem_nil
  | cons entry rest ih =>
      obtain ⟨k, v⟩ := entry
      by_cases hk : k = key
      · subst hk
        simp [setEntry, Ne.symm hne]
      · have hrest : key ∈ rest.map Prod.fst :=
          (List.mem_cons.mp hkey).resolve_left fun h => hk h.symm
        by_cases hother : k = other
        · simp [setEntry, hother, hne]
        · simp [setEntry, hk, hother, ih hrest]

theorem mem_keys_ofList {pairs : List (String × α)} {key : String} {value : α}
    (h : (key, value) ∈ pairs) : key ∈ (ofList pairs).keys := by
  obtain ⟨found, hfound⟩ := exists_get?_ofList_of_mem h
  by_contra hnot
  exact nomatch hfound.symm.trans (get?_eq_none_iff.mpr hnot)

/-- To put in another value where a key comes last is to give the key this value afterwards. -/
theorem ofList_replace (value' : α) {before after : List (String × α)} {key : String} {value : α}
    (hlast : ∀ pair ∈ after, pair.1 ≠ key) :
    ofList (before ++ (key, value') :: after) =
      (ofList (before ++ (key, value) :: after)).insert key value' := by
  induction after using List.reverseRecOn with
  | nil =>
      rw [ofList_concat, ofList_concat]
      simp only [insert, setEntry_setEntry]
  | append_singleton after pair ih =>
      have hother : pair.1 ≠ key := hlast pair (by simp)
      have hbefore : ∀ p ∈ after, p.1 ≠ key := fun p hp => hlast p (List.mem_append_left _ hp)
      have hmem : key ∈ (ofList (before ++ (key, value) :: after)).keys :=
        mem_keys_ofList (List.mem_append_right before List.mem_cons_self)
      rw [← List.cons_append, ← List.append_assoc, ofList_concat, ih hbefore, ← List.cons_append,
        ← List.append_assoc, ofList_concat]
      simp only [insert, setEntry_comm hother _ _ hmem]

theorem get?_ofList_of_last {before after : List (String × α)} {key : String} {value : α}
    (hlast : ∀ pair ∈ after, pair.1 ≠ key) :
    (ofList (before ++ (key, value) :: after)).get? key = some value :=
  get?_ofList_eq_some_iff.mpr ⟨before, after, rfl, hlast⟩

/-! ## Changing the values -/

variable {β : Type u}

/-- The same keys in the same order, each with its value changed. -/
def map (f : α → β) (m : OrderedMap α) : OrderedMap β where
  entries := m.entries.map fun entry => (entry.1, f entry.2)
  nodup_keys := by
    rw [List.map_map]
    exact m.nodup_keys

theorem setEntry_map (f : α → β) (key : String) (value : α) (entries : List (String × α)) :
    setEntry key (f value) (entries.map fun entry => (entry.1, f entry.2)) =
      (setEntry key value entries).map fun entry => (entry.1, f entry.2) := by
  induction entries with
  | nil => rfl
  | cons entry rest ih =>
      obtain ⟨k, v⟩ := entry
      by_cases hk : k = key
      · simp [setEntry, hk]
      · simp [setEntry, hk, ih]

theorem insert_map (f : α → β) (m : OrderedMap α) (key : String) (value : α) :
    (m.map f).insert key (f value) = (m.insert key value).map f := by
  simp only [insert, map, setEntry_map]

theorem ofList_map (f : α → β) (pairs : List (String × α)) :
    ofList (pairs.map fun pair => (pair.1, f pair.2)) = (ofList pairs).map f := by
  induction pairs using List.reverseRecOn with
  | nil => rfl
  | append_singleton pairs pair ih =>
      rw [List.map_append, List.map_singleton, ofList_concat, ih, insert_map, ← ofList_concat]

/-! ## Related maps -/

/-- The same keys in the same order, with values that are related one by one. -/
def Related (R : α → β → Prop) (m : OrderedMap α) (m' : OrderedMap β) : Prop :=
  List.Forall₂ (fun entry entry' => entry.1 = entry'.1 ∧ R entry.2 entry'.2) m.entries m'.entries

variable {R : α → β → Prop}

theorem Related.insert {m : OrderedMap α} {m' : OrderedMap β} (h : m.Related R m') {key : String}
    {value : α} {value' : β} (hvalue : R value value') :
    (m.insert key value).Related R (m'.insert key value') := by
  obtain ⟨entries, hnodup⟩ := m
  obtain ⟨entries', hnodup'⟩ := m'
  simp only [Related, OrderedMap.insert] at h ⊢
  clear hnodup hnodup'
  induction h with
  | nil => exact .cons ⟨rfl, hvalue⟩ .nil
  | @cons entry entry' rest rest' hentry hrest ih =>
      obtain ⟨k, v⟩ := entry
      obtain ⟨k', v'⟩ := entry'
      obtain ⟨rfl, hv⟩ := hentry
      by_cases hk : k = key
      · simp only [setEntry, if_pos hk]
        exact .cons ⟨rfl, hvalue⟩ hrest
      · simp only [setEntry, if_neg hk]
        exact .cons ⟨rfl, hv⟩ ih

theorem Related.ofList {pairs : List (String × α)} {pairs' : List (String × β)}
    (h : List.Forall₂ (fun pair pair' => pair.1 = pair'.1 ∧ R pair.2 pair'.2) pairs pairs') :
    (ofList pairs).Related R (ofList pairs') := by
  have hempty : (empty : OrderedMap α).Related R empty := .nil
  unfold OrderedMap.ofList
  generalize (empty : OrderedMap α) = m at hempty ⊢
  generalize (empty : OrderedMap β) = m' at hempty ⊢
  induction h generalizing m m' with
  | nil => exact hempty
  | @cons pair pair' rest rest' hpair _ ih =>
      rw [List.foldl_cons, List.foldl_cons, ← hpair.1]
      exact ih _ _ (hempty.insert hpair.2)

end BlueprintPackages.OrderedMap
