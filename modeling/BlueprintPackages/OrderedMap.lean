/-!
# Maps that remember insertion order

An `OrderedMap` is a list of entries with pairwise different keys. `insert` puts a new key at the
end and gives a key that is already there its new value at its old place, so the keys stand in the
order in which each first came. `ofList` inserts from left to right: of several values for one key
the last is kept, at the place of the first.

The statements that pin the operations down are `get?_insert`, what a lookup finds after an
insertion, and `keys_insert`, which keys there are and in what order.
-/

namespace BlueprintPackages

universe u

/-- A finite map from text to values of type `α`, in insertion order. -/
structure OrderedMap (α : Type u) where
  entries : List (String × α)
  nodup_keys : (entries.map Prod.fst).Nodup

namespace OrderedMap

variable {α : Type u}

/-! ## Reading -/

def keys (m : OrderedMap α) : List String := m.entries.map Prod.fst

def values (m : OrderedMap α) : List α := m.entries.map Prod.snd

def get? (m : OrderedMap α) (key : String) : Option α := m.entries.lookup key

def contains (m : OrderedMap α) (key : String) : Bool := (m.get? key).isSome

/-! ## Writing -/

def empty : OrderedMap α := ⟨[], List.nodup_nil⟩

/-- The entries after `key` has been given `value`: in place of its old one, or else at the end. -/
def setEntry (key : String) (value : α) : List (String × α) → List (String × α)
  | [] => [(key, value)]
  | (k, v) :: rest => if k = key then (key, value) :: rest else (k, v) :: setEntry key value rest

theorem map_fst_setEntry (key : String) (value : α) (entries : List (String × α)) :
    (setEntry key value entries).map Prod.fst =
      if key ∈ entries.map Prod.fst then entries.map Prod.fst
      else entries.map Prod.fst ++ [key] := by
  induction entries with
  | nil => rfl
  | cons entry rest ih =>
      obtain ⟨k, v⟩ := entry
      by_cases hk : k = key
      · simp [setEntry, hk]
      · have hk' : key ≠ k := fun h => hk h.symm
        simp only [setEntry, if_neg hk, List.map_cons, ih, List.mem_cons, hk', false_or]
        split <;> rfl

theorem nodup_map_fst_setEntry (key : String) (value : α) {entries : List (String × α)}
    (h : (entries.map Prod.fst).Nodup) : ((setEntry key value entries).map Prod.fst).Nodup := by
  rw [map_fst_setEntry]
  split
  · exact h
  · next hk =>
    rw [List.nodup_append]
    refine ⟨h, by simp, fun a ha b hb hab => ?_⟩
    rw [List.mem_singleton] at hb
    exact hk (hb ▸ hab ▸ ha)

def insert (m : OrderedMap α) (key : String) (value : α) : OrderedMap α :=
  ⟨setEntry key value m.entries, nodup_map_fst_setEntry key value m.nodup_keys⟩

/-- Inserts the pairs from left to right into the empty map. -/
def ofList (pairs : List (String × α)) : OrderedMap α :=
  pairs.foldl (fun m pair => m.insert pair.1 pair.2) empty

/-! ## Laws -/

@[simp] theorem get?_empty (key : String) : (empty : OrderedMap α).get? key = none := rfl

theorem lookup_cons_ite (k k' : String) (v : α) (rest : List (String × α)) :
    ((k', v) :: rest).lookup k = if k = k' then some v else rest.lookup k := by
  by_cases h : k = k'
  · simp [h]
  · simp [List.lookup_cons, beq_eq_false_iff_ne.mpr h, h]

theorem lookup_setEntry (key : String) (value : α) (entries : List (String × α)) (k : String) :
    (setEntry key value entries).lookup k =
      if k = key then some value else entries.lookup k := by
  induction entries with
  | nil => rw [setEntry, lookup_cons_ite]
  | cons entry rest ih =>
      obtain ⟨k', v⟩ := entry
      by_cases hk : k' = key
      · subst hk
        rw [setEntry, if_pos rfl, lookup_cons_ite, lookup_cons_ite]
        by_cases h : k = k' <;> simp [h]
      · rw [setEntry, if_neg hk, lookup_cons_ite, lookup_cons_ite, ih]
        by_cases h : k = k'
        · subst h
          simp [hk]
        · simp [h]

/-- After an insertion the key has the new value and every other key has what it had. -/
theorem get?_insert (m : OrderedMap α) (key : String) (value : α) (k : String) :
    (m.insert key value).get? k = if k = key then some value else m.get? k :=
  lookup_setEntry key value m.entries k

/-- An insertion adds its key at the end, or no key if the key is already there. -/
theorem keys_insert (m : OrderedMap α) (key : String) (value : α) :
    (m.insert key value).keys = if key ∈ m.keys then m.keys else m.keys ++ [key] :=
  map_fst_setEntry key value m.entries

end OrderedMap

end BlueprintPackages
