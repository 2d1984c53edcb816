import BlueprintPackages.Source.Basic
import Mathlib.Data.List.Basic

/-!
# Places in a source tree

A `Place` says how to get from the root of a tree to one of its packages: at each step down, the
number of the child. The packages of a tree are listed by `places`, every package before its
subpackages and those in order; that is every place of the tree once (`mem_places_iff`,
`nodup_places`), in the order of words in a dictionary (`pairwise_lt_places`).

The `number` of a place is its index in that list. A subtree is numbered without a gap from the
number of its own root on (`number_append`), which is why what is below a package stands next to it
in the list.
-/

namespace BlueprintPackages

/-- The way down to a package: at each step the number of the child. -/
abbrev Place := List Nat

namespace SourceTree

/-- Holds of a tree what holds of it whenever it holds of all its children. -/
@[elab_as_elim]
theorem induction {motive : SourceTree → Prop}
    (node : ∀ source children, (∀ c ∈ children, motive c) → motive (node source children))
    (t : SourceTree) : motive t :=
  @SourceTree.rec motive (fun cs => ∀ c ∈ cs, motive c) node
    (fun _ hc => absurd hc List.not_mem_nil)
    (fun _ _ hc hcs _ hd => (List.mem_cons.mp hd).elim (fun h => h ▸ hc) (hcs _)) t

@[simp] theorem children_node (source : PackageSource) (children : List SourceTree) :
    (node source children).children = children := rfl

/-! ## Walking down -/

/-- The subtree at a place, if the place is in the tree. -/
def at? : SourceTree → Place → Option SourceTree
  | t, [] => some t
  | t, k :: rest => t.children[k]?.bind fun c => c.at? rest

theorem at?_cons_eq_some_iff {t sub : SourceTree} {k : Nat} {rest : Place} :
    t.at? (k :: rest) = some sub ↔ ∃ c, t.children[k]? = some c ∧ c.at? rest = some sub :=
  Option.bind_eq_some_iff

theorem at?_append (t : SourceTree) (p q : Place) :
    t.at? (p ++ q) = (t.at? p).bind fun sub => sub.at? q := by
  induction p generalizing t with
  | nil => rfl
  | cons k rest ih =>
      rw [List.cons_append, at?, at?]
      cases t.children[k]? with
      | none => rfl
      | some c => exact ih c

theorem at?_concat {t sub : SourceTree} {p : Place} (h : t.at? p = some sub) (k : Nat) :
    t.at? (p ++ [k]) = sub.children[k]? := by
  rw [at?_append, h, Option.bind_some, at?]
  cases sub.children[k]? <;> rfl

/-- Above every package there is one, but above the root. -/
theorem exists_at?_dropLast {t sub : SourceTree} {p : Place} (h : t.at? p = some sub) :
    ∃ up, t.at? p.dropLast = some up := by
  rcases List.eq_nil_or_concat p with rfl | ⟨q, k, rfl⟩
  · exact ⟨t, rfl⟩
  · rw [List.concat_eq_append, at?_append] at h
    obtain ⟨up, hup, -⟩ := Option.bind_eq_some_iff.mp h
    exact ⟨up, by rw [List.concat_eq_append, List.dropLast_concat, hup]⟩

/-! ## All places -/

mutual

/-- The places of all packages, each before those of its subpackages. -/
def places : SourceTree → List Place
  | node _ children => [] :: placesFrom 0 children
termination_by structural tree => tree

/-- The places in children, the first of which has the given number. -/
def placesFrom : (first : Nat) → List SourceTree → List Place
  | _, [] => []
  | first, c :: rest => (places c).map (first :: ·) ++ placesFrom (first + 1) rest
termination_by structural _ trees => trees

end

/-- How many packages a tree has. -/
def size (t : SourceTree) : Nat := t.places.length

/-- The number of a place in the list of all places. -/
def number (t : SourceTree) (p : Place) : Nat := t.places.idxOf p

theorem mem_placesFrom_iff {children : List SourceTree} {first : Nat} {p : Place} :
    p ∈ placesFrom first children ↔
      ∃ k c q, children[k]? = some c ∧ q ∈ c.places ∧ p = (first + k) :: q := by
  induction children generalizing first with
  | nil => simp [placesFrom]
  | cons c rest ih =>
      rw [placesFrom, List.mem_append, List.mem_map, ih]
      constructor
      · rintro (⟨q, hq, rfl⟩ | ⟨k, d, q, hd, hq, rfl⟩)
        · exact ⟨0, c, q, rfl, hq, rfl⟩
        · exact ⟨k + 1, d, q, hd, hq, by rw [Nat.add_right_comm, Nat.add_assoc]⟩
      · rintro ⟨_ | k, d, q, hd, hq, rfl⟩
        · obtain rfl := Option.some.inj hd
          exact .inl ⟨q, hq, rfl⟩
        · exact .inr ⟨k, d, q, hd, hq, by rw [Nat.add_right_comm, Nat.add_assoc]⟩

/-- The places that are listed are those at which there is a package. -/
theorem mem_places_iff {t : SourceTree} {p : Place} :
    p ∈ t.places ↔ ∃ sub, t.at? p = some sub := by
  induction t using induction generalizing p with
  | node source children ih =>
      cases p with
      | nil => simp [places, at?]
      | cons k q =>
          rw [places, List.mem_cons, mem_placesFrom_iff]
          constructor
          · rintro (h | ⟨k', c, q', hc, hq, h⟩)
            · exact nomatch h
            · rw [Nat.zero_add] at h
              obtain ⟨rfl, rfl⟩ := List.cons.inj h
              obtain ⟨sub, hsub⟩ := (ih c (List.mem_of_getElem? hc)).mp hq
              exact ⟨sub, at?_cons_eq_some_iff.mpr ⟨c, hc, hsub⟩⟩
          · rintro ⟨sub, hsub⟩
            obtain ⟨c, hc, hsub⟩ := at?_cons_eq_some_iff.mp hsub
            have hq : q ∈ c.places := (ih c (List.mem_of_getElem? hc)).mpr ⟨sub, hsub⟩
            exact .inr ⟨k, c, q, hc, hq, by rw [Nat.zero_add]⟩

theorem pairwise_lt_placesFrom {children : List SourceTree} (first : Nat)
    (h : ∀ c ∈ children, c.places.Pairwise (· < ·)) :
    (placesFrom first children).Pairwise (· < ·) := by
  induction children generalizing first with
  | nil => exact .nil
  | cons c rest ih =>
      rw [placesFrom, List.pairwise_append]
      refine ⟨?_, ih (first + 1) fun d hd => h d (List.mem_cons_of_mem _ hd), ?_⟩
      · rw [List.pairwise_map]
        exact (h c List.mem_cons_self).imp fun hlt => List.cons_lt_cons_iff.mpr (.inr ⟨rfl, hlt⟩)
      · intro p hp q hq
        obtain ⟨p', -, rfl⟩ := List.mem_map.mp hp
        obtain ⟨k, d, q', -, -, rfl⟩ := mem_placesFrom_iff.mp hq
        exact List.cons_lt_cons_iff.mpr (.inl (by omega))

/-- The places stand in the order of the dictionary: a package before those below it, and what is
below one child before what is below a later one. -/
theorem pairwise_lt_places (t : SourceTree) : t.places.Pairwise (· < ·) := by
  induction t using induction with
  | node source children ih =>
      rw [places, List.pairwise_cons]
      refine ⟨?_, pairwise_lt_placesFrom 0 ih⟩
      intro p hp
      obtain ⟨k, c, q, -, -, rfl⟩ := mem_placesFrom_iff.mp hp
      exact List.nil_lt_cons _ _

theorem nodup_places (t : SourceTree) : t.places.Nodup := by
  refine (pairwise_lt_places t).imp ?_
  rintro p _ hlt rfl
  exact List.lt_irrefl p hlt

/-! ## Numbers -/

theorem number_lt_size {t sub : SourceTree} {p : Place} (h : t.at? p = some sub) :
    t.number p < t.size :=
  List.idxOf_lt_length_of_mem (mem_places_iff.mpr ⟨sub, h⟩)

@[simp] theorem number_nil (t : SourceTree) : t.number [] = 0 := by
  cases t
  rw [number, places, List.idxOf_cons_self]

/-- How many packages there are in the children before the one of the given number. -/
def sizeBefore : (children : List SourceTree) → (k : Nat) → Nat
  | [], _ => 0
  | _ :: _, 0 => 0
  | c :: rest, k + 1 => c.size + sizeBefore rest k

theorem idxOf_map_cons (k : Nat) (ps : List Place) (q : Place) :
    (ps.map (k :: ·)).idxOf (k :: q) = ps.idxOf q := by
  induction ps with
  | nil => rfl
  | cons p ps ih =>
      simp only [List.map_cons, List.idxOf_cons, ih, List.cons_beq_cons, beq_self_eq_true,
        Bool.true_and]

theorem idxOf_placesFrom (first : Nat) {children : List SourceTree} {k : Nat} {c : SourceTree}
    {q : Place} (hc : children[k]? = some c) (hq : q ∈ c.places) :
    (placesFrom first children).idxOf ((first + k) :: q) =
      sizeBefore children k + c.number q := by
  induction children generalizing first k with
  | nil => simp at hc
  | cons d rest ih =>
      rw [placesFrom]
      cases k with
      | zero =>
          obtain rfl := Option.some.inj hc
          rw [Nat.add_zero, List.idxOf_append_of_mem (List.mem_map_of_mem hq), idxOf_map_cons]
          simp [sizeBefore, number]
      | succ k =>
          have hnot : (first + (k + 1)) :: q ∉ d.places.map (first :: ·) := by
            intro hmem
            obtain ⟨p, -, heq⟩ := List.mem_map.mp hmem
            have := (List.cons.inj heq).1
            omega
          rw [List.idxOf_append_of_notMem hnot, List.length_map,
            show first + (k + 1) = first + 1 + k by omega, ih (first + 1) hc]
          simp [sizeBefore, size, Nat.add_assoc]

theorem number_cons {t c : SourceTree} {k : Nat} {q : Place} (hc : t.children[k]? = some c)
    (hq : q ∈ c.places) : t.number (k :: q) = 1 + sizeBefore t.children k + c.number q := by
  obtain ⟨source, children⟩ := t
  have hbelow : (placesFrom 0 children).idxOf (k :: q) = sizeBefore children k + c.number q := by
    simpa using idxOf_placesFrom 0 hc hq
  have hne : ([] : Place) ≠ k :: q := fun h => nomatch h
  rw [number, places, List.idxOf_cons_ne _ hne, hbelow, children_node, Nat.succ_eq_add_one]
  omega

theorem number_singleton {t c : SourceTree} {k : Nat} (hc : t.children[k]? = some c) :
    t.number [k] = 1 + sizeBefore t.children k := by
  rw [number_cons hc (mem_places_iff.mpr ⟨c, rfl⟩), number_nil, Nat.add_zero]

/-- Numbers in a subtree go on from the number of its root. -/
theorem number_append {t sub : SourceTree} {p q : Place} (h : t.at? p = some sub)
    (hq : q ∈ sub.places) : t.number (p ++ q) = t.number p + sub.number q := by
  induction p generalizing t with
  | nil =>
      obtain rfl := Option.some.inj h
      rw [List.nil_append, number_nil, Nat.zero_add]
  | cons k rest ih =>
      obtain ⟨c, hc, hsub⟩ := at?_cons_eq_some_iff.mp h
      obtain ⟨leaf, hleaf⟩ := mem_places_iff.mp hq
      have hrest : rest ∈ c.places := mem_places_iff.mpr ⟨sub, hsub⟩
      have hlong : rest ++ q ∈ c.places :=
        mem_places_iff.mpr ⟨leaf, by rw [at?_append, hsub, Option.bind_some, hleaf]⟩
      rw [List.cons_append, number_cons hc hlong, number_cons hc hrest, ih hsub]
      omega

/-- A subpackage comes after its parent. -/
theorem number_lt_number_concat {t sub c : SourceTree} {p : Place} {k : Nat}
    (h : t.at? p = some sub) (hc : sub.children[k]? = some c) :
    t.number p < t.number (p ++ [k]) := by
  have hk : [k] ∈ sub.places := mem_places_iff.mpr ⟨c, at?_cons_eq_some_iff.mpr ⟨c, hc, rfl⟩⟩
  rw [number_append h hk, number_singleton hc]
  omega

/-- Numbers keep the order of the dictionary. -/
theorem number_lt_number {t sub sub' : SourceTree} {p q : Place} (hp : t.at? p = some sub)
    (hq : t.at? q = some sub') (h : p < q) : t.number p < t.number q := by
  have hi : t.number p < t.places.length := number_lt_size hp
  have hj : t.number q < t.places.length := number_lt_size hq
  have hp' : t.places[t.number p] = p := List.getElem_idxOf hi
  have hq' : t.places[t.number q] = q := List.getElem_idxOf hj
  -- all places stand in order, so two of them cannot have their numbers the other way round
  by_contra hle
  rcases Nat.lt_or_eq_of_le (Nat.le_of_not_lt hle) with hlt | heq
  · have hafter := List.pairwise_iff_getElem.mp (pairwise_lt_places t) _ _ hj hi hlt
    rw [hp', hq'] at hafter
    exact List.lt_asymm h hafter
  · have hsame : q = p := (List.idxOf_inj (mem_places_iff.mpr ⟨sub', hq⟩)).mp heq
    rw [hsame] at h
    exact List.lt_irrefl p h

/-- Of two subpackages the one that comes first in the list of children has the smaller number. -/
theorem number_concat_le_number_concat {t sub c c' : SourceTree} {p : Place} {k k' : Nat}
    (h : t.at? p = some sub) (hc : sub.children[k]? = some c) (hc' : sub.children[k']? = some c')
    (hle : k ≤ k') : t.number (p ++ [k]) ≤ t.number (p ++ [k']) := by
  have hk : t.at? (p ++ [k]) = some c := (at?_concat h k).trans hc
  have hk' : t.at? (p ++ [k']) = some c' := (at?_concat h k').trans hc'
  rcases Nat.lt_or_eq_of_le hle with hlt | rfl
  · have hplace : p ++ [k] < p ++ [k'] :=
      List.append_left_lt (List.cons_lt_cons_iff.mpr (.inl hlt))
    exact Nat.le_of_lt (number_lt_number hk hk' hplace)
  · exact Nat.le_refl _

/-! ## Packages by number -/

/-- The package of number `i` in a tree: where it stands, and the subtree there. -/
structure HasPackage (t : SourceTree) (i : Nat) (p : Place) (sub : SourceTree) : Prop where
  place : t.places[i]? = some p
  tree : t.at? p = some sub

theorem hasPackage_number {t sub : SourceTree} {p : Place} (h : t.at? p = some sub) :
    t.HasPackage (t.number p) p sub :=
  ⟨List.getElem?_idxOf (mem_places_iff.mpr ⟨sub, h⟩), h⟩

theorem HasPackage.number_eq {t sub : SourceTree} {i : Nat} {p : Place}
    (h : t.HasPackage i p sub) : t.number p = i := by
  obtain ⟨hi, rfl⟩ := List.getElem?_eq_some_iff.mp h.place
  exact (nodup_places t).idxOf_getElem i hi

theorem hasPackage_root (t : SourceTree) : t.HasPackage 0 [] t :=
  number_nil t ▸ hasPackage_number rfl

/-- Packages of one number are one package. -/
theorem HasPackage.unique {t sub sub' : SourceTree} {i : Nat} {p q : Place}
    (hp : t.HasPackage i p sub) (hq : t.HasPackage i q sub') : p = q ∧ sub = sub' := by
  obtain rfl := Option.some.inj (hp.place.symm.trans hq.place)
  exact ⟨rfl, Option.some.inj (hp.tree.symm.trans hq.tree)⟩

/-- A package of a subtree is one of the whole tree. -/
theorem HasPackage.append {t sub leaf : SourceTree} {i j : Nat} {p q : Place}
    (h : t.HasPackage i p sub) (hleaf : sub.HasPackage j q leaf) :
    t.HasPackage (i + j) (p ++ q) leaf := by
  have hat : t.at? (p ++ q) = some leaf := by
    rw [at?_append, h.tree, Option.bind_some, hleaf.tree]
  have hnumber : t.number (p ++ q) = i + j := by
    rw [number_append h.tree (List.mem_of_getElem? hleaf.place), h.number_eq, hleaf.number_eq]
  exact hnumber ▸ hasPackage_number hat

/-- There is a package of every number below the size. -/
theorem exists_hasPackage {t : SourceTree} {i : Nat} (hi : i < t.size) :
    ∃ p sub, t.HasPackage i p sub := by
  obtain ⟨sub, hsub⟩ := mem_places_iff.mp (List.getElem_mem hi)
  exact ⟨t.places[i], sub, List.getElem?_eq_getElem hi, hsub⟩

end SourceTree

end BlueprintPackages
