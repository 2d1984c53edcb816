import BlueprintPackages.Proofs.Source.Local
import BlueprintPackages.Proofs.Source.Places

/-!
# The table of a tree

A `Row` holds all that one package of a tree is built from: its number, its source, its parent's
number and the names and numbers of its subpackages. The table `rows` of a tree is drawn up from the
sources alone, before anything is built. A row is found in it by the number of its place
(`rows_number`), and the numbers in the row are those of places.
-/

namespace BlueprintPackages

namespace SourceTree

/-! ## Rows -/

/-- What one package of a tree is built from. -/
structure Row where
  number : PackageId
  source : PackageSource
  parent : Option PackageId
  subpackages : List (String × PackageId)

namespace Row

/-- Builds the package of a row and files its subpackages. -/
def build (registry : Registry) (row : Row) : Except BuildError PackageNode := do
  let top ← row.source.toNode registry row.number row.parent
  return { top with subpackages := .ofList row.subpackages }

theorem build_eq_ok_iff {registry : Registry} {row : Row} {node : PackageNode} :
    row.build registry = .ok node ↔
      row.source.BuildsTo registry row.number node ∧ node.parent = row.parent ∧
        node.subpackages = .ofList row.subpackages := by
  simp only [build, Fallible.bind_eq_ok_iff, PackageSource.toNode_eq_ok_iff]
  constructor
  · rintro ⟨top, ⟨hbuilds, hparent, -⟩, hnode⟩
    obtain rfl := Except.ok.inj hnode
    exact ⟨hbuilds.placed _ _, hparent, rfl⟩
  · rintro ⟨hbuilds, hparent, hsub⟩
    refine ⟨{ node with subpackages := .empty }, ⟨hbuilds.placed _ _, hparent, rfl⟩, ?_⟩
    rw [← hsub]
    rfl

theorem build_eq_error_iff {registry : Registry} {row : Row} {error : BuildError} :
    row.build registry = .error error ↔ row.source.Fails registry row.number error := by
  rw [build, Fallible.bind_eq_error_iff, PackageSource.toNode_eq_error_iff]
  constructor
  · rintro (h | ⟨_, _, hpure⟩)
    · exact h
    · exact nomatch hpure
  · exact .inl

end Row

/-- The names of children, each with its number, when the first has the given one. -/
def numbered : (next : PackageId) → List SourceTree → List (String × PackageId)
  | _, [] => []
  | next, c :: rest => (c.source.name, next) :: numbered (next + c.size) rest

mutual

/-- The rows of a tree whose root has the given number and parent. -/
def rows (id : PackageId) (parent : Option PackageId) : SourceTree → List Row
  | node source children => ⟨id, source, parent, numbered (id + 1) children⟩ ::
    rowsOfAll id (id + 1) children
termination_by structural tree => tree

/-- The rows of all children of a package, the first of which has the given number. -/
def rowsOfAll (parent next : PackageId) : List SourceTree → List Row
  | [] => []
  | c :: rest => rows next (some parent) c ++ rowsOfAll parent (next + c.size) rest
termination_by structural trees => trees

end

/-! ## How many rows there are -/

theorem length_rowsOfAll {children : List SourceTree} (parent next first : Nat)
    (h : ∀ c ∈ children, ∀ id parent, (rows id parent c).length = c.size) :
    (rowsOfAll parent next children).length = (placesFrom first children).length := by
  induction children generalizing next first with
  | nil => rfl
  | cons c rest ih =>
      rw [rowsOfAll, placesFrom, List.length_append, List.length_append, List.length_map,
        h c List.mem_cons_self, ih _ (first + 1) fun d hd => h d (List.mem_cons_of_mem _ hd), size]

theorem length_rows (id : PackageId) (parent : Option PackageId) (t : SourceTree) :
    (rows id parent t).length = t.size := by
  induction t using induction generalizing id parent with
  | node source children ih =>
      rw [rows, List.length_cons, length_rowsOfAll id (id + 1) 0 fun c hc id parent =>
        ih c hc id parent, size, places, List.length_cons]

/-! ## Rows by place -/

theorem rowsOfAll_getElem? {children : List SourceTree} {k : Nat} {c : SourceTree}
    (hc : children[k]? = some c) {j : Nat} (hj : j < c.size) (parent next : Nat) :
    (rowsOfAll parent next children)[sizeBefore children k + j]? =
      (rows (next + sizeBefore children k) (some parent) c)[j]? := by
  induction children generalizing next k with
  | nil => simp at hc
  | cons d rest ih =>
      rw [rowsOfAll]
      cases k with
      | zero =>
          obtain rfl := Option.some.inj hc
          have hzero : sizeBefore (d :: rest) 0 = 0 := rfl
          rw [hzero, Nat.zero_add, List.getElem?_append_left (by rw [length_rows]; exact hj)]
          rfl
      | succ k =>
          have hsucc : sizeBefore (d :: rest) (k + 1) = d.size + sizeBefore rest k := rfl
          rw [List.getElem?_append_right (by rw [length_rows, hsucc]; omega), length_rows, hsucc,
            ← Nat.add_assoc next, ← ih hc]
          congr 1
          omega

theorem rows_child_getElem? {t c : SourceTree} {k : Nat} (hc : t.children[k]? = some c) {j : Nat}
    (hj : j < c.size) (id : Nat) (parent : Option PackageId) :
    (rows id parent t)[t.number [k] + j]? = (rows (id + t.number [k]) (some id) c)[j]? := by
  obtain ⟨source, children⟩ := t
  rw [number_singleton hc]
  rw [children_node] at hc ⊢
  have hindex : 1 + sizeBefore children k + j = sizeBefore children k + j + 1 := by omega
  rw [hindex, rows, List.getElem?_cons_succ, rowsOfAll_getElem? hc hj, Nat.add_assoc]

/-- The row of a place stands at the number of the place, and its own number and that of its parent
count on from the number of the root. -/
theorem rows_number {t sub : SourceTree} {p : Place} (h : t.at? p = some sub) (id : Nat)
    (parent : Option PackageId) :
    (rows id parent t)[t.number p]? = some
      { number := id + t.number p
        source := sub.source
        parent := if p = [] then parent else some (id + t.number p.dropLast)
        subpackages := numbered (id + t.number p + 1) sub.children } := by
  induction p generalizing t id parent with
  | nil =>
      obtain rfl := Option.some.inj h
      obtain ⟨source, children⟩ := t
      rw [number_nil, rows]
      rfl
  | cons k q ih =>
      obtain ⟨c, hc, hsub⟩ := at?_cons_eq_some_iff.mp h
      have hat : t.at? [k] = some c := at?_cons_eq_some_iff.mpr ⟨c, hc, rfl⟩
      have hnumber : ∀ r, r ∈ c.places → t.number (k :: r) = t.number [k] + c.number r :=
        fun r hr => number_append hat hr
      rw [hnumber q (mem_places_iff.mpr ⟨sub, hsub⟩),
        rows_child_getElem? hc (number_lt_size hsub), ih hsub, if_neg (List.cons_ne_nil k q),
        ← Nat.add_assoc id]
      congr 2
      -- the parent of a child of the root is the root, and any other stays in the same child
      split
      · next hnil => rw [hnil, List.dropLast_singleton, number_nil, Nat.add_zero]
      · next hne =>
        obtain ⟨up, hup⟩ := exists_at?_dropLast hsub
        rw [List.dropLast_cons_of_ne_nil hne, hnumber _ (mem_places_iff.mpr ⟨up, hup⟩),
          Nat.add_assoc]

/-- The parent's number. -/
def parentNumber (t : SourceTree) (p : Place) : Option PackageId :=
  if p = [] then none else some (t.number p.dropLast)

theorem parentNumber_concat (t : SourceTree) (p : Place) (k : Nat) :
    t.parentNumber (p ++ [k]) = some (t.number p) := by
  rw [parentNumber, if_neg (List.append_ne_nil_of_right_ne_nil p (List.cons_ne_nil k [])),
    List.dropLast_concat]

/-- The names and numbers of the subpackages at a place. -/
def subpackageNumbers (t : SourceTree) (p : Place) (sub : SourceTree) :
    List (String × PackageId) :=
  sub.children.zipIdx.map fun (c, k) => (c.source.name, t.number (p ++ [k]))

theorem subpackageNumbers_getElem? (t : SourceTree) (p : Place) (sub : SourceTree) (k : Nat) :
    (t.subpackageNumbers p sub)[k]? =
      sub.children[k]?.map fun c => (c.source.name, t.number (p ++ [k])) := by
  rw [subpackageNumbers, List.getElem?_map, List.getElem?_zipIdx, Option.map_map]
  simp [Function.comp_def]

theorem mem_subpackageNumbers_iff {t sub : SourceTree} {p : Place} {name : String}
    {c : PackageId} :
    (name, c) ∈ t.subpackageNumbers p sub ↔
      ∃ k child, sub.children[k]? = some child ∧ name = child.source.name ∧
        c = t.number (p ++ [k]) := by
  simp only [List.mem_iff_getElem?, subpackageNumbers_getElem?, Option.map_eq_some_iff,
    Prod.mk.injEq]
  constructor
  · rintro ⟨k, child, hchild, rfl, rfl⟩
    exact ⟨k, child, hchild, rfl, rfl⟩
  · rintro ⟨k, child, hchild, rfl, rfl⟩
    exact ⟨k, child, hchild, rfl, rfl⟩

theorem numbered_getElem? (next : Nat) (children : List SourceTree) (k : Nat) :
    (numbered next children)[k]? =
      children[k]?.map fun c => (c.source.name, next + sizeBefore children k) := by
  induction children generalizing next k with
  | nil => simp [numbered]
  | cons c rest ih =>
      cases k with
      | zero => rfl
      | succ k =>
          rw [numbered, List.getElem?_cons_succ, List.getElem?_cons_succ, ih]
          simp [sizeBefore, Nat.add_assoc]

theorem numbered_eq_subpackageNumbers {t sub : SourceTree} {p : Place} (h : t.at? p = some sub) :
    numbered (t.number p + 1) sub.children = t.subpackageNumbers p sub := by
  refine List.ext_getElem? fun k => ?_
  rw [numbered_getElem?, subpackageNumbers_getElem?]
  cases hc : sub.children[k]? with
  | none => rfl
  | some c =>
      have hk : [k] ∈ sub.places :=
        mem_places_iff.mpr ⟨c, at?_cons_eq_some_iff.mpr ⟨c, hc, rfl⟩⟩
      simp [number_append h hk, number_singleton hc, Nat.add_assoc]

/-- In a whole tree the parent of a package of a subtree has the number that it has in the subtree,
counted from the subtree's root on. -/
theorem HasPackage.parentNumber_append {t sub leaf : SourceTree} {i j : Nat} {p q : Place}
    (h : t.HasPackage i p sub) (hleaf : sub.HasPackage j q leaf) (hne : q ≠ []) :
    t.parentNumber (p ++ q) = (sub.parentNumber q).map (i + ·) := by
  obtain ⟨up, hup⟩ := exists_at?_dropLast hleaf.tree
  rw [parentNumber, parentNumber, if_neg hne, if_neg (List.append_ne_nil_of_right_ne_nil p hne),
    List.dropLast_append_of_ne_nil hne, number_append h.tree (mem_places_iff.mpr ⟨up, hup⟩),
    h.number_eq, Option.map_some]

/-- The same of its subpackages. -/
theorem HasPackage.subpackageNumbers_append {t sub leaf : SourceTree} {i j : Nat} {p q : Place}
    (h : t.HasPackage i p sub) (hleaf : sub.HasPackage j q leaf) :
    t.subpackageNumbers (p ++ q) leaf =
      (sub.subpackageNumbers q leaf).map fun pair => (pair.1, i + pair.2) := by
  refine List.ext_getElem? fun k => ?_
  rw [List.getElem?_map, subpackageNumbers_getElem?, subpackageNumbers_getElem?]
  cases hc : leaf.children[k]? with
  | none => rfl
  | some c =>
      have hat : sub.at? (q ++ [k]) = some c := (at?_concat hleaf.tree k).trans hc
      simp [number_append h.tree (mem_places_iff.mpr ⟨c, hat⟩), h.number_eq]

/-- The row of a package in the table of the whole tree. -/
theorem HasPackage.row {t sub : SourceTree} {i : Nat} {p : Place} (h : t.HasPackage i p sub) :
    (rows rootId none t)[i]? =
      some ⟨i, sub.source, t.parentNumber p, t.subpackageNumbers p sub⟩ := by
  have hrow := rows_number h.tree rootId none
  rw [← numbered_eq_subpackageNumbers h.tree, ← h.number_eq, hrow]
  simp [rootId, parentNumber]

end SourceTree

end BlueprintPackages
