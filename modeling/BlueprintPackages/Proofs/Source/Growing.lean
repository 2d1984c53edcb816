import BlueprintPackages.Proofs.Source.Table

/-!
# A tree grows row by row

While a tree is built it is written to in two places: packages are added at its end, and the names
of subpackages are filed in a package that was added long before. `addTo_eq_mapM_rows` and
`addAllTo_eq_mapM_rowsOfAll` say for any tree built so far what that comes to. The packages that
were there stay as they are, but for the names filed in the parent, and behind them stand the rows
of what was added, built one after the other. All that is asked is that the parent is there: then
writing to it and adding at the end do not meet (`modify_append`).

So what has been built never tells how to build the rest, and the nodes of a whole tree are those of
its table (`toTree_eq_ok_iff`).
-/

namespace BlueprintPackages

/-! ## Writing to a tree -/

theorem modify_append_of_lt {α : Type} {xs ys : List α} {i : Nat} {f : α → α} (h : i < xs.length) :
    (xs ++ ys).modify i f = xs.modify i f ++ ys := by
  induction xs generalizing i with
  | nil => exact absurd h (Nat.not_lt_zero i)
  | cons x xs ih =>
      cases i with
      | zero => rfl
      | succ i =>
          rw [List.cons_append, List.modify_succ_cons, List.modify_succ_cons, List.cons_append,
            ih (Nat.lt_of_succ_lt_succ h)]

theorem modify_length_concat {α : Type} (xs : List α) (x : α) (f : α → α) :
    (xs ++ [x]).modify xs.length f = xs ++ [f x] := by
  induction xs with
  | nil => rfl
  | cons y xs ih =>
      rw [List.cons_append, List.length_cons, List.modify_succ_cons, ih, List.cons_append]

namespace PackageNode

/-- Files subpackages in order. -/
def fileAll (node : PackageNode) (pairs : List (String × PackageId)) : PackageNode :=
  pairs.foldl (fun top pair => top.file pair.1 pair.2) node

theorem fileAll_eq (node : PackageNode) (pairs : List (String × PackageId)) :
    node.fileAll pairs = { node with
      subpackages := pairs.foldl (fun m pair => m.insert pair.1 pair.2) node.subpackages } := by
  induction pairs generalizing node with
  | nil => rfl
  | cons pair rest ih => exact ih (node.file pair.1 pair.2)

theorem fileAll_of_empty {node : PackageNode} (h : node.subpackages = .empty)
    (pairs : List (String × PackageId)) :
    node.fileAll pairs = { node with subpackages := .ofList pairs } := by
  rw [fileAll_eq, h]
  rfl

end PackageNode

namespace PackageTree

/-- Adds packages in order. -/
def append (t : PackageTree) (nodes : List PackageNode) : PackageTree :=
  { t with others := t.others ++ nodes }

theorem nodes_append (t : PackageTree) (nodes : List PackageNode) :
    (t.append nodes).nodes = t.nodes ++ nodes := rfl

theorem append_nil (t : PackageTree) : t.append [] = t := by
  obtain ⟨stamp, top, others, system⟩ := t
  exact congrArg (fun rest => PackageTree.mk stamp top rest system) (List.append_nil others)

theorem append_append (t : PackageTree) (nodes nodes' : List PackageNode) :
    (t.append nodes).append nodes' = t.append (nodes ++ nodes') := by
  simp only [append, List.append_assoc]

theorem append_push (t : PackageTree) (node : PackageNode) (nodes : List PackageNode) :
    (t.push node).append nodes = t.append (node :: nodes) :=
  t.append_append [node] nodes

theorem size_append (t : PackageTree) (nodes : List PackageNode) :
    (t.append nodes).size = t.size + nodes.length := by
  rw [size, nodes_append, List.length_append, size]

theorem size_push (t : PackageTree) (node : PackageNode) : (t.push node).size = t.size + 1 :=
  t.size_append [node]

variable {t : PackageTree} {id : PackageId}

theorem size_modify (change : PackageNode → PackageNode) :
    (t.modify id change).size = t.size := by
  cases id with
  | zero => rfl
  | succ id => simp [modify, size, nodes]

theorem modify_same : (t.modify id fun node => node) = t := by
  obtain ⟨stamp, top, others, system⟩ := t
  cases id with
  | zero => rfl
  | succ id =>
      exact congrArg (fun rest => PackageTree.mk stamp top rest system) (List.modify_id id others)

theorem modify_modify (change change' : PackageNode → PackageNode) :
    (t.modify id change).modify id change' = t.modify id fun node => change' (change node) := by
  cases id with
  | zero => rfl
  | succ id => simp only [modify, List.modify_modify_eq, Function.comp_def]

/-- What is written to a package of the tree does not meet what is added to the tree. -/
theorem modify_append (h : id < t.size) (change : PackageNode → PackageNode)
    (nodes : List PackageNode) :
    (t.append nodes).modify id change = (t.modify id change).append nodes := by
  cases id with
  | zero => rfl
  | succ id => simp only [modify, append, modify_append_of_lt (Nat.lt_of_succ_lt_succ h)]

/-- The package added last can still be written to. -/
theorem modify_push (t : PackageTree) (node : PackageNode) (change : PackageNode → PackageNode) :
    (t.push node).modify t.size change = t.push (change node) := by
  simp only [push, size, nodes, List.length_cons, modify, modify_length_concat]

/-- The first of the packages added is filed under its name. -/
theorem file_append (h : id < t.size) (node : PackageNode) (nodes : List PackageNode) :
    (t.append (node :: nodes)).file id t.size =
      (t.modify id fun top => top.file node.name t.size).append (node :: nodes) := by
  have hadded : (t.append (node :: nodes)).nodes[t.size]? = some node :=
    List.getElem?_append_right (Nat.le_refl t.nodes.length) |>.trans (by simp)
  rw [file, hadded]
  exact modify_append h _ _

end PackageTree

/-! ## Building is building the rows -/

namespace SourceTree

variable {registry : Registry}

/-- The first row of a tree is that of its root, so what is built first has the root's name. -/
theorem exists_cons_of_mapM_rows {t : SourceTree} {id : PackageId} {parent : Option PackageId}
    {nodes : List PackageNode} (h : (rows id parent t).mapM (Row.build registry) = .ok nodes) :
    ∃ top below, nodes = top :: below ∧ top.name = t.source.name := by
  obtain ⟨source, children⟩ := t
  rw [Fallible.mapM_eq_ok_iff, rows] at h
  cases h with
  | cons hbuild _ => exact ⟨_, _, rfl, (Row.build_eq_ok_iff.mp hbuild).1.name⟩

theorem addAllTo_eq_mapM_rowsOfAll {children : List SourceTree}
    (h : ∀ c ∈ children, ∀ parent t, addTo registry parent t c =
      ((rows t.size (some parent) c).mapM (Row.build registry)).map t.append)
    {parent : PackageId} {t : PackageTree} (hparent : parent < t.size) :
    addAllTo registry parent t children =
      ((rowsOfAll parent t.size children).mapM (Row.build registry)).map
        (t.modify parent fun top => top.fileAll (numbered t.size children)).append := by
  induction children generalizing t with
  | nil =>
      have hsame : (t.modify parent fun top => top.fileAll (numbered t.size [])) = t :=
        PackageTree.modify_same
      rw [hsame]
      exact congrArg Except.ok t.append_nil.symm
  | cons c rest ih =>
      rw [addAllTo, h c List.mem_cons_self, rowsOfAll, List.mapM_append]
      cases hbuild : (rows t.size (some parent) c).mapM (Row.build registry) with
      | error error => rfl
      | ok nodes =>
          obtain ⟨top, below, rfl, hname⟩ := exists_cons_of_mapM_rows hbuild
          -- as many packages were added as the child has, so the rest goes on where the table says
          have hlength : (top :: below).length = c.size := by
            rw [← (Fallible.mapM_eq_ok_iff.mp hbuild).length_eq, length_rows]
          have hfile := PackageTree.file_append hparent top below
          have hsize := PackageTree.size_append
            (t.modify parent fun node => node.file c.source.name t.size) (top :: below)
          rw [hname] at hfile
          rw [PackageTree.size_modify, hlength] at hsize
          simp only [bind, Except.bind, Except.map, hfile]
          rw [ih (fun d hd => h d (List.mem_cons_of_mem _ hd))
            (hsize ▸ Nat.lt_add_right c.size hparent), hsize,
            PackageTree.modify_append ((PackageTree.size_modify _).symm ▸ hparent),
            PackageTree.modify_modify]
          cases (rowsOfAll parent (t.size + c.size) rest).mapM (Row.build registry) with
          | error error => rfl
          | ok nodes => exact congrArg Except.ok (PackageTree.append_append _ _ _)

/-- Building a package and its subpackages adds their rows to the tree, up to the first row that
fails. -/
theorem addTo_eq_mapM_rows (registry : Registry) (parent : PackageId) (t : PackageTree)
    (source : SourceTree) :
    addTo registry parent t source =
      ((rows t.size (some parent) source).mapM (Row.build registry)).map t.append := by
  induction source using induction generalizing parent t with
  | node source children ih =>
      rw [addTo, rows, List.mapM_cons, Row.build]
      cases htop : source.toNode registry t.size (some parent) with
      | error error => rfl
      | ok top =>
          have hempty : top.subpackages = .empty := (PackageSource.toNode_eq_ok_iff.mp htop).2.2
          have hlast : t.size < (t.push top).size := t.size_push top ▸ Nat.lt_succ_self t.size
          simp only [bind, Except.bind, pure, Except.pure]
          rw [addAllTo_eq_mapM_rowsOfAll ih hlast, PackageTree.modify_push, t.size_push,
            PackageNode.fileAll_of_empty hempty]
          cases (rowsOfAll t.size (t.size + 1) children).mapM (Row.build registry) with
          | error error => rfl
          | ok nodes => exact congrArg Except.ok (PackageTree.append_push t _ nodes)

/-! ## Whole trees -/

variable {system : SystemLink PackageTree} {stamp : Nat} {t : SourceTree}

/-- A whole tree is its rows, the first of which is its root's. -/
theorem toTree_eq_rows (registry : Registry) (system : SystemLink PackageTree) (stamp : Nat)
    (t : SourceTree) :
    t.toTree registry system stamp = do
      let top ← Row.build registry ⟨rootId, t.source, none, numbered (rootId + 1) t.children⟩
      let others ← (rowsOfAll rootId (rootId + 1) t.children).mapM (Row.build registry)
      return { stamp, top, others, system } := by
  obtain ⟨source, children⟩ := t
  rw [toTree, Row.build]
  dsimp only [SourceTree.source, SourceTree.children]
  cases htop : source.toNode registry rootId none with
  | error error => rfl
  | ok top =>
      have hempty : top.subpackages = .empty := (PackageSource.toNode_eq_ok_iff.mp htop).2.2
      have hsize : (PackageTree.mk stamp top [] system).size = rootId + 1 := rfl
      simp only [bind, Except.bind, pure, Except.pure]
      rw [addAllTo_eq_mapM_rowsOfAll (fun c _ parent t => addTo_eq_mapM_rows registry parent t c)
        (hsize ▸ Nat.lt_succ_self rootId), hsize, ← PackageNode.fileAll_of_empty hempty]
      cases (rowsOfAll rootId (rootId + 1) children).mapM (Row.build registry) with
      | error error => rfl
      | ok nodes => rfl

theorem toTree_eq_ok_iff_mapM_rows {tree : PackageTree} :
    t.toTree registry system stamp = .ok tree ↔
      tree.stamp = stamp ∧ tree.system = system ∧
        (rows rootId none t).mapM (Row.build registry) = .ok tree.nodes := by
  obtain ⟨source, children⟩ := t
  rw [toTree_eq_rows, rows, List.mapM_cons]
  simp only [Fallible.bind_eq_ok_iff]
  constructor
  · rintro ⟨top, htop, others, hothers, htree⟩
    obtain rfl := Except.ok.inj htree
    exact ⟨rfl, rfl, top, htop, others, hothers, rfl⟩
  · obtain ⟨stamp', top', others', system'⟩ := tree
    rintro ⟨rfl, rfl, top, htop, others, hothers, hnodes⟩
    obtain ⟨rfl, rfl⟩ := List.cons.inj (Except.ok.inj hnodes)
    exact ⟨top, htop, others, hothers, rfl⟩

theorem toTree_eq_error_iff_mapM_rows {error : BuildError} :
    t.toTree registry system stamp = .error error ↔
      (rows rootId none t).mapM (Row.build registry) = .error error := by
  obtain ⟨source, children⟩ := t
  rw [toTree_eq_rows, rows, List.mapM_cons]
  simp only [Fallible.bind_eq_error_iff, pure, Except.pure, reduceCtorEq, and_false, exists_false,
    or_false]
  rfl

/-- The node of a package is what it comes to by itself, put in its place. -/
structure HasNode (t : SourceTree) (registry : Registry) (i : Nat) (p : Place) (sub : SourceTree)
    (node : PackageNode) : Prop where
  builds : sub.source.BuildsTo registry i node
  parent : node.parent = t.parentNumber p
  subpackages : node.subpackages = .ofList (t.subpackageNumbers p sub)

/-- What builds by itself can be put in its place. -/
theorem exists_hasNode {i : Nat} {p : Place} {sub : SourceTree} {node : PackageNode}
    (h : sub.source.BuildsTo registry i node) : ∃ node', t.HasNode registry i p sub node' := by
  have hplaced := h.placed (t.parentNumber p) (.ofList (t.subpackageNumbers p sub))
  exact ⟨_, hplaced, rfl, rfl⟩

theorem HasPackage.build_row_eq_ok_iff {sub : SourceTree} {i : Nat} {p : Place} {row : Row}
    (h : t.HasPackage i p sub) (hrow : (rows rootId none t)[i]? = some row) {node : PackageNode} :
    row.build registry = .ok node ↔ t.HasNode registry i p sub node := by
  obtain rfl := Option.some.inj (h.row.symm.trans hrow)
  rw [Row.build_eq_ok_iff]
  exact ⟨fun ⟨hb, hp, hs⟩ => ⟨hb, hp, hs⟩, fun ⟨hb, hp, hs⟩ => ⟨hb, hp, hs⟩⟩

theorem HasPackage.build_row_eq_error_iff {sub : SourceTree} {i : Nat} {p : Place} {row : Row}
    (h : t.HasPackage i p sub) (hrow : (rows rootId none t)[i]? = some row) {error : BuildError} :
    row.build registry = .error error ↔ sub.source.Fails registry i error := by
  obtain rfl := Option.some.inj (h.row.symm.trans hrow)
  exact Row.build_eq_error_iff

/-- The sources tell all of the node that a package has. -/
theorem HasPackage.hasNode_unique {sub : SourceTree} {i : Nat} {p : Place}
    {node node' : PackageNode} (h : t.HasPackage i p sub)
    (hnode : t.HasNode registry i p sub node) (hnode' : t.HasNode registry i p sub node') :
    node = node' := by
  have hbuild := (h.build_row_eq_ok_iff h.row).mpr hnode
  have hbuild' := (h.build_row_eq_ok_iff h.row).mpr hnode'
  exact Except.ok.inj (hbuild.symm.trans hbuild')

theorem exists_hasPackage_of_row {i : Nat} {row : Row}
    (hrow : (rows rootId none t)[i]? = some row) : ∃ p sub, t.HasPackage i p sub := by
  obtain ⟨hi, -⟩ := List.getElem?_eq_some_iff.mp hrow
  exact exists_hasPackage (length_rows rootId none t ▸ hi)

/-- A tree is built just if there is a node for every package, and nothing besides. -/
theorem toTree_eq_ok_iff {tree : PackageTree} :
    t.toTree registry system stamp = .ok tree ↔
      tree.stamp = stamp ∧ tree.system = system ∧ tree.size = t.size ∧
        ∀ i p sub, t.HasPackage i p sub →
          ∃ node, tree.nodes[i]? = some node ∧ t.HasNode registry i p sub node := by
  rw [toTree_eq_ok_iff_mapM_rows, Fallible.mapM_eq_ok_iff_getElem?, length_rows]
  refine and_congr_right fun _ => and_congr_right fun _ => and_congr_right fun _ => ?_
  constructor
  · intro h i p sub hpackage
    obtain ⟨node, hnode, hbuild⟩ := h i _ hpackage.row
    exact ⟨node, hnode, (hpackage.build_row_eq_ok_iff hpackage.row).mp hbuild⟩
  · intro h i row hrow
    obtain ⟨p, sub, hpackage⟩ := exists_hasPackage_of_row hrow
    obtain ⟨node, hnode, hhas⟩ := h i p sub hpackage
    exact ⟨node, hnode, (hpackage.build_row_eq_ok_iff hrow).mpr hhas⟩

/-- A tree fails with the error of its first package that fails by itself. -/
theorem toTree_eq_error_iff {error : BuildError} :
    t.toTree registry system stamp = .error error ↔
      ∃ i p sub, t.HasPackage i p sub ∧ sub.source.Fails registry i error ∧
        ∀ j q other, j < i → t.HasPackage j q other →
          ∃ node, t.HasNode registry j q other node := by
  rw [toTree_eq_error_iff_mapM_rows, Fallible.mapM_eq_error_iff_getElem?]
  constructor
  · rintro ⟨i, row, hrow, hfails, hearlier⟩
    obtain ⟨p, sub, hpackage⟩ := exists_hasPackage_of_row hrow
    refine ⟨i, p, sub, hpackage, (hpackage.build_row_eq_error_iff hrow).mp hfails, ?_⟩
    intro j q other hj hother
    obtain ⟨node, hbuild⟩ := hearlier j _ hj hother.row
    exact ⟨node, (hother.build_row_eq_ok_iff hother.row).mp hbuild⟩
  · rintro ⟨i, p, sub, hpackage, hfails, hearlier⟩
    refine ⟨i, _, hpackage.row, (hpackage.build_row_eq_error_iff hpackage.row).mpr hfails, ?_⟩
    intro j row hj hrow
    obtain ⟨q, other, hother⟩ := exists_hasPackage_of_row hrow
    obtain ⟨node, hnode⟩ := hearlier j q other hj hother
    exact ⟨node, (hother.build_row_eq_ok_iff hrow).mpr hnode⟩

/-- In a built tree every package has its node. -/
theorem HasPackage.node {tree : PackageTree} (h : t.toTree registry system stamp = .ok tree)
    {sub : SourceTree} {i : Nat} {p : Place} (hpackage : t.HasPackage i p sub) :
    ∃ node, tree.nodes[i]? = some node ∧ t.HasNode registry i p sub node :=
  (toTree_eq_ok_iff.mp h).2.2.2 i p sub hpackage

/-- Every node of a built tree is that of a package. -/
theorem exists_hasNode_of_node {tree : PackageTree}
    (h : t.toTree registry system stamp = .ok tree) {i : Nat} {node : PackageNode}
    (hnode : tree.nodes[i]? = some node) :
    ∃ p sub, t.HasPackage i p sub ∧ t.HasNode registry i p sub node := by
  obtain ⟨-, -, hsize, hnodes⟩ := toTree_eq_ok_iff.mp h
  obtain ⟨hi, -⟩ := List.getElem?_eq_some_iff.mp hnode
  obtain ⟨p, sub, hpackage⟩ := exists_hasPackage (hsize ▸ hi : i < t.size)
  obtain ⟨node', hnode', hhas⟩ := hnodes i p sub hpackage
  obtain rfl := Option.some.inj (hnode.symm.trans hnode')
  exact ⟨p, sub, hpackage, hhas⟩

end SourceTree

end BlueprintPackages
