import BlueprintPackages.Proofs.Address.Composition
import BlueprintPackages.Proofs.Address.Independence

/-!
# Aliases stand for the first segments of an address

A lookup asks for a table of aliases once, for that of the package where it starts, and before it
walks. To say so, a tree is compared to what is left of it `withoutAliases`, and of the tree that it
links to. There is no alias left to expand (`alias?_withoutAliases`), and a step and a walk there
are those in the tree as it was (`step_withoutAliases`, `walk_withoutAliases`). So whatever the
meaning of an alias begins with, and however often an alias occurs in its own meaning or behind the
colon, it is not expanded again.

What is walked then are the segments of the meaning and of the rest together, one walk after the
other (`alias_expands_once`).
-/

namespace BlueprintPackages

/-! ## Trees without aliases -/

def PackageNode.withoutAliases (node : PackageNode) : PackageNode :=
  { node with aliases := .empty }

namespace PackageTree

/-- The same tree with all tables of aliases emptied, also those of the tree that it links to. -/
def withoutAliases : PackageTree → PackageTree
  | ⟨stamp, top, others, system⟩ =>
    { stamp
      top := top.withoutAliases
      others := others.map PackageNode.withoutAliases
      system := match system with
        | .external tree => .external tree.withoutAliases
        | .own => .own
        | .absent => .absent }

@[simp] theorem nodes_withoutAliases (t : PackageTree) :
    t.withoutAliases.nodes = t.nodes.map PackageNode.withoutAliases := by
  obtain ⟨stamp, top, others, system⟩ := t
  cases system <;> rfl

@[simp] theorem size_withoutAliases (t : PackageTree) : t.withoutAliases.size = t.size := by
  rw [size, nodes_withoutAliases, List.length_map, size]

end PackageTree

namespace Package

/-- The package of the same number in the tree without aliases. -/
def withoutAliases (p : Package) : Package :=
  ⟨p.tree.withoutAliases, p.id.cast p.tree.size_withoutAliases.symm⟩

@[simp] theorem node_withoutAliases (p : Package) :
    p.withoutAliases.node = p.node.withoutAliases := by
  have hget : p.tree.withoutAliases.nodes[p.id.val]? = some p.withoutAliases.node :=
    p.withoutAliases.nodes_getElem? rfl
  rw [PackageTree.nodes_withoutAliases, List.getElem?_map, p.nodes_getElem? rfl] at hget
  exact (Option.some.inj hget).symm

@[simp] theorem root_withoutAliases (p : Package) : p.withoutAliases.root = p.root.withoutAliases :=
  rfl

@[simp] theorem name_withoutAliases (p : Package) : p.withoutAliases.name = p.name := by
  rw [name, node_withoutAliases]
  rfl

/-- There is no alias that would be expanded. -/
theorem alias?_withoutAliases (p : Package) (aliasName : String) :
    p.withoutAliases.alias? aliasName = none := by
  rw [alias?, node_withoutAliases]
  rfl

theorem system?_withoutAliases (p : Package) :
    p.withoutAliases.system? = p.system?.map withoutAliases := by
  obtain ⟨⟨stamp, top, others, system⟩, id⟩ := p
  cases system <;> rfl

theorem package?_withoutAliases (t : PackageTree) (i : PackageId) :
    t.withoutAliases.package? i = (t.package? i).map withoutAliases := by
  unfold PackageTree.package?
  by_cases h : i < t.size
  · have h' : i < t.withoutAliases.size := by simpa using h
    rw [dif_pos h, dif_pos h']
    rfl
  · have h' : ¬ i < t.withoutAliases.size := by simpa using h
    rw [dif_neg h, dif_neg h']
    rfl

theorem subpackage_withoutAliases (p : Package) (name : String) :
    p.withoutAliases.subpackage name = (p.subpackage name).map withoutAliases := by
  have hfound : (p.withoutAliases.node.subpackages.get? name).bind p.withoutAliases.tree.package? =
      ((p.node.subpackages.get? name).bind p.tree.package?).map withoutAliases := by
    rw [node_withoutAliases, Option.map_bind]
    congr 1
    funext i
    exact package?_withoutAliases p.tree i
  unfold subpackage
  rw [hfound, notFound, name_withoutAliases]
  cases (p.node.subpackages.get? name).bind p.tree.package? <;> rfl

theorem blueprint_withoutAliases (p : Package) (name : String) :
    p.withoutAliases.blueprint name = p.blueprint name := by
  rw [blueprint, blueprint, notFound, notFound, node_withoutAliases, name_withoutAliases]
  rfl

theorem enumeration_withoutAliases (p : Package) (name : String) :
    p.withoutAliases.enumeration name = p.enumeration name := by
  rw [enumeration, enumeration, notFound, notFound, node_withoutAliases, name_withoutAliases]
  rfl

theorem step_withoutAliases (start : Package) (address : String) (current : Option Package)
    (segment : Segment) :
    start.withoutAliases.step address (current.map withoutAliases) segment =
      (start.step address current segment).map withoutAliases := by
  cases segment with
  | root => rfl
  | system =>
      rw [step, step, system?_withoutAliases]
      cases start.system? <;> rfl
  | name text =>
      cases current with
      | none =>
          rw [Option.map_none, step, step, root_withoutAliases, name_withoutAliases]
          split <;> rfl
      | some q => exact subpackage_withoutAliases q text

/-- No step of a walk asks for an alias. -/
theorem walk_withoutAliases (start : Package) (address : String) (current : Option Package)
    (segments : List Segment) :
    start.withoutAliases.walk address (current.map withoutAliases) segments =
      (start.walk address current segments).map withoutAliases := by
  induction segments generalizing current with
  | nil => cases current <;> rfl
  | cons segment rest ih =>
      rw [walk, walk, step_withoutAliases]
      cases start.step address current segment with
      | error error => rfl
      | ok next => exact ih (some next)

end Package

/-- The same entity, found in the tree without aliases. -/
def Resolved.withoutAliases {α : Type} (found : Resolved α) : Resolved α :=
  ⟨found.package.withoutAliases, found.entity⟩

namespace Package

variable {p : Package} {address aliasName meaning name rest : String}

/-- A name that is looked up alike with and without aliases is found at the end of a way as it is
found at the end of the same way without aliases. -/
theorem bind_withoutAliases {α : Type} {find : Package → String → Except LookupError α}
    (hfind : ∀ q, find q.withoutAliases name = find q name) (owner : Except LookupError Package) :
    (owner >>= fun q => (find q name).map (Resolved.mk q)).map Resolved.withoutAliases =
      owner.map withoutAliases >>= fun q => (find q name).map (Resolved.mk q) := by
  cases owner with
  | error error => rfl
  | ok q =>
      show ((find q name).map (Resolved.mk q)).map Resolved.withoutAliases =
        (find q.withoutAliases name).map (Resolved.mk q.withoutAliases)
      rw [hfind]
      cases find q name <;> rfl

/-! ## Expanding -/

/-- An alias is the way to a package, or the beginning of one. Its meaning, a slash and what stands
behind the colon are cut into segments, whatever characters they have. These are walked, and as no
table of aliases is asked for on the way, they are walked just so in the tree without aliases. If
there is no colon in this text, every package of the tree answers it as an address in the same way,
apart from the address that is quoted. And if the meaning leads to a package, names behind it lead
down from there. -/
theorem alias_expands_once (hne : aliasName ≠ "") (hcolon : ':' ∉ aliasName.toList)
    (halias : p.alias? aliasName = some meaning) (haddress : address = aliasName ++ ":" ++ rest) :
    (∃ segments name, Address.SplitsInto (meaning ++ "/" ++ rest) segments name ∧
      p.LooksUp address (p.walk address none (segments.map Segment.ofText)) name ∧
      (p.blueprintAt address).map Resolved.withoutAliases =
        p.withoutAliases.walk address none (segments.map Segment.ofText) >>= (fun q =>
          (q.blueprint name).map (Resolved.mk q)) ∧
      (p.enumerationAt address).map Resolved.withoutAliases =
        p.withoutAliases.walk address none (segments.map Segment.ofText) >>= fun q =>
          (q.enumeration name).map (Resolved.mk q)) ∧
    (':' ∉ (meaning ++ "/" ++ rest).toList → ∀ q : Package, q.tree = p.tree →
      p.AnswersAs address q (meaning ++ "/" ++ rest)) ∧
    ∀ way quoted owner names name, Address.Parts meaning way →
      p.walk quoted none (way.map Segment.ofText) = .ok owner →
      Address.Parts rest (names ++ [name]) → (∀ name ∈ names, Segment.IsName name) →
        p.LooksUp address (names.foldlM subpackage owner) name := by
  have hexpands : p.Expands address (meaning ++ "/" ++ rest) :=
    .expanded ⟨haddress, hcolon, hne⟩ halias
  obtain ⟨segments, name, hsplit⟩ :
      ∃ segments name, Address.SplitsInto (meaning ++ "/" ++ rest) segments name := by
    rcases Address.slash_free_or_splitsInto (meaning ++ "/" ++ rest) with hfree | hsplit
    · simp at hfree
    · exact hsplit
  have hlooks := looksUp_of_splitsInto hexpands hsplit
  refine ⟨⟨segments, name, hsplit, hlooks, ?_⟩, ?_, ?_⟩
  · rw [hlooks.blueprint, hlooks.enumeration, ← Option.map_none, walk_withoutAliases]
    constructor
    · exact bind_withoutAliases (fun q => q.blueprint_withoutAliases name) _
    · exact bind_withoutAliases (fun q => q.enumeration_withoutAliases name) _
  · intro hfree q htree
    -- the plain address is looked up from `q`, but there is a segment, so it might be from `p`
    have hsegments : segments.map Segment.ofText ≠ [] := by simpa using hsplit.ne_nil
    have hplain := q.looksUp_of_splitsInto (.plain (.inl hfree)) hsplit
    rw [walk_congr htree hsegments] at hplain
    rw [walk_quoting address (meaning ++ "/" ++ rest)] at hlooks
    exact hlooks.answersAs hplain
  · intro way quoted owner names name hway hwalk hrest hnames
    exact looksUp_below hway hwalk hnames hrest hexpands

/-- A package that calls the bundled core `core`. -/
def dependentSource : SourceTree :=
  .node { SystemPackage.sourceOf "marine" [] with
    metadata := some ⟨none, some ⟨none, [⟨some "core", some "system/SIMOS"⟩]⟩⟩ } []

/-- Behind this alias there is what stands in the bundled core. -/
theorem alias_expands_once_core : ∃ (t : PackageTree) (core : Package),
    dependentSource.toTree .simos (.external SystemPackage.bundled) 1 = .ok t ∧
      t.root.walk "system/SIMOS" none [.system, .name "SIMOS"] = .ok core ∧
      t.root.blueprintAt "core:Entity" = (core.blueprint "Entity").map (Resolved.mk core) ∧
      t.root.AnswersAs "core:Entity" t.root "system/SIMOS/Entity" := by
  obtain ⟨t, htree⟩ :
      ∃ t, dependentSource.toTree .simos (.external SystemPackage.bundled) 1 = .ok t := ⟨_, rfl⟩
  have halias : t.root.alias? "core" = some "system/SIMOS" := by
    obtain rfl := Except.ok.inj htree
    decide
  have hwalk : (t.root.walk "system/SIMOS" none [.system, .name "SIMOS"]).isOk = true := by
    obtain rfl := Except.ok.inj htree
    decide +kernel
  obtain ⟨core, hcore⟩ := Fallible.exists_ok_of_isOk hwalk
  have hexpands := @alias_expands_once t.root "core:Entity" "core" "system/SIMOS" "Entity"
    (by decide) (by decide) halias (by decide)
  have hlooks := hexpands.2.2 ["system", "SIMOS"] "system/SIMOS" core [] "Entity"
    ⟨by decide, by decide, by decide⟩ hcore (.single (by decide)) (by simp)
  exact ⟨t, core, htree, hcore, hlooks.blueprint, hexpands.2.1 (by decide) t.root rfl⟩

end Package

end BlueprintPackages
