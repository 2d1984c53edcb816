import BlueprintPackages.Proofs.Tree.Filing

/-!
# Which entity keeps a name, and where it stands

A package files three lists: its entities as blueprints and as enumerations, and its subpackages.
They need not have different names. What a map holds in the end comes from both ends of the list:
its keys stand where each name came first, and under each key is what came last. `HoldsLast` says so
of one map, of whatever items it was filled from, and says too that nothing else is lost: what is
not found under its own name has been displaced by a later item of the same kind and name.

A map that is filled in order holds the last of each name (`holdsLast_ofList`). So do the three maps
of every package in a tree that was built, and a subpackage that is displaced in its parent's map is
still there in the tree, under a number of its own (`files_last_in_first_place`).
-/

namespace BlueprintPackages

universe u

/-! ## Maps -/

namespace OrderedMap

variable {α ι : Type u}

/-- What is left in a map after items have been put into it one by one. An item may have an entry,
which is its key and value, or else it is not meant for this map. -/
structure HoldsLast (m : OrderedMap α) (pair? : ι → Option (String × α)) (items : List ι) :
    Prop where
  /-- The keys are those of the items, in the order in which each first came. -/
  keys : m.keys = ((items.filterMap pair?).map Prod.fst).eraseDups
  /-- Under a key is the value of the last item that has the key. -/
  get?_iff : ∀ key value, m.get? key = some value ↔
    ∃ before item after, items = before ++ item :: after ∧ pair? item = some (key, value) ∧
      ∀ later ∈ after, ∀ other, pair? later ≠ some (key, other)
  /-- An item is found, unless a later one has its key. -/
  found_or_displaced : ∀ before item after key value, items = before ++ item :: after →
    pair? item = some (key, value) →
      m.get? key = some value ∨ ∃ later ∈ after, ∃ other, pair? later = some (key, other)

variable {pair? : ι → Option (String × α)} {items : List ι}

/-- The pair that is last of its key comes from the item that is last of its key. -/
theorem get?_ofList_filterMap_iff {key : String} {value : α} :
    (ofList (items.filterMap pair?)).get? key = some value ↔
      ∃ before item after, items = before ++ item :: after ∧ pair? item = some (key, value) ∧
        ∀ later ∈ after, ∀ other, pair? later ≠ some (key, other) := by
  rw [get?_ofList_eq_some_iff]
  constructor
  · rintro ⟨front, back, hsplit, hlast⟩
    obtain ⟨before, rest, rfl, -, hrest⟩ := List.filterMap_eq_append_iff.mp hsplit
    obtain ⟨skipped, item, after, rfl, -, hitem, rfl⟩ := List.filterMap_eq_cons_iff.mp hrest
    refine ⟨before ++ skipped, item, after, by simp, hitem, ?_⟩
    intro later hlater other hentry
    have hpair : (key, other) ∈ after.filterMap pair? :=
      List.mem_filterMap.mpr ⟨later, hlater, hentry⟩
    exact hlast _ hpair rfl
  · rintro ⟨before, item, after, rfl, hitem, hlast⟩
    refine ⟨before.filterMap pair?, after.filterMap pair?, by simp [hitem], ?_⟩
    rintro ⟨_, other⟩ hpair rfl
    obtain ⟨later, hlater, hentry⟩ := List.mem_filterMap.mp hpair
    exact hlast later hlater other hentry

theorem holdsLast_ofList (pair? : ι → Option (String × α)) (items : List ι) :
    (ofList (items.filterMap pair?)).HoldsLast pair? items where
  keys := keys_ofList _
  get?_iff := fun _ _ => get?_ofList_filterMap_iff
  found_or_displaced := by
    intro before item after key value hsplit hitem
    by_cases hlater : ∃ later ∈ after, ∃ other, pair? later = some (key, other)
    · exact .inr hlater
    · refine .inl (get?_ofList_filterMap_iff.mpr ⟨before, item, after, hsplit, hitem, ?_⟩)
      intro later hmem other hentry
      exact hlater ⟨later, hmem, other, hentry⟩

end OrderedMap

/-! ## Packages of a tree -/

namespace SourceTree

variable {registry : Registry} {system : SystemLink PackageTree} {stamp : Nat}
  {source sub : SourceTree} {t : PackageTree} {i : Nat} {p : Place}

/-- No two subpackages have one number, whatever their names. -/
theorem pairwise_subpackageNumbers (h : source.at? p = some sub) :
    ((source.subpackageNumbers p sub).map Prod.snd).Pairwise (· < ·) := by
  rw [List.pairwise_map, List.pairwise_iff_getElem]
  intro j k hj hk hlt
  have hfirst := List.getElem?_eq_getElem hj
  have hsecond := List.getElem?_eq_getElem hk
  rw [subpackageNumbers_getElem?, Option.map_eq_some_iff] at hfirst hsecond
  obtain ⟨child, hchild, hpair⟩ := hfirst
  obtain ⟨child', hchild', hpair'⟩ := hsecond
  rw [← hpair, ← hpair']
  have hplace : p ++ [j] < p ++ [k] := List.append_left_lt (List.cons_lt_cons_iff.mpr (.inl hlt))
  exact number_lt_number ((at?_concat h j).trans hchild) ((at?_concat h k).trans hchild') hplace

/-- Of every package of a tree that was built: each of its definitions has come to an entity, and
its blueprints and its enumerations are, each kind by itself, the last of their names among these
entities, at the place of the first. So are its subpackages by the names that they were built with.
There is a node for every subpackage, also for one whose name is now another's, and no two of them
share a node. -/
theorem files_last_in_first_place (h : source.toTree registry system stamp = .ok t)
    (hpackage : source.HasPackage i p sub) :
    ∃ node entities, t.nodes[i]? = some node ∧
      List.Forall₂ (fun d entity => sub.source.Yields registry i d (.ok entity))
        sub.source.definitions entities ∧
      node.blueprints.HoldsLast Entity.blueprint? entities ∧
      node.enumerations.HoldsLast Entity.enumeration? entities ∧
      node.subpackages.HoldsLast some (source.subpackageNumbers p sub) ∧
      ((source.subpackageNumbers p sub).map Prod.snd).Pairwise (· < ·) ∧
      ∀ (k : Nat) (child : SourceTree), sub.children[k]? = some child →
        ∃ below number, (source.subpackageNumbers p sub)[k]? = some (child.source.name, number) ∧
          t.nodes[number]? = some below ∧ below.name = child.source.name ∧
            below.parent = some i := by
  obtain ⟨node, hnode, hhas⟩ := hpackage.node h
  obtain ⟨entities, hyields, hblueprints, henumerations⟩ := hhas.builds.entities
  refine ⟨node, entities, hnode, hyields, ?_, ?_, ?_, pairwise_subpackageNumbers hpackage.tree, ?_⟩
  · rw [hblueprints]
    exact OrderedMap.holdsLast_ofList _ _
  · rw [henumerations]
    exact OrderedMap.holdsLast_ofList _ _
  · rw [hhas.subpackages]
    simpa using OrderedMap.holdsLast_ofList some (source.subpackageNumbers p sub)
  · intro k child hchild
    have hat : source.at? (p ++ [k]) = some child := (at?_concat hpackage.tree k).trans hchild
    obtain ⟨below, hbelow, hchildNode⟩ := (hasPackage_number hat).node h
    refine ⟨below, source.number (p ++ [k]), ?_, hbelow, hchildNode.builds.name, ?_⟩
    · rw [subpackageNumbers_getElem?, hchild, Option.map_some]
    · rw [hchildNode.parent, parentNumber_concat, hpackage.number_eq]

/-- An entity file of the given type tag, name and description. -/
def sketch (type name description : String) : Definition where
  context := name ++ ".json"
  content :=
    [("type", .string type), ("name", .string name), ("description", .string description)]

/-- Two blueprints and an enumeration of one name with another blueprint between them, and three
subpackages of which the first and the last have one name. -/
def rebuiltHull : SourceTree :=
  .node
    (SystemPackage.sourceOf "yard"
      [sketch Registry.blueprintType "Hull" "riveted", sketch Registry.blueprintType "Deck" "",
        sketch Registry.enumType "Hull" "kinds", sketch Registry.blueprintType "Hull" "welded"])
    [.node (SystemPackage.sourceOf "hull" []) [], .node (SystemPackage.sourceOf "deck" []) [],
      .node (SystemPackage.sourceOf "hull" []) []]

/-- In each map the name stands first, as it came first, and leads to the last of its kind. The
enumeration takes nothing from the blueprints. -/
theorem files_last_in_first_place_hull : ∃ t node blueprint enumeration,
    rebuiltHull.toTree .simos .absent 1 = .ok t ∧ t.nodes[0]? = some node ∧
      node.blueprints.keys = ["Hull", "Deck"] ∧ node.blueprints.get? "Hull" = some blueprint ∧
      blueprint.description = "welded" ∧ node.enumerations.keys = ["Hull"] ∧
      node.enumerations.get? "Hull" = some enumeration ∧ enumeration.description = "kinds" ∧
      node.subpackages.keys = ["hull", "deck"] ∧ node.subpackages.get? "hull" = some 3 ∧
      t.size = 4 := by
  obtain ⟨t, htree⟩ : ∃ t, rebuiltHull.toTree .simos .absent 1 = .ok t := ⟨_, rfl⟩
  obtain ⟨node, entities, hnode, hyields, hblueprints, henumerations, hsub, -⟩ :=
    files_last_in_first_place htree (hasPackage_root rebuiltHull)
  simp only [PackageSource.yields_iff, ← Fallible.mapM_eq_ok_iff] at hyields
  obtain ⟨riveted, deck, kinds, welded, rfl, hriveted, hdeck, hkinds, hwelded, hkindsText,
      hweldedText⟩ : ∃ riveted deck kinds welded, entities =
        [.blueprint riveted, .blueprint deck, .enumeration kinds, .blueprint welded] ∧
        riveted.name = "Hull" ∧ deck.name = "Deck" ∧ kinds.name = "Hull" ∧ welded.name = "Hull" ∧
        kinds.description = "kinds" ∧ welded.description = "welded" := by
    obtain rfl := Except.ok.inj hyields
    exact ⟨_, _, _, _, rfl, rfl, rfl, rfl, rfl, rfl, rfl⟩
  refine ⟨t, node, welded, kinds, htree, hnode, ?_, ?_, hweldedText, ?_, ?_, hkindsText, ?_, ?_,
    (toTree_eq_ok_iff.mp htree).2.2.1⟩
  · rw [hblueprints.keys]
    simp only [List.filterMap_cons, List.filterMap_nil, Entity.blueprint?, List.map_cons,
      List.map_nil, hriveted, hdeck, hwelded]
    decide
  · rw [hblueprints.get?_iff]
    exact ⟨[.blueprint riveted, .blueprint deck, .enumeration kinds], .blueprint welded, [], rfl,
      by rw [Entity.blueprint?, hwelded], by simp⟩
  · rw [henumerations.keys]
    simp only [List.filterMap_cons, List.filterMap_nil, Entity.enumeration?, List.map_cons,
      List.map_nil, hkinds]
    decide
  · rw [henumerations.get?_iff]
    exact ⟨[.blueprint riveted, .blueprint deck], .enumeration kinds, [.blueprint welded], rfl,
      by rw [Entity.enumeration?, hkinds], by simp [Entity.enumeration?]⟩
  · rw [hsub.keys]
    decide
  · rw [hsub.get?_iff]
    exact ⟨[("hull", 1), ("deck", 2)], ("hull", 3), [], by decide, rfl, by simp⟩

end SourceTree

end BlueprintPackages
