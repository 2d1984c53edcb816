import BlueprintPackages.Proofs.Address.Outcome
import BlueprintPackages.Proofs.Tree.Filing

/-!
# What a lookup that succeeds has found

A walk may jump any number of times, back to the root by an empty segment and over to the system
package by `system`, but only the last jump counts: behind it there are names, and these lead down
from where it has led (`Walks.lastLeg`). Both kinds of jump are meant from the tree where the lookup
starts. So the walk ends in that tree or in the one that its link names, and never in a tree that is
linked from there: a tree is larger than the one it links to (`PackageTree.sizeOf_lt_of_external`).

An entity that is found stands in the package where the walk ends, under the last part of the
address, which is its own name, and says that it belongs there (`lookup_sound`).
-/

namespace BlueprintPackages

namespace PackageTree

/-- A tree contains the tree that it links to. -/
theorem sizeOf_lt_of_external {t s : PackageTree} (h : t.system = .external s) :
    sizeOf s < sizeOf t := by
  obtain ⟨stamp, top, others, system⟩ := t
  obtain rfl : system = .external s := h
  simp only [mk.sizeOf_spec, SystemLink.external.sizeOf_spec]
  omega

end PackageTree

namespace Package

/-! ## The last leg of a walk -/

/-- A segment that leads to one package wherever the walk has come before. -/
inductive Jumps (start : Package) : String → Package → Prop
  | root : Jumps start "" start.root
  | system {q : Package} (h : start.system? = some q) : Jumps start systemName q

/-- The names at the end of a list of segments, and the package that they are looked up from: the
one that the last jump leads to, or the root if all segments are names and the first is its own. -/
inductive LastLeg (start : Package) : List String → Package → List String → Prop
  | jump {before names : List String} {segment : String} {base : Package}
      (h : Jumps start segment base) (hnames : ∀ name ∈ names, Segment.IsName name) :
      LastLeg start (before ++ segment :: names) base names
  | first {names : List String} (h : Segment.IsName start.root.name)
      (hnames : ∀ name ∈ names, Segment.IsName name) :
      LastLeg start (start.root.name :: names) start.root names

variable {start p q base : Package} {address : String} {segments names : List String}

/-- From a package that a walk has come to, names lead down from there, unless there is a jump. -/
theorem Walks.descends_or_jumps (h : start.Walks (some p) segments (some q)) :
    ((∀ name ∈ segments, Segment.IsName name) ∧ p.Descends segments q) ∨
      ∃ before segment base names, segments = before ++ segment :: names ∧
        start.Jumps segment base ∧ (∀ name ∈ names, Segment.IsName name) ∧
        base.Descends names q := by
  induction segments generalizing p with
  | nil =>
      cases h
      exact .inl ⟨fun name hname => absurd hname List.not_mem_nil, .here⟩
  | cons text rest ih =>
      cases h with
      | cons hmove hrest =>
          rcases ih hrest with ⟨hnames, hdown⟩ | ⟨before, segment, base, names, rfl, hjump, hlast⟩
          · cases hmove with
            | root => exact .inr ⟨[], "", _, rest, rfl, .root, hnames, hdown⟩
            | system hq => exact .inr ⟨[], systemName, _, rest, rfl, .system hq, hnames, hdown⟩
            | later hname htree hget =>
                have hsub := subpackage_eq_ok_iff.mpr ⟨htree, hget⟩
                exact .inl ⟨List.forall_mem_cons.mpr ⟨hname, hnames⟩, .down hsub hdown⟩
          · exact .inr ⟨text :: before, segment, base, names, rfl, hjump, hlast⟩

/-- A walk ends where the names of its last leg lead. -/
theorem Walks.lastLeg (h : start.Walks none segments (some q)) :
    ∃ base names, start.LastLeg segments base names ∧ base.Descends names q := by
  cases h with
  | @cons _ _ text next rest hmove hrest =>
      rcases hrest.descends_or_jumps with ⟨hnames, hdown⟩ |
        ⟨before, segment, base, names, rfl, hjump, hnames, hdown⟩
      · refine ⟨next, rest, ?_, hdown⟩
        cases hmove with
        | root => exact @LastLeg.jump start [] rest "" _ .root hnames
        | system hq => exact @LastLeg.jump start [] rest systemName _ (.system hq) hnames
        | first hname hroot =>
            subst hroot
            exact .first hname hnames
      · exact ⟨base, names, @LastLeg.jump start (text :: before) _ _ _ hjump hnames, hdown⟩

/-! ## Whose tree it is -/

theorem Jumps.tree {segment : String} (h : start.Jumps segment base) :
    base.tree = start.tree ∨ start.tree.system = .external base.tree := by
  cases h with
  | root => exact .inl rfl
  | system hq =>
      rw [system?] at hq
      split at hq
      · next tree hlink =>
        obtain rfl := Option.some.inj hq
        exact .inr hlink
      · obtain rfl := Option.some.inj hq
        exact .inl rfl
      · cases hq

theorem LastLeg.tree (h : start.LastLeg segments base names) :
    base.tree = start.tree ∨ start.tree.system = .external base.tree := by
  cases h with
  | jump hjump _ => exact hjump.tree
  | first _ _ => exact .inl rfl

/-! ## Soundness -/

/-- A name in a package is what an address stands for, looked up from another package. Its tree is
that of the start or the one linked from there, but none that is linked from the latter. The name is
what stands behind the last slash of the address with its alias expanded. If there is no slash, the
package is the start, and otherwise the last leg of the segments leads to it. -/
structure Reaches (start : Package) (address : String) (owner : Package) (name : String) :
    Prop where
  tree : owner.tree = start.tree ∨ start.tree.system = .external owner.tree
  not_beyond : ∀ near far, start.tree.system = .external near → near.system = .external far →
    owner.tree ≠ far
  way : ∃ text, start.Expands address text ∧
    (('/' ∉ text.toList ∧ owner = start ∧ name = text) ∨
      ∃ segments base names, Address.SplitsInto text segments name ∧
        start.LastLeg segments base names ∧ base.Descends names owner)

theorem Designates.reaches {owner : Package} {name : String}
    (h : start.Designates address owner name) : start.Reaches address owner name := by
  have htree : owner.tree = start.tree ∨ start.tree.system = .external owner.tree := by
    cases h with
    | here _ _ => exact .inl rfl
    | there _ _ hwalk =>
        obtain ⟨base, names, hleg, hdown⟩ := hwalk.lastLeg
        rw [hdown.tree_eq]
        exact hleg.tree
  refine ⟨htree, ?_, ?_⟩
  · intro near far hnear hfar
    -- a linked tree is smaller than the tree that links to it
    have hlt := PackageTree.sizeOf_lt_of_external hnear
    have hlt' := PackageTree.sizeOf_lt_of_external hfar
    rintro rfl
    rcases htree with hown | hlinked
    · rw [hown] at hlt'
      omega
    · obtain rfl : near = owner.tree := SystemLink.external.inj (hnear.symm.trans hlinked)
      omega
  · cases h with
    | here hexpands hslash => exact ⟨_, hexpands, .inl ⟨hslash, rfl, rfl⟩⟩
    | there hexpands hsplit hwalk =>
        obtain ⟨base, names, hleg, hdown⟩ := hwalk.lastLeg
        exact ⟨_, hexpands, .inr ⟨_, base, names, hsplit, hleg, hdown⟩⟩

/-- Only standard trees are reached from a standard tree with a standard system package. -/
theorem Reaches.filed {owner : Package} {name : String} (h : start.Reaches address owner name)
    (hstart : start.tree.Standard)
    (hsystem : ∀ tree, start.tree.system = .external tree → tree.Standard) :
    owner.tree.Filed := by
  rcases h.tree with hown | hlinked
  · rw [hown]
    exact hstart.filed
  · exact (hsystem _ hlinked).filed

/-- Whatever a lookup finds in trees built with the constructors of this library, it has followed
the address to the package that it names as the owner, and the entity is the one that the owner has
under the entity's own name. That name is the end of the address, and the entity belongs to the
owner by its own account. -/
theorem lookup_sound (hstart : start.tree.Standard)
    (hsystem : ∀ tree, start.tree.system = .external tree → tree.Standard) (address : String) :
    (∀ found, start.blueprintAt address = .ok found →
      start.Reaches address found.package found.entity.name ∧
        found.package.blueprint found.entity.name = .ok found.entity ∧
        found.entity.package = found.package.id.val) ∧
    ∀ found, start.enumerationAt address = .ok found →
      start.Reaches address found.package found.entity.name ∧
        found.package.enumeration found.entity.name = .ok found.entity ∧
        found.entity.package = found.package.id.val := by
  constructor
  · intro found hfound
    obtain ⟨name, hdesignates, hget⟩ := blueprintAt_eq_ok_iff.mp hfound
    have hreaches := hdesignates.reaches
    have hfiled := hreaches.filed hstart hsystem
    obtain ⟨rfl, hpackage⟩ := hfiled.blueprint (found.package.nodes_getElem? rfl) hget
    exact ⟨hreaches, blueprint_eq_ok_iff.mpr hget, hpackage⟩
  · intro found hfound
    obtain ⟨name, hdesignates, hget⟩ := enumerationAt_eq_ok_iff.mp hfound
    have hreaches := hdesignates.reaches
    have hfiled := hreaches.filed hstart hsystem
    obtain ⟨rfl, hpackage⟩ := hfiled.enumeration (found.package.nodes_getElem? rfl) hget
    exact ⟨hreaches, enumeration_eq_ok_iff.mpr hget, hpackage⟩

/-- What two `system` segments lead to from a tree that links to the bundled system package is the
system package, as with one. -/
theorem lookup_sound_linked : ∃ (t : PackageTree) (found : Resolved Blueprint),
    t.Standard ∧ t.system = .external SystemPackage.bundled ∧
      t.root.blueprintAt "system/system/SIMOS/Entity" = .ok found ∧
      found.package.tree = SystemPackage.bundled ∧
      found.package.blueprint "Entity" = .ok found.entity := by
  obtain ⟨t, htree⟩ : ∃ t, SourceTree.toTree .simos (.external SystemPackage.bundled) 1
      (.node (SystemPackage.sourceOf "marine" []) []) = .ok t := ⟨_, rfl⟩
  have hstandard : t.Standard := ⟨_, _, _, _, Registry.standard_simos, htree⟩
  have hseen : (t.root.blueprintAt "system/system/SIMOS/Entity").toOption.map
      (fun found => (found.package.tree.stamp, found.entity.name)) =
        some (SystemPackage.stamp, "Entity") := by
    obtain rfl := Except.ok.inj htree
    decide +kernel
  obtain ⟨hstamp, hsystem, -⟩ := SourceTree.toTree_eq_ok_iff.mp htree
  have hlinked : ∀ tree, t.root.tree.system = .external tree → tree.Standard := by
    intro tree hlink
    obtain rfl : SystemPackage.bundled = tree := SystemLink.external.inj (hsystem.symm.trans hlink)
    exact PackageTree.standard_bundled
  cases hfound : t.root.blueprintAt "system/system/SIMOS/Entity" with
  | error error =>
      rw [hfound] at hseen
      exact nomatch hseen
  | ok found =>
      rw [hfound] at hseen
      obtain ⟨hown, hname⟩ := Prod.mk.inj (Option.some.inj hseen)
      obtain ⟨hreaches, hget, -⟩ :=
        (lookup_sound hstandard hlinked "system/system/SIMOS/Entity").1 found hfound
      refine ⟨t, found, hstandard, hsystem, hfound, ?_, hname ▸ hget⟩
      rcases hreaches.tree with hhere | hthere
      · rw [hhere] at hown
        exact absurd (hstamp.symm.trans hown) (by decide)
      · exact (SystemLink.external.inj (hsystem.symm.trans hthere)).symm

end Package

end BlueprintPackages
