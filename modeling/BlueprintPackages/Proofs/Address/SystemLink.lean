import BlueprintPackages.Proofs.Address.Composition
import BlueprintPackages.Proofs.Address.RoundTrip

/-!
# What the link to the system package is for

Two trees that are built from the same sources with different links have the same nodes. A package
then has a `Counterpart` in the other tree, the package of its number there, and whatever is asked
of the two about their nodes is answered alike. Of all steps of a walk only that of a segment
`system` asks for the link, so steps of other segments go from counterparts to counterparts, or fail
with one error (`Counterpart.step`), and so do walks without such a segment (`Counterpart.walk`).

Building asks for no link at all. A type that reads like an address in the system package is a tag
of the registry and nothing else, and it makes no difference whether there is a system package
(`Loader.link_is_for_system_segments`).
-/

namespace BlueprintPackages

namespace Package

/-- Packages of one number in two trees. -/
structure Counterpart (t t' : PackageTree) (p q : Package) : Prop where
  left : p.tree = t
  right : q.tree = t'
  id : p.id.val = q.id.val

/-- None of the package segments of an address is `system`, once its alias is expanded. -/
def AvoidsSystem (p : Package) (address : String) : Prop :=
  ∀ text segments name, p.Expands address text → Address.SplitsInto text segments name →
    systemName ∉ segments

end Package

/-- The same entity, found in counterparts. -/
structure Resolved.Counterpart {α : Type} (t t' : PackageTree) (found found' : Resolved α) :
    Prop where
  package : Package.Counterpart t t' found.package found'.package
  entity : found.entity = found'.entity

namespace Package

open Fallible (Agree)

variable {t t' : PackageTree} {p q : Package} {address text name : String}

/-! ## Packages -/

theorem counterpart_root (t t' : PackageTree) : Counterpart t t' t.root t'.root := ⟨rfl, rfl, rfl⟩

theorem Counterpart.root (h : Counterpart t t' p q) : Counterpart t t' p.root q.root := by
  rw [Package.root, Package.root, h.left, h.right]
  exact counterpart_root t t'

section SameNodes

variable (hnodes : t.nodes = t'.nodes) (h : Counterpart t t' p q)

include hnodes

theorem package?_counterpart (i : PackageId) :
    (t.package? i = none ∧ t'.package? i = none) ∨
      ∃ r s, t.package? i = some r ∧ t'.package? i = some s ∧ Counterpart t t' r s := by
  have hsize : t.size = t'.size := congrArg List.length hnodes
  unfold PackageTree.package?
  by_cases hi : i < t.size
  · have hi' : i < t'.size := hsize ▸ hi
    rw [dif_pos hi, dif_pos hi']
    exact .inr ⟨_, _, rfl, rfl, rfl, rfl, rfl⟩
  · have hi' : ¬ i < t'.size := hsize ▸ hi
    rw [dif_neg hi, dif_neg hi']
    exact .inl ⟨rfl, rfl⟩

include h

theorem Counterpart.node_eq : p.node = q.node := by
  have hp := p.nodes_getElem? h.left
  have hq := q.nodes_getElem? h.right
  rw [hnodes, h.id, hq] at hp
  exact (Option.some.inj hp).symm

theorem Counterpart.name_eq : p.name = q.name := by
  rw [Package.name, h.node_eq hnodes, Package.name]

theorem Counterpart.subpackage (name : String) :
    Agree (Counterpart t t') (p.subpackage name) (q.subpackage name) := by
  unfold Package.subpackage
  rw [h.node_eq hnodes, h.left, h.right, notFound, notFound, h.name_eq hnodes]
  cases q.node.subpackages.get? name with
  | none => exact .error _
  | some i =>
      rw [Option.bind_some, Option.bind_some]
      rcases package?_counterpart hnodes i with ⟨hnone, hnone'⟩ | ⟨r, s, hr, hs, hrs⟩
      · rw [hnone, hnone']
        exact .error _
      · rw [hr, hs]
        exact .ok hrs

theorem Counterpart.blueprint (name : String) : p.blueprint name = q.blueprint name := by
  unfold Package.blueprint
  rw [h.node_eq hnodes, notFound, notFound, h.name_eq hnodes]

theorem Counterpart.enumeration (name : String) : p.enumeration name = q.enumeration name := by
  unfold Package.enumeration
  rw [h.node_eq hnodes, notFound, notFound, h.name_eq hnodes]

/-! ## Walks -/

theorem Counterpart.step {current current' : Option Package}
    (hcurrent : Option.Rel (Counterpart t t') current current') {segment : Segment}
    (hsegment : segment ≠ .system) :
    Agree (Counterpart t t') (p.step address current segment)
      (q.step address current' segment) := by
  cases segment with
  | root => exact .ok h.root
  | system => exact absurd rfl hsegment
  | name text =>
      cases hcurrent with
      | none =>
          have hroot := h.root
          rw [Package.step, Package.step, hroot.name_eq hnodes]
          split
          · exact .ok hroot
          · exact .error _
      | some hrs => exact hrs.subpackage hnodes text

/-- A walk that is not asked for the system package goes the same way in both trees. -/
theorem Counterpart.walk {current current' : Option Package}
    (hcurrent : Option.Rel (Counterpart t t') current current') {segments : List Segment}
    (hsegments : Segment.system ∉ segments) :
    Agree (Counterpart t t') (p.walk address current segments)
      (q.walk address current' segments) := by
  induction segments generalizing current current' with
  | nil =>
      cases hcurrent with
      | none => exact .ok h
      | some hrs => exact .ok hrs
  | cons segment rest ih =>
      rw [List.mem_cons, not_or] at hsegments
      have hstep : Agree (Counterpart t t') (p.step address current segment)
          (q.step address current' segment) := h.step hnodes hcurrent (Ne.symm hsegments.1)
      exact hstep.bind fun r s hrs => ih (.some hrs) hsegments.2

end SameNodes

/-! ## Lookups -/

/-- At the ends of two ways that lead to counterparts a name is looked up alike, if it is looked up
alike in all counterparts. -/
theorem agree_bind_find {α : Type} {find : Package → String → Except LookupError α}
    (hfind : ∀ r s, Counterpart t t' r s → find r name = find s name)
    {owner owner' : Except LookupError Package} (h : Agree (Counterpart t t') owner owner') :
    Agree (Resolved.Counterpart t t') (owner >>= fun r => (find r name).map (Resolved.mk r))
      (owner' >>= fun s => (find s name).map (Resolved.mk s)) := by
  refine h.bind fun r s hrs => ?_
  rw [hfind r s hrs]
  cases find s name with
  | error error => exact .error error
  | ok entity => exact .ok ⟨hrs, rfl⟩

/-- What is looked up at the ends of two ways is found alike. -/
theorem LooksUp.agree (hnodes : t.nodes = t'.nodes) {owner owner' : Except LookupError Package}
    (hp : p.LooksUp address owner name) (hq : q.LooksUp address owner' name)
    (h : Agree (Counterpart t t') owner owner') :
    Agree (Resolved.Counterpart t t') (p.blueprintAt address) (q.blueprintAt address) ∧
      Agree (Resolved.Counterpart t t') (p.enumerationAt address) (q.enumerationAt address) := by
  rw [hp.blueprint, hq.blueprint, hp.enumeration, hq.enumeration]
  constructor
  · exact agree_bind_find (fun r s hrs => hrs.blueprint hnodes name) h
  · exact agree_bind_find (fun r s hrs => hrs.enumeration hnodes name) h

theorem avoidsSystem_of_parts {segments : List String} (hcolon : ':' ∉ address.toList)
    (hparts : Address.Parts address (segments ++ [name])) (hne : segments ≠ [])
    (hsystem : systemName ∉ segments) : p.AvoidsSystem address := by
  intro text segments' name' hexpands hsplit
  cases hexpands with
  | plain _ =>
      obtain ⟨rfl, -⟩ := (hparts.splitsInto hne).unique hsplit
      exact hsystem
  | expanded huses _ =>
      rw [huses.eq] at hcolon
      exact absurd (by simp) hcolon

theorem system_not_mem_map_ofText {segments : List String} (h : systemName ∉ segments) :
    Segment.system ∉ segments.map Segment.ofText := by
  rw [List.mem_map]
  rintro ⟨segment, hsegment, hsystem⟩
  rcases Segment.empty_or_system_or_isName segment with rfl | rfl | hname
  · exact nomatch hsystem
  · exact h hsegment
  · rw [hname.ofText_eq] at hsystem
    exact nomatch hsystem

/-- Where trees differ in nothing but their links, an address without a segment `system` has the
same outcome from both of two counterparts. -/
theorem Counterpart.lookup (hnodes : t.nodes = t'.nodes) (h : Counterpart t t' p q)
    (havoids : p.AvoidsSystem address) :
    Agree (Resolved.Counterpart t t') (p.blueprintAt address) (q.blueprintAt address) ∧
      Agree (Resolved.Counterpart t t') (p.enumerationAt address) (q.enumerationAt address) := by
  have halias : ∀ aliasName, p.alias? aliasName = q.alias? aliasName := by
    intro aliasName
    rw [alias?, h.node_eq hnodes, alias?]
  rcases p.expands_or_unresolved address with ⟨text, hp⟩ | ⟨aliasName, rest, huses, hnone⟩
  -- the aliases are in the nodes, so both packages expand the address to one text
  · have hq : q.Expands address text := by
      cases hp with
      | plain hcolon => exact .plain hcolon
      | expanded huses hmeaning => exact .expanded huses (halias _ ▸ hmeaning)
    rcases Address.slash_free_or_splitsInto text with hslash | ⟨segments, name, hsplit⟩
    · have hhere : ∀ r : Package, r.Expands address text →
          r.resolve address =
            (Except.ok r : Except LookupError Package).map fun s => (s, text) := by
        intro r hr
        rw [resolve_of_expands hr, follow_of_slash_free hslash]
        rfl
      exact (looksUp_of_resolve (hhere p hp)).agree hnodes (looksUp_of_resolve (hhere q hq))
        (.ok h)
    · have hsystem := system_not_mem_map_ofText (havoids text segments name hp hsplit)
      exact (looksUp_of_splitsInto hp hsplit).agree hnodes (looksUp_of_splitsInto hq hsplit)
        (h.walk hnodes .none hsystem)
  · have hfails : ∀ r : Package, r.alias? aliasName = none → r.name = p.name →
        r.LooksUp address (.error (.unresolvedAlias aliasName p.name)) "" := by
      intro r hr hname
      apply looksUp_of_resolve
      rw [resolve_of_unresolved huses hr, hname]
      rfl
    exact (hfails p hnone rfl).agree hnodes
      (hfails q (halias _ ▸ hnone) (h.name_eq hnodes).symm) (.error _)

end Package

/-! ## Building and loading -/

/-- A type without colon is the tag that the registry is asked for, whatever it reads like. -/
theorem PackageSource.entityOf_of_colon_free {s : PackageSource} {registry : Registry}
    {id : PackageId} {d : Definition} {tag : String} (htype : d.requiredText "type" = .ok tag)
    (hcolon : ':' ∉ tag.toList) : s.entityOf registry id d = registry.construct tag d id := by
  have htag : s.tagOf d = .ok tag :=
    tagOf_eq_ok_iff.mpr (.plain htype (Address.split?_eq_none_iff.mpr (.inl hcolon)))
  rw [entityOf, htag]
  rfl

/-- The link is there while a tree is built, but no package that is built asks for it. -/
theorem SourceTree.toTree_relink (source : SourceTree) (registry : Registry)
    (system system' : SystemLink PackageTree) (stamp stamp' : Nat) :
    Fallible.Agree (fun t t' : PackageTree => t.nodes = t'.nodes)
      (source.toTree registry system stamp) (source.toTree registry system' stamp') := by
  rw [toTree_eq_rows, toTree_eq_rows]
  exact .bind_same fun top => .bind_same fun others => .ok rfl

namespace Loader

theorem loadWith_relink (l : Loader) (fs : FileSystem) (path : String)
    (system system' : SystemLink PackageTree) (stamp stamp' : Nat) :
    Fallible.Agree (fun t t' : PackageTree => t.nodes = t'.nodes)
      (l.loadWith system fs stamp path) (l.loadWith system' fs stamp' path) := by
  unfold loadWith
  cases SourceTree.read fs path with
  | error error => exact .error _
  | ok source =>
      have hagree := source.toTree_relink l.registry system system' stamp stamp'
      dsimp only
      generalize source.toTree l.registry system stamp = built at hagree ⊢
      generalize source.toTree l.registry system' stamp' = built' at hagree ⊢
      cases hagree with
      | error error => exact .error _
      | ok hnodes => exact .ok hnodes

/-- Whatever two trees link to: with the same sources and registry they have the same nodes, or both
fail to be built with one error, and so it is when they are loaded. A type without alias is a tag of
the registry, also if it reads like an address in a system package. And two packages of one number
answer every address alike that has no segment `system`: they find the same entity in packages of
one number, each in its own tree, or fail with one error. -/
theorem link_is_for_system_segments (system system' : SystemLink PackageTree)
    (stamp stamp' : Nat) :
    (∀ (source : SourceTree) (registry : Registry),
      Fallible.Agree (fun t t' : PackageTree => t.nodes = t'.nodes)
        (source.toTree registry system stamp) (source.toTree registry system' stamp')) ∧
    (∀ (l : Loader) (fs : FileSystem) (path : String),
      Fallible.Agree (fun t t' : PackageTree => t.nodes = t'.nodes)
        (l.loadWith system fs stamp path) (l.loadWith system' fs stamp' path)) ∧
    (∀ (s : PackageSource) (registry : Registry) (id : PackageId) (d : Definition) (tag : String),
      d.requiredText "type" = .ok tag → ':' ∉ tag.toList →
        s.entityOf registry id d = registry.construct tag d id) ∧
    ∀ (source : SourceTree) (registry : Registry) (t t' : PackageTree),
      source.toTree registry system stamp = .ok t →
      source.toTree registry system' stamp' = .ok t' →
        ∀ p q, Package.Counterpart t t' p q → ∀ address, p.AvoidsSystem address →
          Fallible.Agree (Resolved.Counterpart t t') (p.blueprintAt address)
              (q.blueprintAt address) ∧
            Fallible.Agree (Resolved.Counterpart t t') (p.enumerationAt address)
              (q.enumerationAt address) := by
  refine ⟨?_, ?_, ?_, ?_⟩
  · exact fun source registry => source.toTree_relink registry system system' stamp stamp'
  · exact fun l fs path => l.loadWith_relink fs path system system' stamp stamp'
  · exact fun s registry id d tag htype hcolon => s.entityOf_of_colon_free htype hcolon
  · intro source registry t t' ht ht' p q hpq address havoids
    have hagree := source.toTree_relink registry system system' stamp stamp'
    rw [ht, ht'] at hagree
    cases hagree with
    | ok hnodes => exact hpq.lookup hnodes havoids

/-- Files in which a type reads like an address in the system package, loaded without a system
package and with the bundled one. -/
theorem link_is_for_system_segments_marine : ∃ t linked : PackageTree,
    standard.withoutSystem.load marineFiles 1 "marine" = .ok t ∧
      standard.load marineFiles 2 "marine" = .ok linked ∧ t.nodes = linked.nodes ∧
      t.root.AvoidsSystem "marine/hull/Plate" ∧
      ∃ found found', t.root.blueprintAt "marine/hull/Plate" = .ok found ∧
        linked.root.blueprintAt "marine/hull/Plate" = .ok found' ∧
        Resolved.Counterpart t linked found found' := by
  obtain ⟨-, hloads, -, hlookup⟩ :=
    link_is_for_system_segments .absent (.external SystemPackage.bundled) 1 2
  have hfinds : (standard.withoutSystem.load marineFiles 1 "marine").map
      (fun t => (t.root.blueprintAt "marine/hull/Plate").isOk) = .ok true := by decide +kernel
  obtain ⟨t, hload, hfound⟩ := Fallible.map_eq_ok_iff.mp hfinds
  have hagree := hloads standard marineFiles "marine"
  rw [show standard.loadWith .absent marineFiles 1 "marine" = .ok t from hload] at hagree
  obtain ⟨linked, hload', hnodes⟩ := hagree.exists_ok
  have havoids : t.root.AvoidsSystem "marine/hull/Plate" :=
    @Package.avoidsSystem_of_parts _ _ "Plate" ["marine", "hull"] (by decide)
      ⟨by decide, by decide, by decide⟩ (by decide) (by decide)
  obtain ⟨source, hread, ht⟩ := loadWith_eq_ok_iff.mp hload
  obtain ⟨_, hread', ht'⟩ := loadWith_eq_ok_iff.mp hload'
  obtain rfl := Except.ok.inj (hread.symm.trans hread')
  obtain ⟨found, hfound⟩ := Fallible.exists_ok_of_isOk hfound
  have hboth := (hlookup source .simos t linked ht ht' t.root linked.root
    (Package.counterpart_root t linked) _ havoids).1
  rw [hfound] at hboth
  obtain ⟨found', hfound', hcounterpart⟩ := hboth.exists_ok
  exact ⟨t, linked, hload, hload', hnodes, havoids, found, found', hfound, hfound', hcounterpart⟩

end Loader

end BlueprintPackages
