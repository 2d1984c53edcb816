import BlueprintPackages.Proofs.Address.Composition
import BlueprintPackages.Proofs.Address.RoundTrip

/-!
# What `system` means

`system` is the root of the system package, under whatever name that root goes. In a tree that is
its own system package it leads where an empty segment leads (`walk_systemAsRoot`), so such a tree
never lacks a system package. In a tree that was loaded with another tree as its system package,
what stands behind `system` is looked up in that other tree, just as it is looked up there behind an
empty segment; it does not matter what that tree in its turn takes for its system package.
-/

namespace BlueprintPackages

/-- An empty segment in place of `system`. -/
def Segment.systemAsRoot (text : String) : String := if text = systemName then "" else text

namespace Package

variable {start : Package} {address : String}

/-! ## Trees that are their own system package -/

theorem step_systemAsRoot (h : start.tree.system = .own) (address address' : String)
    (current : Option Package) (text : String) :
    start.step address' current (.ofText (Segment.systemAsRoot text)) =
      start.step address current (.ofText text) := by
  unfold Segment.systemAsRoot
  rcases Segment.empty_or_system_or_isName text with rfl | rfl | hname
  · rfl
  · have hsystem : start.system? = some start.root := by rw [system?, h]
    rw [if_pos rfl, Segment.ofText_empty, Segment.ofText_systemName, step, step, hsystem]
  · rw [if_neg hname.2, hname.ofText_eq]
    cases current with
    | none => rw [step, step]
    | some q => rw [step, step]

theorem walk_systemAsRoot (h : start.tree.system = .own) (address address' : String)
    (current : Option Package) (segments : List String) :
    start.walk address' current ((segments.map Segment.systemAsRoot).map Segment.ofText) =
      start.walk address current (segments.map Segment.ofText) := by
  induction segments generalizing current with
  | nil => rfl
  | cons segment rest ih =>
      rw [List.map_cons, List.map_cons, List.map_cons, walk, walk,
        step_systemAsRoot h address address']
      apply bind_congr
      intro next
      exact ih (some next)

theorem lookup_systemAsRoot (h : start.tree.system = .own) {segments : List String} {name : String}
    (hcolon : ':' ∉ address.toList) (hparts : Address.Parts address (segments ++ [name])) :
    start.blueprintAt ("/".intercalate (segments.map Segment.systemAsRoot ++ [name])) =
        start.blueprintAt address ∧
      start.enumerationAt ("/".intercalate (segments.map Segment.systemAsRoot ++ [name])) =
        start.enumerationAt address := by
  by_cases hne : segments = []
  · subst hne
    rw [hparts.eq, List.map_nil]
    exact ⟨rfl, rfl⟩
  -- the new parts are among those of the address with one more slash before it
  have hrooted : Address.Parts ("" ++ "/" ++ address) ([""] ++ (segments ++ [name])) :=
    (Address.Parts.single (by decide)).append hparts
  have hsub : segments.map Segment.systemAsRoot ++ [name] ⊆ [""] ++ (segments ++ [name]) := by
    intro part hpart
    rcases List.mem_append.mp hpart with hmap | hname
    · obtain ⟨segment, hsegment, rfl⟩ := List.mem_map.mp hmap
      unfold Segment.systemAsRoot
      split <;> simp [hsegment]
    · exact List.mem_append_right _ (List.mem_append_right _ hname)
  have hcolon' : ':' ∉ ("" ++ "/" ++ address).toList := by simpa using hcolon
  have hreplaced := start.looksUp_of_parts (hrooted.not_mem_of_subset hcolon' (by decide) hsub)
    (hrooted.of_subset hsub (by simp)) (by simpa using hne)
  rw [walk_systemAsRoot h address] at hreplaced
  exact hreplaced.unique (start.looksUp_of_parts hcolon hparts hne)

/-- Only a tree without a system package can miss it. -/
theorem ne_noSystemPackage (h : start.tree.Loaded) (hlink : start.tree.system ≠ .absent)
    (address quoted : String) :
    start.blueprintAt address ≠ .error (.noSystemPackage quoted) ∧
      start.enumerationAt address ≠ .error (.noSystemPackage quoted) := by
  have hmisled : ¬ start.Misled address (.noSystemPackage quoted) := by
    intro hmisled
    cases hmisled with
    | noSystemPackage _ _ _ hsystem => exact hlink hsystem
  constructor
  · rw [Ne, blueprintAt_eq_error_iff h]
    rintro (h' | ⟨_, _, _, _, h'⟩)
    · exact hmisled h'
    · exact nomatch h'
  · rw [Ne, enumerationAt_eq_error_iff h]
    rintro (h' | ⟨_, _, _, _, h'⟩)
    · exact hmisled h'
    · exact nomatch h'

/-! ## Trees with another tree as their system package -/

/-- Names behind `system` lead down from the root of the linked tree, as they do in that tree from
an empty segment. -/
theorem lookup_linked {p q : Package} {rest name : String} {names : List String}
    (hlink : p.tree.system = .external q.tree) (hcolon : ':' ∉ rest.toList)
    (hparts : Address.Parts rest (names ++ [name]))
    (hnames : ∀ name ∈ names, Segment.IsName name) :
    p.blueprintAt (systemName ++ "/" ++ rest) = q.blueprintAt ("/" ++ rest) ∧
      p.enumerationAt (systemName ++ "/" ++ rest) = q.enumerationAt ("/" ++ rest) := by
  have hsystem : p.system? = some q.root := by
    rw [system?, hlink]
    rfl
  have hthere : p.walk "" none ([systemName].map Segment.ofText) = .ok q.root := by
    rw [List.map_singleton, Segment.ofText_systemName, walk, step, hsystem]
    rfl
  have hhere : q.walk "" none ([""].map Segment.ofText) = .ok q.root := rfl
  have hp : p.LooksUp (systemName ++ "/" ++ rest) (names.foldlM subpackage q.root) name := by
    apply looksUp_below (.single (by decide)) hthere hnames hparts
    apply Expands.plain
    left
    simpa [systemName] using hcolon
  have hq : q.LooksUp ("/" ++ rest) (names.foldlM subpackage q.root) name := by
    apply looksUp_below (.single (by decide)) hhere hnames hparts
    rw [String.empty_append]
    apply Expands.plain
    left
    simpa using hcolon
  exact hp.unique hq

end Package

/-! ## Loading -/

namespace Loader

variable {l : Loader} {fs : FileSystem} {stamp : Nat} {path : String} {t : PackageTree}

/-- Whatever the roots are called: in a tree loaded as a system package every address without colon
means what it means with empty segments in place of `system`, and no lookup misses a system package.
In a tree loaded with another as its system package, `system`, names and a last name are looked up
from anywhere as they are looked up in the other tree, from anywhere there, behind an empty
segment. -/
theorem system_is_system_root :
    (l.loadSystem fs stamp path = .ok t → ∀ start : Package, start.tree = t →
      ∀ address, ':' ∉ address.toList →
        (∀ segments name, Address.Parts address (segments ++ [name]) →
          start.blueprintAt ("/".intercalate (segments.map Segment.systemAsRoot ++ [name])) =
              start.blueprintAt address ∧
            start.enumerationAt ("/".intercalate (segments.map Segment.systemAsRoot ++ [name])) =
              start.enumerationAt address) ∧
        ∀ quoted, start.blueprintAt address ≠ .error (.noSystemPackage quoted) ∧
          start.enumerationAt address ≠ .error (.noSystemPackage quoted)) ∧
    ∀ s, l.system = .external s → l.load fs stamp path = .ok t →
      ∀ p q : Package, p.tree = t → q.tree = s →
        ∀ rest names name, ':' ∉ rest.toList → Address.Parts rest (names ++ [name]) →
          (∀ name ∈ names, Segment.IsName name) →
            p.blueprintAt (systemName ++ "/" ++ rest) = q.blueprintAt ("/" ++ rest) ∧
              p.enumerationAt (systemName ++ "/" ++ rest) = q.enumerationAt ("/" ++ rest) := by
  constructor
  · intro hload start hstart address hcolon
    subst hstart
    obtain ⟨_, -, htree⟩ := loadWith_eq_ok_iff.mp hload
    have hown : start.tree.system = .own := (SourceTree.toTree_eq_ok_iff.mp htree).2.1
    constructor
    · intro segments name hparts
      exact Package.lookup_systemAsRoot hown hcolon hparts
    · intro quoted
      have hlink : start.tree.system ≠ .absent := by simp [hown]
      exact Package.ne_noSystemPackage (loaded_of_loadSystem hload) hlink address quoted
  · intro s hs hload p q hp hq rest names name hcolon hparts hnames
    subst hp hq
    obtain ⟨_, -, htree⟩ := loadWith_eq_ok_iff.mp hload
    have hlink : p.tree.system = .external q.tree := by
      rw [(SourceTree.toTree_eq_ok_iff.mp htree).2.1, hs]
    exact Package.lookup_linked hlink hcolon hparts hnames

/-- The same directory, loaded as a system package and with the bundled one. -/
theorem system_is_system_root_marine : ∃ own linked : PackageTree,
    standard.loadSystem marineFiles 1 "marine" = .ok own ∧
      standard.load marineFiles 1 "marine" = .ok linked ∧
      own.root.blueprintAt "/hull/Plate" = own.root.blueprintAt "system/hull/Plate" ∧
      linked.root.blueprintAt "system/SIMOS/Entity" =
        SystemPackage.bundled.root.blueprintAt "/SIMOS/Entity" := by
  have hown : (standard.loadSystem marineFiles 1 "marine").isOk = true := by decide +kernel
  have hlinked : (standard.load marineFiles 1 "marine").isOk = true := by decide +kernel
  obtain ⟨own, hload⟩ := Fallible.exists_ok_of_isOk hown
  obtain ⟨linked, hload'⟩ := Fallible.exists_ok_of_isOk hlinked
  have hhere := system_is_system_root.1 hload own.root rfl "system/hull/Plate" (by decide)
  have hroot := hhere.1 ["system", "hull"] "Plate" ⟨by decide, by decide, by decide⟩
  have hthere := system_is_system_root.2 SystemPackage.bundled rfl hload' linked.root
    SystemPackage.bundled.root rfl rfl "SIMOS/Entity" ["SIMOS"] "Entity" (by decide)
    ⟨by decide, by decide, by decide⟩ (by simp [Segment.IsName, systemName])
  exact ⟨own, linked, hload, hload', hroot.1, hthere.1⟩

end Loader

end BlueprintPackages
