import BlueprintPackages.Proofs.Source.Growing

/-!
# A tree is its packages, each built by itself

Building a whole tree comes to the same as building each of its packages from its own source and
number and putting the nodes side by side. The numbers are those of the places, which stand in the
order of the dictionary; so the nodes of a tree are told without a word on how they are stored while
the tree is built, and a tree that cannot be built fails as its first bad package does.
-/

namespace BlueprintPackages

namespace SourceTree

/-- A tree can be built just if each of its packages can be built by itself. Then there is one node
for each package: node `i` is what the package at the `i`-th place comes to by itself, with the
number of the package above it as its parent and its subpackages filed under their names. Otherwise
the error is that of the first package, by number, that fails by itself. -/
theorem toTree_agrees_with_packages (registry : Registry) (system : SystemLink PackageTree)
    (stamp : Nat) (t : SourceTree) :
    (t.places.Pairwise (· < ·) ∧ ∀ p, p ∈ t.places ↔ ∃ sub, t.at? p = some sub) ∧
    ((∃ tree, t.toTree registry system stamp = .ok tree) ↔
      ∀ i p sub, t.HasPackage i p sub → ∃ node, sub.source.BuildsTo registry i node) ∧
    (∀ tree, t.toTree registry system stamp = .ok tree ↔
      tree.stamp = stamp ∧ tree.system = system ∧ tree.nodes.length = t.places.length ∧
        ∀ i p sub, t.HasPackage i p sub →
          ∃ node, tree.nodes[i]? = some node ∧ sub.source.BuildsTo registry i node ∧
            node.parent = t.parentNumber p ∧
            node.subpackages = .ofList (t.subpackageNumbers p sub)) ∧
    (∀ error, t.toTree registry system stamp = .error error ↔
      ∃ i p sub, t.HasPackage i p sub ∧ sub.source.Fails registry i error ∧
        ∀ j q other, j < i → t.HasPackage j q other →
          ∃ node, other.source.BuildsTo registry j node) := by
  refine ⟨⟨pairwise_lt_places t, fun p => mem_places_iff⟩, ⟨?_, ?_⟩, fun tree => ?_,
    fun error => ?_⟩
  · rintro ⟨tree, htree⟩ i p sub hpackage
    obtain ⟨-, -, -, hnodes⟩ := toTree_eq_ok_iff.mp htree
    obtain ⟨node, -, hnode⟩ := hnodes i p sub hpackage
    exact ⟨node, hnode.builds⟩
  · intro hall
    refine Fallible.exists_ok_of_forall_ne_error fun error herror => ?_
    obtain ⟨i, p, sub, hpackage, hfails, -⟩ := toTree_eq_error_iff.mp herror
    obtain ⟨node, hbuilds⟩ := hall i p sub hpackage
    exact hbuilds.not_fails hfails
  · rw [toTree_eq_ok_iff]
    refine and_congr_right fun _ => and_congr_right fun _ => and_congr_right fun _ => ?_
    refine forall₄_congr fun i p sub _ => exists_congr fun node => and_congr_right fun _ => ?_
    exact ⟨fun h => ⟨h.builds, h.parent, h.subpackages⟩, fun ⟨hb, hp, hs⟩ => ⟨hb, hp, hs⟩⟩
  · rw [toTree_eq_error_iff]
    constructor
    · rintro ⟨i, p, sub, hpackage, hfails, hearlier⟩
      refine ⟨i, p, sub, hpackage, hfails, fun j q other hj hother => ?_⟩
      obtain ⟨node, hnode⟩ := hearlier j q other hj hother
      exact ⟨node, hnode.builds⟩
    · rintro ⟨i, p, sub, hpackage, hfails, hearlier⟩
      refine ⟨i, p, sub, hpackage, hfails, fun j q other hj hother => ?_⟩
      obtain ⟨node, hbuilds⟩ := hearlier j q other hj hother
      exact exists_hasNode hbuilds

end SourceTree

end BlueprintPackages
