import BlueprintPackages.Proofs.Address.Composition

/-!
# Segments that start a walk anew

An empty segment leads to the root and `system` to the system package. Both are anchors: they are
meant from the tree of the package where the lookup starts, so they do not ask where the walk has
come (`step_anchor`), be it in this tree or in the one that it links to. Of all the segments before
an anchor only one thing remains, the error if they lead nowhere (`walk_append_anchor`).

So what stands before an anchor can be cut off an address that is found, and one anchor is as good
as any number of them (`anchor_resets_walk`).
-/

namespace BlueprintPackages

/-- A text that as a segment of an address leads to one package wherever it stands. -/
def Segment.IsAnchor (text : String) : Prop := text = "" ∨ text = systemName

namespace Package

variable {start : Package} {anchor address : String}

theorem step_anchor (h : Segment.IsAnchor anchor) (current : Option Package) :
    start.step address current (.ofText anchor) = start.step address none (.ofText anchor) := by
  rcases h with rfl | rfl
  · rfl
  · rw [Segment.ofText_systemName, step, step]

theorem walk_anchor (h : Segment.IsAnchor anchor) (current : Option Package)
    (after : List String) :
    start.walk address current ((anchor :: after).map Segment.ofText) =
      start.walk address none ((anchor :: after).map Segment.ofText) := by
  rw [List.map_cons, walk, walk, step_anchor h]

/-- A walk to an anchor and beyond is the walk that starts with the anchor, unless the segments
before it lead nowhere. -/
theorem walk_append_anchor (h : Segment.IsAnchor anchor) (before after : List String) :
    start.walk address none ((before ++ anchor :: after).map Segment.ofText) =
      start.walk address none (before.map Segment.ofText) >>= fun _ =>
        start.walk address none ((anchor :: after).map Segment.ofText) := by
  by_cases hbefore : before = []
  · subst hbefore
    rfl
  · have hne : before.map Segment.ofText ≠ [] := by simpa using hbefore
    rw [List.map_append, walk_append hne]
    apply bind_congr
    intro q
    exact walk_anchor h (some q) after

theorem walk_anchor_twice (h : Segment.IsAnchor anchor) (after : List String) :
    start.walk address none ((anchor :: anchor :: after).map Segment.ofText) =
      start.walk address none ((anchor :: after).map Segment.ofText) := by
  rw [List.map_cons, walk]
  cases hstep : start.step address none (.ofText anchor) with
  | error error =>
      rw [List.map_cons, walk, hstep]
      rfl
  | ok q => exact walk_anchor h (some q) after

theorem walk_repeated_anchor (h : Segment.IsAnchor anchor) (count : Nat)
    (before after : List String) :
    start.walk address none
        ((before ++ List.replicate count anchor ++ anchor :: after).map Segment.ofText) =
      start.walk address none ((before ++ anchor :: after).map Segment.ofText) := by
  induction count with
  | zero => rw [List.replicate_zero, List.append_nil]
  | succ count ih =>
      rw [← ih, List.replicate_succ', ← List.append_assoc, List.append_assoc _ [anchor],
        List.singleton_append, walk_append_anchor h, walk_append_anchor h, walk_anchor_twice h]

/-- Whatever stands before an anchor in an address without colon: if it leads anywhere, the address
is looked up as if it began with the anchor, and if it leads nowhere, the address fails with the
same error. In either case the address that an error quotes is the one that was looked up. An empty
segment leads back to the root of the tree where the lookup starts, whatever tree the walk has come
to, and an anchor that is repeated any number of times does what it does once. -/
theorem anchor_resets_walk {before after : List String} {name : String} (start : Package)
    (hanchor : Segment.IsAnchor anchor) (hcolon : ':' ∉ address.toList)
    (hparts : Address.Parts address (before ++ anchor :: after ++ [name])) :
    (∀ quoted q, start.walk quoted none (before.map Segment.ofText) = .ok q →
      start.AnswersAs address start ("/".intercalate (anchor :: after ++ [name]))) ∧
    (∀ quoted error, start.walk quoted none (before.map Segment.ofText) = .error error →
      start.blueprintAt address = .error (error.quoting address) ∧
        start.enumerationAt address = .error (error.quoting address)) ∧
    (∀ quoted q, start.walk quoted none (before.map Segment.ofText) = .ok q →
      start.walk quoted none ((before ++ [""]).map Segment.ofText) = .ok start.root) ∧
    ∀ count, start.AnswersAs
      ("/".intercalate (before ++ List.replicate count anchor ++ anchor :: after ++ [name]))
      start address := by
  have haddress := start.looksUp_of_parts hcolon hparts (by simp)
  refine ⟨?_, ?_, ?_, ?_⟩
  · intro quoted q hbefore
    have hsub : anchor :: after ++ [name] ⊆ before ++ anchor :: after ++ [name] := by
      rw [List.append_assoc]
      exact List.subset_append_right _ _
    have hcut := start.looksUp_of_parts (hparts.not_mem_of_subset hcolon (by decide) hsub)
      (hparts.of_subset hsub (by simp)) (by simp)
    -- from the anchor on it is one walk, in which the address is only quoted
    refine LooksUp.answersAs ?_ hcut
    rw [walk_append_anchor hanchor, walk_quoting address quoted, hbefore] at haddress
    rw [← walk_quoting]
    exact haddress
  · intro quoted error hbefore
    rw [walk_append_anchor hanchor, walk_quoting address quoted, hbefore] at haddress
    exact haddress.of_error
  · intro quoted q hbefore
    rw [walk_append_anchor (.inl rfl), hbefore]
    rfl
  · intro count
    have hsub : before ++ List.replicate count anchor ++ anchor :: after ++ [name] ⊆
        before ++ anchor :: after ++ [name] := by
      intro part hpart
      simp only [List.mem_append, List.mem_replicate, List.mem_cons] at hpart ⊢
      tauto
    have hrepeated := start.looksUp_of_parts (hparts.not_mem_of_subset hcolon (by decide) hsub)
      (hparts.of_subset hsub (by simp)) (by simp)
    refine LooksUp.answersAs ?_ haddress
    rw [← walk_quoting, ← walk_repeated_anchor hanchor count]
    exact hrepeated

/-- In the bundled tree `system` leads back to the root, also from the subpackage. -/
theorem anchor_resets_walk_bundled : ∃ found : Resolved Blueprint,
    SystemPackage.bundled.root.blueprintAt "system/SIMOS/system/SIMOS/Entity" = .ok found ∧
      SystemPackage.bundled.root.blueprintAt "system/SIMOS/Entity" = .ok found := by
  have hparts : Address.Parts "system/SIMOS/system/SIMOS/Entity"
      (["system", "SIMOS"] ++ "system" :: ["SIMOS"] ++ ["Entity"]) :=
    ⟨by decide, by decide, by decide⟩
  have hwalk : (SystemPackage.bundled.root.walk "" none
      (["system", "SIMOS"].map Segment.ofText)).isOk = true := by decide +kernel
  have hentity : (SystemPackage.bundled.root.blueprintAt "system/SIMOS/Entity").isOk = true := by
    decide +kernel
  obtain ⟨core, hcore⟩ := Fallible.exists_ok_of_isOk hwalk
  obtain ⟨found, hfound⟩ := Fallible.exists_ok_of_isOk hentity
  have hresets := (anchor_resets_walk SystemPackage.bundled.root (.inr rfl) (by decide) hparts).1
  refine ⟨found, ?_, hfound⟩
  rw [(hresets "" core hcore).blueprint]
  show (SystemPackage.bundled.root.blueprintAt "system/SIMOS/Entity").mapError _ = .ok found
  rw [hfound]
  rfl

end Package

end BlueprintPackages
