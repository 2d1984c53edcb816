import BlueprintPackages.Proofs.Address.Composition
import BlueprintPackages.Proofs.Text.Bytes
import BlueprintPackages.SystemPackage

/-!
# The name as it stands in the address

An alias is expanded to a new text, and the name at its end is found in that. What a lookup goes on
with is however a slice of the address that it was given, counted off from the back by the size of
that name. The two texts have nothing in common but their end. But the expansion puts a slash before
what stands behind the colon, so the last slash never lies in the meaning of the alias, whatever
slashes and colons there are in it. Hence the name is the last part of what stands behind the colon
(`name_is_slice_of_address`), and the slice can begin no earlier than there.
-/

namespace BlueprintPackages

namespace Address

variable {address aliasName rest name : String}

theorem UsesAlias.utf8ByteSize_eq (h : UsesAlias address aliasName rest) :
    address.utf8ByteSize = (aliasName ++ ":").utf8ByteSize + rest.utf8ByteSize := by
  rw [h.eq, String.utf8ByteSize_append]

/-- The slice begins at a character of the address, behind the alias and the colon. -/
theorem UsesAlias.exists_slice (h : UsesAlias address aliasName rest)
    (hend : name.toList <:+ rest.toList) :
    name.utf8ByteSize ≤ address.utf8ByteSize ∧ ∃ pos : address.Pos,
      pos.offset.byteIdx = address.utf8ByteSize - name.utf8ByteSize ∧
        (aliasName ++ ":").utf8ByteSize ≤ pos.offset.byteIdx ∧
        (address.sliceFrom pos).copy = name := by
  obtain ⟨pos, hremaining, hslice⟩ :=
    Text.endOfSize?_eq_some_iff_slice.mp (h.endOfSize? hend)
  rw [Text.byteSize_toList, pos.remainingBytes_eq] at hremaining
  have hsize := h.utf8ByteSize_eq
  have hname := Text.utf8ByteSize_le_of_suffix hend
  have hpos := pos.byteIdx_offset_le_utf8ByteSize
  exact ⟨by omega, pos, by omega, by omega, hslice⟩

end Address

namespace Package

variable {address aliasName rest : String}

/-- The text that an address is expanded to is walked along the parts of the meaning and those
behind the colon, up to the last of these, which is the name. -/
theorem follow_expanded {p : Package} {meaning name : String} {way segments : List String}
    (hway : Address.Parts meaning way) (hrest : Address.Parts rest (segments ++ [name])) :
    p.follow (meaning ++ "/" ++ rest) address =
      (p.walk address none ((way ++ segments).map Segment.ofText)).map
        fun owner => (owner, name) := by
  have hparts : Address.Parts (meaning ++ "/" ++ rest) (way ++ segments ++ [name]) := by
    rw [List.append_assoc]
    exact hway.append hrest
  exact follow_of_splitsInto
    (hparts.splitsInto (List.append_ne_nil_of_left_ne_nil hway.ne_nil segments))

/-- In whichever package and whatever an alias means there: the name that an address comes to
through it is the last part of what stands behind the colon. It is no longer than the address, and
the slice that begins so many bytes before the end of the address begins at a character, behind the
colon, and is that name. So cutting the name off the address never fails, and a lookup goes on with
the name that was found in the expanded text, in the package that its segments lead to. -/
theorem name_is_slice_of_address (huses : Address.UsesAlias address aliasName rest) :
    ∃ segments name, Address.Parts rest (segments ++ [name]) ∧ name.toList <:+ rest.toList ∧
      name.utf8ByteSize ≤ address.utf8ByteSize ∧
      (∃ pos : address.Pos, pos.offset.byteIdx = address.utf8ByteSize - name.utf8ByteSize ∧
        (aliasName ++ ":").utf8ByteSize ≤ pos.offset.byteIdx ∧
        (address.sliceFrom pos).copy = name) ∧
      Text.endOfSize? (Text.byteSize name.toList) address.toList = some name.toList ∧
      ∀ (p : Package) (meaning : String), p.alias? aliasName = some meaning →
        ∃ way, Address.Parts meaning way ∧
          p.follow (meaning ++ "/" ++ rest) address =
            (p.walk address none ((way ++ segments).map Segment.ofText)).map
              (fun owner => (owner, name)) ∧
          p.resolve address = p.follow (meaning ++ "/" ++ rest) address := by
  obtain ⟨segments, name, hrest⟩ := Address.exists_parts rest
  have hend : name.toList <:+ rest.toList := hrest.suffix
  obtain ⟨hle, hslice⟩ := huses.exists_slice hend
  refine ⟨segments, name, hrest, hend, hle, hslice, huses.endOfSize? hend, ?_⟩
  intro p meaning halias
  obtain ⟨way, last, hway⟩ := Address.exists_parts meaning
  exact ⟨way ++ [last], hway, follow_expanded hway hrest,
    resolve_of_expands (.expanded huses halias)⟩

/-- A package with a colon in its name that has an alias for one of its subpackages, where there is
another. -/
def fjordSource : SourceTree :=
  .node { SystemPackage.sourceOf "fjord:inner" [] with
    metadata := some ⟨none, some ⟨none, [⟨some "øst", some "fjord:inner/kai"⟩]⟩⟩ }
    [.node (SystemPackage.sourceOf "kai" []) [.node (SystemPackage.sourceOf "brygge" []) []]]

/-- The alias means a text with a colon and a slash, and the four characters at the end of the
address are five of its seventeen bytes. -/
theorem name_is_slice_of_address_fjord :
    ∃ (t : PackageTree) (owner : Package) (pos : "øst:brygge/Bøye".Pos),
      fjordSource.toTree .simos .absent 1 = .ok t ∧
        t.root.alias? "øst" = some "fjord:inner/kai" ∧
        t.root.resolve "øst:brygge/Bøye" = .ok (owner, "Bøye") ∧ owner.name = "brygge" ∧
        pos.offset.byteIdx = 12 ∧ ("øst:brygge/Bøye".sliceFrom pos).copy = "Bøye" := by
  obtain ⟨t, htree⟩ : ∃ t, fjordSource.toTree .simos .absent 1 = .ok t := ⟨_, rfl⟩
  have halias : t.root.alias? "øst" = some "fjord:inner/kai" := by
    obtain rfl := Except.ok.inj htree
    decide
  obtain ⟨segments, name, hrest, -, -, ⟨pos, hoffset, -, hslice⟩, -, hresolve⟩ :=
    @name_is_slice_of_address "øst:brygge/Bøye" "øst" "brygge/Bøye"
      ⟨by decide, by decide, by decide⟩
  obtain ⟨way, hway, hfollow, hsame⟩ := hresolve t.root "fjord:inner/kai" halias
  obtain rfl : ["fjord:inner", "kai"] = way := Address.parts_iff.mp hway
  have hparts : ["brygge"] ++ ["Bøye"] = segments ++ [name] := Address.parts_iff.mp hrest
  obtain ⟨rfl, hname⟩ := List.append_inj' hparts rfl
  obtain rfl : "Bøye" = name := List.singleton_inj.mp hname
  have hwalk : (t.root.walk "øst:brygge/Bøye" none
      (["fjord:inner", "kai", "brygge"].map Segment.ofText)).map Package.name = .ok "brygge" := by
    obtain rfl := Except.ok.inj htree
    decide +kernel
  obtain ⟨owner, howner, hnamed⟩ := Fallible.map_eq_ok_iff.mp hwalk
  refine ⟨t, owner, pos, htree, halias, ?_, hnamed, ?_, hslice⟩
  · rw [hsame, hfollow]
    exact Fallible.map_eq_ok_iff.mpr ⟨owner, howner, rfl⟩
  · rw [hoffset]
    decide

end Package

end BlueprintPackages
