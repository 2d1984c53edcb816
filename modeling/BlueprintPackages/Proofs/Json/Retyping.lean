import BlueprintPackages.Metadata
import BlueprintPackages.Proofs.Fallible
import BlueprintPackages.Proofs.OrderedMap
import BlueprintPackages.VersionTable

/-!
# Objects with another type

To retype an object is to put another text under its key `type`, at the old place
(`Json.retypeMembers`). A text is `RetypedText` of another if it spells the same object, fault for
fault, but for the text that counts as its type. All three readers of files take notice of this
change only: the object that is read is the old one, retyped (`RetypedText.ofText_eq`), as are the
members that are read as a table (`RetypedText.membersOfText_eq`), and as metadata both texts say
the same (`RetypedText.metadata_eq`).
-/

namespace BlueprintPackages

/-- The members with the given text as their type. -/
def Json.retypeMembers (type : String) (members : Members) : Members :=
  OrderedMap.setEntry "type" (.string type) members

/-- The new text spells what the old text spells, but for the quoted text under the last key `type`
of the object that it is. -/
inductive RetypedText (type type' old new : String) : Prop
  | mk (before after : List (Quoted × Outline)) (key value value' : Quoted) (close : Option Fault)
      (more : Bool)
      (hold : Outline.ofText old = (.object (before ++ (key, .quoted value) :: after) close, more))
      (hnew : Outline.ofText new = (.object (before ++ (key, .quoted value') :: after) close, more))
      (hkey : key.text = .ok "type") (hvalue : value.text = .ok type)
      (hvalue' : value'.text = .ok type') (hlast : ∀ m ∈ after, m.1.text ≠ .ok "type") :
      RetypedText type type' old new

/-! ## Quoted texts -/

namespace Quoted

/-- A text between quotation marks in which nothing is escaped. -/
def plain (text : String) : Quoted := ⟨text.toList.map .char, none⟩

theorem text_plain (text : String) : (plain text).text = .ok text := by
  have hcharacters : ∀ cs : List Char, characters (cs.map .char) none = .ok cs := by
    intro cs
    induction cs with
    | nil => rfl
    | cons c rest ih =>
        rw [List.map_cons, characters, ih]
        rfl
  rw [Quoted.text, plain, hcharacters, Except.map, String.ofList_toList]

end Quoted

/-! ## Members -/

namespace Json

variable {type type' : String} {room : Nat}

theorem lookup_retypeMembers_of_ne {key : String} (hkey : key ≠ "type") (members : Members) :
    (retypeMembers type members).lookup key = members.lookup key := by
  rw [retypeMembers, OrderedMap.lookup_setEntry, if_neg hkey]

theorem lookup_retypeMembers_type (members : Members) :
    (retypeMembers type members).lookup "type" = some (.string type) := by
  rw [retypeMembers, OrderedMap.lookup_setEntry, if_pos rfl]

theorem membersOf_replace (value' : Json) {before after : List (String × Json)} {key : String}
    {value : Json} (hlast : ∀ pair ∈ after, pair.1 ≠ key) :
    membersOf (before ++ (key, value') :: after) =
      OrderedMap.setEntry key value' (membersOf (before ++ (key, value) :: after)) := by
  rw [membersOf, OrderedMap.ofList_replace value' hlast]
  rfl

theorem lookup_membersOf {before after : List (String × Json)} {key : String} {value : Json}
    (hlast : ∀ pair ∈ after, pair.1 ≠ key) :
    (membersOf (before ++ (key, value) :: after)).lookup key = some value :=
  OrderedMap.get?_ofList_of_last hlast

/-! ## Members of an outline -/

theorem ofPairs_eq_mapM (members : List (Quoted × Outline)) :
    ofPairs room members = members.mapM fun m => do
      let key ← m.1.text
      let value ← ofOutline room m.2
      return (key, value) := by
  induction members with
  | nil => rfl
  | cons m rest ih =>
      obtain ⟨key, x⟩ := m
      rw [ofPairs, List.mapM_cons, ih]
      simp only [bind_assoc, pure_bind]

/-- A key that is read is one that is spelled. -/
theorem exists_key_of_ofPairs {members : List (Quoted × Outline)} {pairs : List (String × Json)}
    (h : ofPairs room members = .ok pairs) {pair : String × Json} (hpair : pair ∈ pairs) :
    ∃ m ∈ members, m.1.text = .ok pair.1 := by
  rw [ofPairs_eq_mapM, Fallible.mapM_eq_ok_iff] at h
  obtain ⟨i, hi, rfl⟩ := List.mem_iff_getElem.mp hpair
  have hi' : i < members.length := h.length_eq ▸ hi
  obtain ⟨key, hkey, hread⟩ := Fallible.bind_eq_ok_iff.mp (h.get hi' hi)
  obtain ⟨value, -, heq⟩ := Fallible.bind_eq_ok_iff.mp hread
  refine ⟨_, List.getElem_mem hi', ?_⟩
  have hpair := Except.ok.inj heq
  simp only [List.get_eq_getElem] at hkey hpair
  rw [hkey, ← hpair]

theorem ofPairs_append_cons (before after : List (Quoted × Outline)) (key : Quoted) (x : Outline) :
    ofPairs room (before ++ (key, x) :: after) = do
      let pairs ← ofPairs room before
      let name ← key.text
      let value ← ofOutline room x
      let others ← ofPairs room after
      return pairs ++ (name, value) :: others := by
  simp only [ofPairs_eq_mapM, List.mapM_append, List.mapM_cons, bind_assoc, pure_bind]

end Json

/-! ## What the readers make of the other text -/

theorem Quoted.fault_eq_none_of_characters {pieces : List Piece} {fault : Option Fault}
    {cs : List Char} (h : characters pieces fault = .ok cs) : fault = none := by
  fun_induction characters pieces fault generalizing cs with
  | case1 => rfl
  | case2 fault => exact nomatch h
  | case3 fault c rest ih =>
      obtain ⟨tail, htail, -⟩ := Fallible.map_eq_ok_iff.mp h
      exact ih htail
  | case7 fault u _ _ v rest _ ih =>
      obtain ⟨tail, htail, -⟩ := Fallible.map_eq_ok_iff.mp h
      exact ih htail
  | case9 fault u rest _ _ ih =>
      obtain ⟨tail, htail, -⟩ := Fallible.map_eq_ok_iff.mp h
      exact ih htail
  | _ => exact nomatch h

/-- A text that can be read can be passed over. -/
theorem Quoted.skim_of_text {q : Quoted} {s : String} (h : q.text = .ok s) : q.skim = .ok () := by
  obtain ⟨cs, hcs, -⟩ := Fallible.map_eq_ok_iff.mp h
  rw [skim, fault_eq_none_of_characters hcs]

namespace Outline

variable {α β : Type}

/-- A record does not notice a change of what it passes over. -/
theorem recordMembers_replace (first : Field α) (second : Field β) {key : Quoted} {name : String}
    (hkey : key.text = .ok name) (hfirst : name ≠ first.key) (hsecond : name ≠ second.key)
    {x y : Outline} (hskim : x.skim = y.skim) (before after : List (Quoted × Outline))
    (a : Option α) (b : Option β) :
    recordMembers first second a b (before ++ (key, x) :: after) =
      recordMembers first second a b (before ++ (key, y) :: after) := by
  induction before generalizing a b with
  | nil =>
      rw [List.nil_append, List.nil_append, recordMembers, recordMembers, hkey]
      simp only [bind, Except.bind, if_neg hfirst, if_neg hsecond, hskim]
  | cons m rest ih =>
      obtain ⟨other, z⟩ := m
      rw [List.cons_append, List.cons_append, recordMembers, recordMembers]
      simp only [ih]

end Outline

/-- Of a text that is an object both readers of objects read the same members. -/
theorem Json.ofText_eq_map_membersOfText {text : String} {members : List (Quoted × Outline)}
    {close : Option Fault} {more : Bool}
    (houtline : Outline.ofText text = (.object members close, more)) :
    ofText text = (membersOfText text).map .object := by
  have hroom : depthLimit = 126 + 1 := rfl
  simp only [ofText, membersOfText, Outline.readText, houtline, hroom, ofOutline,
    Nat.add_sub_cancel]
  cases ofPairs 126 members with
  | error fault => rfl
  | ok pairs => cases close <;> cases more <;> rfl

namespace RetypedText

variable {type type' old new : String} (h : RetypedText type type' old new)

include h

/-- The members that are read are the old ones with the other type, and the old type is the one that
was replaced. -/
theorem membersOfText_eq_and_lookup :
    Json.membersOfText new = (Json.membersOfText old).map (Json.retypeMembers type') ∧
      ∀ members, Json.membersOfText old = .ok members →
        members.lookup "type" = some (.string type) := by
  obtain ⟨before, after, key, value, value', close, more, hold, hnew, hkey, hvalue, hvalue',
    hlast⟩ := h
  simp only [Json.membersOfText, Outline.readText, hold, hnew, Json.ofPairs_append_cons, hkey,
    Json.ofOutline, hvalue, hvalue']
  cases Json.ofPairs (Json.depthLimit - 1) before with
  | error fault => exact ⟨rfl, fun _ hread => nomatch hread⟩
  | ok pairs =>
      cases hafter : Json.ofPairs (Json.depthLimit - 1) after with
      | error fault => exact ⟨rfl, fun _ hread => nomatch hread⟩
      | ok others =>
          have hothers : ∀ pair ∈ others, pair.1 ≠ "type" := by
            intro pair hpair htype
            obtain ⟨m, hm, htext⟩ := Json.exists_key_of_ofPairs hafter hpair
            exact hlast m hm (htype ▸ htext)
          -- an object that is not closed or not all of the text is not read in either case
          cases close with
          | some fault => exact ⟨rfl, fun _ hread => nomatch hread⟩
          | none =>
              cases more with
              | true => exact ⟨rfl, fun _ hread => nomatch hread⟩
              | false =>
                  constructor
                  · exact congrArg Except.ok (Json.membersOf_replace (.string type') hothers)
                  · intro members hread
                    exact Except.ok.inj hread ▸ Json.lookup_membersOf hothers

theorem membersOfText_eq :
    Json.membersOfText new = (Json.membersOfText old).map (Json.retypeMembers type') :=
  h.membersOfText_eq_and_lookup.1

theorem lookup_of_membersOfText {members : Members} (hread : Json.membersOfText old = .ok members) :
    members.lookup "type" = some (.string type) :=
  h.membersOfText_eq_and_lookup.2 members hread

/-- If the old text is read, then to an object, and otherwise neither is. -/
theorem ofText_eq :
    (∃ fault, Json.ofText old = .error fault ∧ Json.ofText new = .error fault) ∨
      ∃ content, Json.ofText old = .ok (.object content) ∧
        content.lookup "type" = some (.string type) ∧
        Json.ofText new = .ok (.object (Json.retypeMembers type' content)) := by
  have hmembers := h.membersOfText_eq
  have hlookup : ∀ members, Json.membersOfText old = .ok members →
      members.lookup "type" = some (.string type) := fun _ => h.lookup_of_membersOfText
  obtain ⟨before, after, key, value, value', close, more, hold, hnew, -, -, -, -⟩ := h
  rw [Json.ofText_eq_map_membersOfText hold, Json.ofText_eq_map_membersOfText hnew, hmembers]
  cases hread : Json.membersOfText old with
  | error fault => exact .inl ⟨fault, rfl, rfl⟩
  | ok content => exact .inr ⟨content, rfl, hlookup content hread, rfl⟩

theorem lookup_of_ofText {content : Members} (hread : Json.ofText old = .ok (.object content)) :
    content.lookup "type" = some (.string type) := by
  obtain ⟨fault, hfault, -⟩ | ⟨content', hread', htype, -⟩ := h.ofText_eq
  · exact nomatch hfault.symm.trans hread
  · obtain rfl := Json.object.inj (Except.ok.inj (hread'.symm.trans hread))
    exact htype

/-- Metadata have no type, so what stands there is passed over. -/
theorem metadata_eq : Metadata.ofText new = Metadata.ofText old := by
  obtain ⟨before, after, key, value, value', close, more, hold, hnew, hkey, hvalue, hvalue', -⟩ := h
  have hskim : (Outline.quoted value').skim = (Outline.quoted value).skim := by
    rw [Outline.skim, Outline.skim, Quoted.skim_of_text hvalue, Quoted.skim_of_text hvalue']
  have hname : "type" ≠ "name" := by decide
  have hdetails : "type" ≠ "_meta_" := by decide
  have hrecord := Outline.recordMembers_replace ⟨"name", Outline.nullable Outline.text⟩
    ⟨"_meta_", Outline.nullable PackageDetails.ofOutline⟩ hkey hname hdetails hskim before after
    none none
  simp only [Metadata.ofText, Outline.readText, hold, hnew, Metadata.ofOutline, Outline.record,
    hrecord]

end RetypedText

end BlueprintPackages
