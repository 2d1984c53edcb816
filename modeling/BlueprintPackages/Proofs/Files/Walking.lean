import BlueprintPackages.Proofs.Fallible
import BlueprintPackages.Proofs.Files.Entries
import BlueprintPackages.Proofs.Text.Cut

/-!
# Walking on from a directory

A walk along some steps either comes to a place, from which it goes on as any walk does that may
follow the links still left, or it fails whatever steps are behind (`walkLinks_append`). A path that
is extended by a name has the steps of the path, but for one that stays at its end, and one step
down (`steps_join`). So the path of an entry of a directory leads to this very entry, if it is no
link and the path is not too long: `node_join` says so, and `entries_join`, `isDirectory_join` and
`readText_join` what follows for all that can be asked of the entry by its path.
-/

namespace BlueprintPackages

/-! ## Steps of an extended path -/

namespace Text

variable {sep : Char}

theorem pieces_append_cons (before after : List Char) :
    pieces sep (before ++ sep :: after) = pieces sep before ++ pieces sep after := by
  induction before with
  | nil => simp [pieces]
  | cons c rest ih =>
      rw [List.cons_append, pieces, pieces, ih]
      by_cases hc : c = sep
      · rw [if_pos hc, if_pos hc, List.cons_append]
      · rw [if_neg hc, if_neg hc]
        cases hrest : pieces sep rest with
        | nil => exact absurd hrest (pieces_ne_nil sep rest)
        | cons first more => rfl

theorem pieces_eq_singleton {text : List Char} (h : sep ∉ text) : pieces sep text = [text] := by
  rw [pieces_eq_splitOn]
  exact List.splitOn_eq_singleton h

end Text

namespace Path

variable {path name : String}

theorem steps_of_toList {before after : List Char}
    (hpath : path.toList = before ++ separator :: after) (hafter : separator ∉ after) :
    steps path = steps (String.ofList before) ++ [Step.ofName (String.ofList after)] := by
  rw [steps, names, hpath, Text.pieces_append_cons, Text.pieces_eq_singleton hafter, steps, names,
    String.toList_ofList]
  simp

theorem steps_join (hpath : path ≠ "") (hname : IsEntryName name) :
    ∃ before, (steps path = before ∨ steps path = before ++ [.stay]) ∧
      steps (join path name) = before ++ [.down name] := by
  have hdown : Step.ofName (String.ofList name.toList) = .down name := by
    rw [String.ofList_toList, hname.leads_down]
  rw [join]
  split
  -- a slash at the end is a step that stays already, and joining adds no second one
  · next hends =>
    have hlast : path.toList.getLast? = some separator := hends.resolve_left hpath
    obtain ⟨front, hfront⟩ := List.getLast?_eq_some_iff.mp hlast
    refine ⟨steps (String.ofList front), .inr ?_, ?_⟩
    · exact steps_of_toList hfront List.not_mem_nil
    · have htext : (path ++ name).toList = front ++ separator :: name.toList := by simp [hfront]
      rw [steps_of_toList htext hname.no_separator, hdown]
  · refine ⟨steps path, .inl rfl, ?_⟩
    have htext : (path ++ "/" ++ name).toList = path.toList ++ separator :: name.toList := by
      simp [separator]
    rw [steps_of_toList htext hname.no_separator, hdown, String.ofList_toList]

/-- A slash at the end is a step that stays. -/
theorem steps_append_separator (path : String) : steps (path ++ "/") = steps path ++ [.stay] := by
  have htext : (path ++ "/").toList = path.toList ++ separator :: [] := by simp [separator]
  rw [steps_of_toList htext List.not_mem_nil, String.ofList_toList]
  rfl

theorem isAbsolute_append (hpath : path ≠ "") (more : String) :
    isAbsolute (path ++ more) = isAbsolute path := by
  obtain ⟨c, rest, htext⟩ : ∃ c rest, path.toList = c :: rest := by
    cases htext : path.toList with
    | nil => exact absurd (String.toList_eq_nil_iff.mp htext) hpath
    | cons c rest => exact ⟨c, rest, rfl⟩
  simp [isAbsolute, htext]

theorem isAbsolute_join (hpath : path ≠ "") : isAbsolute (join path name) = isAbsolute path := by
  rw [join]
  split
  · exact isAbsolute_append hpath name
  · rw [String.append_assoc, isAbsolute_append hpath]

/-- The name of an extended path is the one it was extended by. -/
theorem lastName?_join (hpath : path ≠ "") (hname : IsEntryName name) :
    lastName? (join path name) = some name := by
  obtain ⟨before, -, hsteps⟩ := steps_join hpath hname
  have hmoves : (before ++ [Step.down name]).filter (· ≠ Step.stay) =
      before.filter (· ≠ Step.stay) ++ [.down name] := by
    simp
  simp only [lastName?, splitLast?, hsteps, hmoves, List.getLast?_concat, Option.map_some]

theorem join_append_separator (path name : String) :
    join (path ++ "/") name = path ++ "/" ++ name := by
  rw [join, if_pos]
  simp [separator]

theorem lastName?_append_separator (path : String) : lastName? (path ++ "/") = lastName? path := by
  simp only [lastName?, splitLast?, steps_append_separator, List.filter_append]
  simp

end Path

namespace FileSystem

variable {fs : FileSystem} {allowed : Location → Bool}

/-! ## Walking in two parts -/

/-- How a walk goes when more and more steps are added behind it: on from some place with some links
left, or not at all. -/
def GoesOn (fs : FileSystem) (allowed : Location → Bool)
    (walkTo : List Step → Except AccessError Location) : Prop :=
  (∃ location links, ∀ more, walkTo more = fs.walkLinks allowed links location more) ∨
    ∃ error, ∀ more, walkTo more = .error error

theorem walk_append {follow : Location → String → List Step → Except AccessError Location}
    (hfollow : ∀ directory target rest,
      fs.GoesOn allowed fun more => follow directory target (rest ++ more))
    (hbase : ∃ links, ∀ location more,
      fs.walk allowed follow location more = fs.walkLinks allowed links location more)
    (location : Location) (steps : List Step) :
    fs.GoesOn allowed fun more => fs.walk allowed follow location (steps ++ more) := by
  -- the steps that a link puts in front are not seen by the induction: `hfollow` has them
  induction steps generalizing location with
  | nil =>
      obtain ⟨links, hbase⟩ := hbase
      exact .inl ⟨location, links, fun more => hbase location more⟩
  | cons step rest ih =>
      simp only [List.cons_append, walk]
      cases hat : fs.root.at? location with
      | none => exact .inr ⟨_, fun _ => rfl⟩
      | some node =>
          cases node with
          | file bytes => exact .inr ⟨_, fun _ => rfl⟩
          | link target => exact .inr ⟨_, fun _ => rfl⟩
          | directory entries =>
              cases step with
              | stay => exact ih location
              | up => exact ih location.dropLast
              | down name =>
                  dsimp only
                  split
                  · exact .inr ⟨_, fun _ => rfl⟩
                  · cases entries.lookup name with
                    | none => exact .inr ⟨_, fun _ => rfl⟩
                    | some found =>
                        cases found with
                        | link target => exact hfollow location target rest
                        | file bytes => exact ih (location ++ [name])
                        | directory below => exact ih (location ++ [name])

/-- A walk in two parts: the second goes on from where the first has come to, with the links that
are left, unless the first fails. -/
theorem walkLinks_append (links : Nat) (location : Location) (steps : List Step) :
    fs.GoesOn allowed fun more => fs.walkLinks allowed links location (steps ++ more) := by
  induction links generalizing location steps with
  | zero =>
      exact walk_append (fun _ _ _ => .inr ⟨_, fun _ => rfl⟩) ⟨0, fun _ _ => rfl⟩ location steps
  | succ links ih =>
      refine walk_append (fun directory target rest => ?_) ⟨links + 1, fun _ _ => rfl⟩ location
        steps
      simpa only [List.append_assoc] using ih (start directory target) (Path.steps target ++ rest)

theorem walkLinks_nil (links : Nat) (location : Location) :
    fs.walkLinks allowed links location [] = .ok location := by
  cases links <;> rfl

theorem walkLinks_stay {links : Nat} {location : Location} {entries : List (String × FileNode)}
    (hat : fs.root.at? location = some (.directory entries)) :
    fs.walkLinks allowed links location [.stay] = .ok location := by
  cases links <;>
  · rw [walkLinks, walk, hat]
    rfl

/-- A step that stays leads nowhere else, if it leads anywhere. -/
theorem eq_of_walkLinks_stay {links : Nat} {location found : Location}
    (h : fs.walkLinks allowed links location [.stay] = .ok found) : found = location := by
  cases links <;>
  · rw [walkLinks, walk] at h
    split at h
    · exact (Except.ok.inj h).symm
    · exact nomatch h
    · exact nomatch h

/-- A walk that has come to a place goes on from there. -/
theorem walkFrom_append {location found : Location} {steps : List Step}
    (h : fs.walkFrom location steps = .ok found) :
    ∃ links, ∀ more, fs.walkFrom location (steps ++ more) =
      fs.walkLinks (fun _ => true) links found more := by
  have hgoes : fs.GoesOn (fun _ => true) fun more => fs.walkFrom location (steps ++ more) :=
    walkLinks_append linkLimit location steps
  rcases hgoes with ⟨middle, links, hmore⟩ | ⟨error, hmore⟩
  · have hnil := hmore []
    simp only [List.append_nil, h, walkLinks_nil, Except.ok.injEq] at hnil
    exact ⟨links, hnil ▸ hmore⟩
  · have hnil := hmore []
    simp only [List.append_nil, h] at hnil
    exact nomatch hnil

/-- Without a last step that stays a walk leads to the same place. -/
theorem walkFrom_of_stay {location found : Location} {steps : List Step}
    (h : fs.walkFrom location (steps ++ [.stay]) = .ok found) :
    fs.walkFrom location steps = .ok found := by
  have hgoes : fs.GoesOn (fun _ => true) fun more => fs.walkFrom location (steps ++ more) :=
    walkLinks_append linkLimit location steps
  rcases hgoes with ⟨middle, links, hmore⟩ | ⟨error, hmore⟩
  · have hnil := hmore []
    have hstay := hmore [.stay]
    simp only [List.append_nil, walkLinks_nil] at hnil
    simp only [h] at hstay
    rw [hnil, eq_of_walkLinks_stay hstay.symm]
  · have hstay := hmore [.stay]
    simp only [h] at hstay
    exact nomatch hstay

/-- A step down from a directory leads to the entry of the name, unless that is a link. -/
theorem walkLinks_down {links : Nat} {location : Location} {entries : List (String × FileNode)}
    {name : String} {node : FileNode} (hat : fs.root.at? location = some (.directory entries))
    (hsize : name.utf8ByteSize ≤ nameLimit) (hallowed : allowed (location ++ [name]) = true)
    (hlookup : entries.lookup name = some node) (hlink : ∀ target, node ≠ .link target) :
    fs.walkLinks allowed links location [.down name] = .ok (location ++ [name]) := by
  have hlimit : ¬(nameLimit < name.utf8ByteSize ∨ (!allowed (location ++ [name])) = true) := by
    rw [hallowed]
    simp only [Bool.not_true, Bool.false_eq_true, or_false]
    omega
  cases links <;>
  · rw [walkLinks, walk, hat]
    dsimp only
    rw [if_neg hlimit, hlookup]
    cases node with
    | link target => exact absurd rfl (hlink target)
    | file bytes => rfl
    | directory below => rfl

/-! ## Entries by their paths -/

/-- What a path leads to stands at some location. -/
theorem node_eq_ok_iff {path : String} {node : FileNode} :
    fs.node path = .ok node ↔
      ∃ location, fs.locate path = .ok location ∧ fs.root.at? location = some node := by
  rw [FileSystem.node, Fallible.bind_eq_ok_iff]
  refine exists_congr fun location => and_congr_right fun _ => ?_
  cases fs.root.at? location <;> simp

theorem locate_eq_ok_iff {path : String} {location : Location} :
    fs.locate path = .ok location ↔
      checkPath path = .ok () ∧
        fs.walkFrom (start fs.workingDirectory path) (Path.steps path) = .ok location := by
  rw [locate, Fallible.bind_eq_ok_iff]
  exact ⟨fun ⟨_, hcheck, hwalk⟩ => ⟨hcheck, hwalk⟩, fun ⟨hcheck, hwalk⟩ => ⟨(), hcheck, hwalk⟩⟩

theorem checkText_eq_ok_iff {path : String} :
    checkText path = .ok () ↔ path ≠ "" ∧ '\x00' ∉ path.toList := by
  rw [checkText]
  by_cases hempty : path = ""
  · simp [hempty]
  · by_cases hzero : '\x00' ∈ path.toList <;> simp [hempty, hzero]

theorem checkText_append {path more : String} (h : checkText path = .ok ())
    (hmore : '\x00' ∉ more.toList) : checkText (path ++ more) = .ok () := by
  rw [checkText_eq_ok_iff] at h ⊢
  refine ⟨by simp [h.1], ?_⟩
  rw [String.toList_append, List.mem_append]
  exact not_or.mpr ⟨h.2, hmore⟩

/-- A path that leads somewhere is walked unless it is too long. -/
theorem checkPath_of_checkText {path : String} (h : checkText path = .ok ()) :
    checkPath path = if pathLimit < path.utf8ByteSize then .error .other else .ok () := by
  rw [checkPath, h]
  rfl

theorem checkPath_eq_ok_iff {path : String} :
    checkPath path = .ok () ↔ checkText path = .ok () ∧ path.utf8ByteSize ≤ pathLimit := by
  rw [checkPath]
  cases checkText path with
  | error error => simp [bind, Except.bind]
  | ok _ => simp [bind, Except.bind]

theorem ne_empty_of_checkPath {path : String} (h : checkPath path = .ok ()) : path ≠ "" :=
  (checkText_eq_ok_iff.mp (checkPath_eq_ok_iff.mp h).1).1

variable {path name : String} {entries : List (String × FileNode)} {node : FileNode}

/-- Up to its last step down the walk along an extended path is that along the path. -/
theorem exists_before_of_locate {location : Location} (hlocate : fs.locate path = .ok location)
    (hname : IsEntryName name) :
    ∃ before, (Path.steps path = before ∨ Path.steps path = before ++ [.stay]) ∧
      Path.steps (Path.join path name) = before ++ [.down name] ∧
      start fs.workingDirectory (Path.join path name) = start fs.workingDirectory path ∧
      fs.walkFrom (start fs.workingDirectory path) before = .ok location := by
  obtain ⟨hcheck, hwalk⟩ := locate_eq_ok_iff.mp hlocate
  have hpath : path ≠ "" := ne_empty_of_checkPath hcheck
  obtain ⟨before, hbefore, hsteps⟩ := Path.steps_join hpath hname
  refine ⟨before, hbefore, hsteps, ?_, ?_⟩
  · rw [start, start, Path.isAbsolute_join hpath]
  · rcases hbefore with hbefore | hbefore
    · rw [← hbefore, hwalk]
    · exact walkFrom_of_stay (hbefore ▸ hwalk)

/-- The path of an entry of a directory leads to the entry, if it is no link and the path is not too
long. -/
theorem locate_join {location : Location} (hlocate : fs.locate path = .ok location)
    (hat : fs.root.at? location = some (.directory entries)) (hname : IsEntryName name)
    (hlookup : entries.lookup name = some node) (hlink : ∀ target, node ≠ .link target) :
    fs.locate (Path.join path name) =
      (checkPath (Path.join path name)).map fun _ => location ++ [name] := by
  obtain ⟨before, -, hsteps, hstart, hwalk⟩ := exists_before_of_locate hlocate hname
  obtain ⟨links, hmore⟩ := walkFrom_append hwalk
  rw [locate, hstart, hsteps, hmore, walkLinks_down hat hname.size_le rfl hlookup hlink]
  cases checkPath (Path.join path name) <;> rfl

/-- So what an extended path leads to is the entry. -/
theorem node_join (hdirectory : fs.node path = .ok (.directory entries)) (hname : IsEntryName name)
    (hlookup : entries.lookup name = some node) (hlink : ∀ target, node ≠ .link target) :
    fs.node (Path.join path name) = (checkPath (Path.join path name)).map fun _ => node := by
  obtain ⟨location, hlocate, hat⟩ := node_eq_ok_iff.mp hdirectory
  have hfound : fs.root.at? (location ++ [name]) = some node :=
    FileNode.at?_concat_eq_some_iff.mpr ⟨entries, hat, hlookup⟩
  rw [FileSystem.node, locate_join hlocate hat hname hlookup hlink]
  cases checkPath (Path.join path name) with
  | error error => rfl
  | ok _ => simp [bind, Except.bind, hfound, Except.map]

theorem entries_eq_ok_iff :
    fs.entries path = .ok entries ↔ fs.node path = .ok (.directory entries) := by
  rw [FileSystem.entries]
  cases hnode : fs.node path with
  | error error => simp [bind, Except.bind]
  | ok found => cases found <;> simp [bind, Except.bind]

/-- A slash at the end of the path of a directory makes no difference. -/
theorem entries_append_separator (h : fs.entries path = .ok entries)
    (hcheck : checkPath (path ++ "/") = .ok ()) : fs.entries (path ++ "/") = .ok entries := by
  obtain ⟨location, hlocate, hat⟩ := node_eq_ok_iff.mp (entries_eq_ok_iff.mp h)
  obtain ⟨hcheckPath, hwalk⟩ := locate_eq_ok_iff.mp hlocate
  have hpath : path ≠ "" := ne_empty_of_checkPath hcheckPath
  have hstart : start fs.workingDirectory (path ++ "/") = start fs.workingDirectory path := by
    rw [start, start, Path.isAbsolute_append hpath]
  rw [entries_eq_ok_iff, node_eq_ok_iff]
  refine ⟨location, locate_eq_ok_iff.mpr ⟨hcheck, ?_⟩, hat⟩
  obtain ⟨links, hmore⟩ := walkFrom_append hwalk
  rw [hstart, Path.steps_append_separator, hmore]
  exact walkLinks_stay hat

theorem checkPath_of_entries (h : fs.entries path = .ok entries) : checkPath path = .ok () := by
  obtain ⟨location, hlocate, -⟩ := node_eq_ok_iff.mp (entries_eq_ok_iff.mp h)
  exact (locate_eq_ok_iff.mp hlocate).1

/-- The entries of a directory in a directory are listed if its path is not too long. -/
theorem entries_join {below : List (String × FileNode)} (hdirectory : fs.entries path = .ok entries)
    (hname : IsEntryName name) (hlookup : entries.lookup name = some (.directory below)) :
    fs.entries (Path.join path name) = (checkPath (Path.join path name)).map fun _ => below := by
  rw [FileSystem.entries, node_join (entries_eq_ok_iff.mp hdirectory) hname hlookup
    fun _ h => nomatch h]
  cases checkPath (Path.join path name) <;> rfl

/-- A file in a directory is not taken for a directory. -/
theorem isDirectory_join {bytes : ByteArray} (hdirectory : fs.entries path = .ok entries)
    (hname : IsEntryName name) (hlookup : entries.lookup name = some (.file bytes)) :
    fs.isDirectory (Path.join path name) = false := by
  rw [isDirectory, node_join (entries_eq_ok_iff.mp hdirectory) hname hlookup fun _ h => nomatch h]
  cases checkPath (Path.join path name) <;> rfl

/-- The text of a file in a directory is that of its bytes, if its path is not too long. -/
theorem readText_join {bytes : ByteArray} (hdirectory : fs.entries path = .ok entries)
    (hname : IsEntryName name) (hlookup : entries.lookup name = some (.file bytes)) :
    fs.readText (Path.join path name) =
      checkPath (Path.join path name) >>= fun _ => textOf (.file bytes) := by
  rw [readText, node_join (entries_eq_ok_iff.mp hdirectory) hname hlookup fun _ h => nomatch h]
  cases checkPath (Path.join path name) <;> rfl

/-- An entry of a directory that can be named is named by its own name. -/
theorem nameOf_join (hpath : path ≠ "") (hname : IsEntryName name) :
    fs.nameOf (Path.join path name) = .ok name := by
  rw [nameOf, Path.lastName?_join hpath hname]

end FileSystem

end BlueprintPackages
