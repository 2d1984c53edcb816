import BlueprintPackages.Proofs.Files.Walking

/-!
# Files without one entry

A file, a link or nothing at all may stand at a place; `FileSystem.without` is the tree of files in
which nothing stands there. A walk goes move by move (`Moves`): it stays, goes up, goes down to an
entry that is no link, or goes on with the target of a link and the steps that are left. It
`Passes` a place if it comes to the entry there in one of its moves.

A walk that does not pass the place is the same without the entry, whatever links it may follow
(`walkLinks_without`). So a path that does not pass it leads to what it led to, without the entry if
that is further down (`node_without`). Whether an extended path passes the place is told in two
parts: either the path before does, or the rest does from where that leads (`Passes.of_append`,
`passes_join`).
-/

namespace BlueprintPackages

namespace FileNode

/-! ## Taking away an entry -/

mutual

/-- The same tree without the entry at a place; the tree stands at the given location. -/
def without (place location : Location) : FileNode → FileNode
  | directory entries => directory (withoutEntries place location entries)
  | file bytes => file bytes
  | link target => link target
termination_by structural node => node

/-- The entries of the directory at the given location but for the one at the place. -/
def withoutEntries (place location : Location) :
    List (String × FileNode) → List (String × FileNode)
  | [] => []
  | (name, node) :: rest =>
    if location ++ [name] = place then withoutEntries place location rest
    else (name, without place (location ++ [name]) node) :: withoutEntries place location rest
termination_by structural entries => entries

end

variable {place location : Location} {entries : List (String × FileNode)} {node : FileNode}

theorem withoutEntries_eq (place location : Location) (entries : List (String × FileNode)) :
    withoutEntries place location entries =
      (entries.filter fun e => location ++ [e.1] ≠ place).map
        fun e => (e.1, e.2.without place (location ++ [e.1])) := by
  induction entries with
  | nil => rfl
  | cons e rest ih =>
      obtain ⟨name, node⟩ := e
      rw [withoutEntries, ih]
      by_cases hplace : location ++ [name] = place
      · simp [hplace]
      · simp [hplace]

theorem lookup_withoutEntries (place location : Location) (name : String) :
    (withoutEntries place location entries).lookup name =
      if location ++ [name] = place then none
      else (entries.lookup name).map (without place (location ++ [name])) := by
  induction entries with
  | nil => simp [withoutEntries]
  | cons e rest ih =>
      obtain ⟨other, node⟩ := e
      rw [withoutEntries, OrderedMap.lookup_cons_ite]
      by_cases hplace : location ++ [other] = place
      · rw [if_pos hplace, ih]
        by_cases hname : name = other
        · rw [hname, if_pos hplace, if_pos hplace]
        · rw [if_neg hname]
      · rw [if_neg hplace, OrderedMap.lookup_cons_ite, ih]
        by_cases hname : name = other
        · rw [hname, if_pos rfl, if_pos rfl, if_neg hplace, Option.map_some]
        · rw [if_neg hname, if_neg hname]

/-- At the place nothing stands. -/
theorem at?_without_place (here : Location) (hne : location ≠ []) :
    (node.without (here ++ location) here).at? location = none := by
  induction location generalizing node here with
  | nil => exact absurd rfl hne
  | cons name rest ih =>
      cases node with
      | file bytes => rfl
      | link target => rfl
      | directory entries =>
          rw [without, at?_directory_cons, lookup_withoutEntries]
          -- either this name is the last, and the entry is gone, or the place lies further down
          by_cases hname : here ++ [name] = here ++ name :: rest
          · rw [if_pos hname, Option.bind_none]
          · have hrest : rest ≠ [] := by
              rintro rfl
              exact hname rfl
            rw [if_neg hname]
            cases entries.lookup name with
            | none => rfl
            | some child =>
                have hchild := @ih child (here ++ [name]) hrest
                rw [List.append_assoc, List.singleton_append] at hchild
                exact hchild

/-- Nothing else is missing, as nothing stands below what is no directory. -/
theorem at?_without {here : Location}
    (hplace : ∀ below entries, node.at? below = some (directory entries) → here ++ below ≠ place)
    (hne : here ++ location ≠ place) :
    (node.without place here).at? location =
      (node.at? location).map (without place (here ++ location)) := by
  induction location generalizing node here with
  | nil => rw [at?_nil, at?_nil, List.append_nil, Option.map_some]
  | cons name rest ih =>
      cases node with
      | file bytes => rfl
      | link target => rfl
      | directory entries =>
          rw [without, at?_directory_cons, at?_directory_cons, lookup_withoutEntries]
          cases hlookup : entries.lookup name with
          | none => simp
          | some child =>
              have hchild : ∀ below entries, child.at? below = some (directory entries) →
                  here ++ [name] ++ below ≠ place := by
                intro below found hbelow
                rw [List.append_assoc]
                exact hplace ([name] ++ below) found (by simp [at?_directory_cons, hlookup, hbelow])
              -- an entry at the place is no directory, so nothing is lost below it
              by_cases hname : here ++ [name] = place
              · rw [if_pos hname]
                cases rest with
                | nil => exact absurd hname hne
                | cons next more =>
                    cases child with
                    | file bytes => rfl
                    | link target => rfl
                    | directory found =>
                        have hhere := hchild [] found (at?_nil _)
                        rw [List.append_nil] at hhere
                        exact absurd hname hhere
              · rw [if_neg hname, Option.map_some, Option.bind_some, Option.bind_some,
                  ih hchild (by simpa using hne), List.append_assoc, List.singleton_append]

end FileNode

namespace FileSystem

/-- The same files but for the entry at a place, which is not there. -/
def without (fs : FileSystem) (place : Location) : FileSystem :=
  { fs with root := fs.root.without place [] }

theorem at?_without_self (fs : FileSystem) {place : Location} (hne : place ≠ []) :
    (fs.without place).root.at? place = none :=
  FileNode.at?_without_place [] hne

/-! ## Walking move by move -/

/-- One move of a walk, which changes where it is and the steps still to go. -/
inductive Moves (fs : FileSystem) : Location → List Step → Location → List Step → Prop
  | stay {location : Location} {entries : List (String × FileNode)} {rest : List Step}
      (hat : fs.root.at? location = some (.directory entries)) :
      Moves fs location (.stay :: rest) location rest
  | up {location : Location} {entries : List (String × FileNode)} {rest : List Step}
      (hat : fs.root.at? location = some (.directory entries)) :
      Moves fs location (.up :: rest) location.dropLast rest
  | down {location : Location} {entries : List (String × FileNode)} {name : String}
      {node : FileNode} {rest : List Step}
      (hat : fs.root.at? location = some (.directory entries))
      (hlookup : entries.lookup name = some node) (hlink : ∀ target, node ≠ .link target) :
      Moves fs location (.down name :: rest) (location ++ [name]) rest
  | follow {location : Location} {entries : List (String × FileNode)} {name target : String}
      {rest : List Step} (hat : fs.root.at? location = some (.directory entries))
      (hlookup : entries.lookup name = some (.link target)) :
      Moves fs location (.down name :: rest) (start location target) (Path.steps target ++ rest)

/-- Where a walk leads in the end, however many links it follows. -/
inductive Leads (fs : FileSystem) : Location → List Step → Location → Prop
  | done (location : Location) : Leads fs location [] location
  | move {location location' found : Location} {steps steps' : List Step}
      (hmove : fs.Moves location steps location' steps') (h : Leads fs location' steps' found) :
      Leads fs location steps found

/-- A walk comes to the entry at a place, to go down to it, to follow it as a link, or because it
begins there. -/
inductive Passes (fs : FileSystem) (place : Location) : Location → List Step → Prop
  | here (steps : List Step) : Passes fs place place steps
  | down {location : Location} {name : String} {rest : List Step}
      (h : location ++ [name] = place) : Passes fs place location (.down name :: rest)
  | later {location location' : Location} {steps steps' : List Step}
      (hmove : fs.Moves location steps location' steps') (h : Passes fs place location' steps') :
      Passes fs place location steps

variable {fs : FileSystem} {place location location' found : Location} {steps steps' : List Step}

theorem Moves.unique {other : Location} {others : List Step}
    (h : fs.Moves location steps location' steps') (h' : fs.Moves location steps other others) :
    location' = other ∧ steps' = others := by
  cases h with
  | stay => cases h' with | stay => exact ⟨rfl, rfl⟩
  | up => cases h' with | up => exact ⟨rfl, rfl⟩
  -- an entry is a link or it is not, so there is one move down only
  | down hat hlookup hlink =>
      cases h' with
      | down => exact ⟨rfl, rfl⟩
      | follow hat' hlookup' =>
          cases hat.symm.trans hat'
          exact absurd (Option.some.inj (hlookup.symm.trans hlookup')) (hlink _)
  | follow hat hlookup =>
      cases h' with
      | down hat' hlookup' hlink =>
          cases hat.symm.trans hat'
          exact absurd (Option.some.inj (hlookup'.symm.trans hlookup)) (hlink _)
      | follow hat' hlookup' =>
          cases hat.symm.trans hat'
          cases hlookup.symm.trans hlookup'
          exact ⟨rfl, rfl⟩

theorem Leads.unique {other : Location} (h : fs.Leads location steps found)
    (h' : fs.Leads location steps other) : found = other := by
  induction h with
  | done location =>
      cases h' with
      | done => rfl
      | move hmove => exact nomatch hmove
  | move hmove _ ih =>
      cases h' with
      | done => exact nomatch hmove
      | move hmove' h' =>
          obtain ⟨rfl, rfl⟩ := hmove.unique hmove'
          exact ih h'

/-- Steps that are behind do not matter to a move. -/
theorem Moves.append (h : fs.Moves location steps location' steps') (more : List Step) :
    fs.Moves location (steps ++ more) location' (steps' ++ more) := by
  cases h with
  | stay hat => exact .stay hat
  | up hat => exact .up hat
  | down hat hlookup hlink => exact .down hat hlookup hlink
  | follow hat hlookup =>
      rw [List.append_assoc]
      exact .follow hat hlookup

theorem Moves.of_append {step : Step} {more : List Step}
    (h : fs.Moves location (step :: steps ++ more) location' steps') :
    ∃ rest, steps' = rest ++ more ∧ fs.Moves location (step :: steps) location' rest := by
  cases h with
  | stay hat => exact ⟨steps, rfl, .stay hat⟩
  | up hat => exact ⟨steps, rfl, .up hat⟩
  | down hat hlookup hlink => exact ⟨steps, rfl, .down hat hlookup hlink⟩
  | follow hat hlookup => exact ⟨_, (List.append_assoc ..).symm, .follow hat hlookup⟩

theorem Passes.append (h : fs.Passes place location steps) (more : List Step) :
    fs.Passes place location (steps ++ more) := by
  induction h with
  | here => exact .here _
  | down h => exact .down h
  | later hmove _ ih => exact .later (hmove.append more) ih

/-- Of two parts of a walk one passes the place, the second from where the first leads. -/
theorem Passes.of_append {more : List Step} (h : fs.Passes place location (steps ++ more)) :
    fs.Passes place location steps ∨
      ∃ middle, fs.Leads location steps middle ∧ fs.Passes place middle more := by
  -- the induction is on the whole walk, from which the two parts are cut again at every move
  generalize hall : steps ++ more = all at h
  induction h generalizing steps with
  | here => exact .inl (.here _)
  | down h =>
      cases steps with
      | nil => exact .inr ⟨_, .done _, List.nil_append more ▸ hall ▸ .down h⟩
      | cons step rest =>
          obtain ⟨rfl, -⟩ := List.cons.inj hall
          exact .inl (.down h)
  | later hmove h ih =>
      cases steps with
      | nil => exact .inr ⟨_, .done _, List.nil_append more ▸ hall ▸ .later hmove h⟩
      | cons step rest =>
          subst hall
          obtain ⟨left, rfl, hfirst⟩ := hmove.of_append
          rcases ih rfl with hleft | ⟨middle, hleads, hmore⟩
          · exact .inl (.later hfirst hleft)
          · exact .inr ⟨middle, .move hfirst hleads, hmore⟩

/-- To stand at the place in the end is to pass it. -/
theorem Leads.passes (h : fs.Leads location steps place) : fs.Passes place location steps := by
  induction h with
  | done location => exact .here []
  | move hmove _ ih => exact .later hmove ih

/-- A step that stays passes nothing that was not passed before. -/
theorem Passes.of_stay (h : fs.Passes place location (steps ++ [.stay])) :
    fs.Passes place location steps := by
  rcases h.of_append with hsteps | ⟨middle, hleads, hstay⟩
  · exact hsteps
  · cases hstay with
    | here => exact hleads.passes
    | later hmove hlater =>
        cases hmove with
        | stay =>
            cases hlater with
            | here => exact hleads.passes
            | later hmove => exact nomatch hmove

theorem leads_of_walk {allowed : Location → Bool}
    {follow : Location → String → List Step → Except AccessError Location}
    (hfollow : ∀ directory target rest, follow directory target rest = .ok found →
      fs.Leads (start directory target) (Path.steps target ++ rest) found)
    (h : fs.walk allowed follow location steps = .ok found) : fs.Leads location steps found := by
  -- the steps that a link puts in front are not seen by the induction: `hfollow` has them
  induction steps generalizing location with
  | nil =>
      obtain rfl := Except.ok.inj h
      exact .done location
  | cons step rest ih =>
      rw [walk] at h
      split at h
      · next entries hat =>
        cases step with
        | stay => exact .move (.stay hat) (ih h)
        | up => exact .move (.up hat) (ih h)
        | down name =>
            dsimp only at h
            split at h
            · cases h
            · split at h
              · cases h
              · next target hlookup => exact .move (.follow hat hlookup) (hfollow _ _ _ h)
              · next node hlink hlookup =>
                exact .move (.down hat hlookup hlink) (ih h)
      · cases h
      · cases h

/-- What a walk comes to with the links it may follow is what it leads to. -/
theorem leads_of_walkLinks {allowed : Location → Bool} {links : Nat}
    (h : fs.walkLinks allowed links location steps = .ok found) :
    fs.Leads location steps found := by
  induction links generalizing location steps with
  | zero =>
      rw [walkLinks] at h
      refine leads_of_walk ?_ h
      intro directory target rest hfound
      cases hfound
  | succ links ih => exact leads_of_walk (fun _ _ _ hfound => ih hfound) h

theorem leads_of_locate {path : String} (h : fs.locate path = .ok found) :
    fs.Leads (start fs.workingDirectory path) (Path.steps path) found :=
  leads_of_walkLinks (locate_eq_ok_iff.mp h).2

/-! ## Walking without the entry -/

section Without

variable (hplace : ∀ entries, fs.root.at? place ≠ some (.directory entries))

include hplace

theorem at?_without (hne : location ≠ place) :
    (fs.without place).root.at? location =
      (fs.root.at? location).map (FileNode.without place location) := by
  refine FileNode.at?_without (fun below entries hbelow heq => ?_) hne
  rw [List.nil_append] at heq
  exact hplace entries (heq ▸ hbelow)

theorem walk_without (allowed : Location → Bool)
    {follow follow' : Location → String → List Step → Except AccessError Location}
    (hfollow : ∀ directory target rest,
      ¬ fs.Passes place (start directory target) (Path.steps target ++ rest) →
        follow' directory target rest = follow directory target rest)
    (h : ¬ fs.Passes place location steps) :
    (fs.without place).walk allowed follow' location steps =
      fs.walk allowed follow location steps := by
  induction steps generalizing location with
  | nil => rfl
  | cons step rest ih =>
      have hne : location ≠ place := by
        rintro rfl
        exact h (.here _)
      rw [walk, walk, at?_without hplace hne]
      cases hat : fs.root.at? location with
      | none => rfl
      | some node =>
          cases node with
          | file bytes => rfl
          | link target => rfl
          | directory entries =>
              rw [Option.map_some, FileNode.without]
              cases step with
              | stay => exact ih fun hlater => h (.later (.stay hat) hlater)
              | up => exact ih fun hlater => h (.later (.up hat) hlater)
              | down name =>
                  have hname : location ++ [name] ≠ place := fun heq => h (.down heq)
                  simp only [FileNode.lookup_withoutEntries, if_neg hname]
                  cases hlookup : entries.lookup name with
                  | none => rfl
                  | some found =>
                      cases found with
                      | file bytes =>
                          have hrest := ih fun hlater =>
                            h (.later (.down hat hlookup (by simp)) hlater)
                          simp only [Option.map_some, FileNode.without, hrest]
                      | link target =>
                          have hrest := hfollow location target rest fun hlater =>
                            h (.later (.follow hat hlookup) hlater)
                          simp only [Option.map_some, FileNode.without, hrest]
                      | directory below =>
                          have hrest := ih fun hlater =>
                            h (.later (.down hat hlookup (by simp)) hlater)
                          simp only [Option.map_some, FileNode.without, hrest]

theorem walkLinks_without (allowed : Location → Bool) (links : Nat)
    (h : ¬ fs.Passes place location steps) :
    (fs.without place).walkLinks allowed links location steps =
      fs.walkLinks allowed links location steps := by
  induction links generalizing location steps with
  | zero => exact walk_without hplace allowed (fun _ _ _ _ => rfl) h
  | succ links ih => exact walk_without hplace allowed (fun _ _ _ hlater => ih hlater) h

/-! ## Paths that do not pass the place -/

variable {path : String}
  (h : ¬ fs.Passes place (start fs.workingDirectory path) (Path.steps path))

include h

theorem locate_without : (fs.without place).locate path = fs.locate path := by
  have hwalk := walkLinks_without hplace (fun _ => true) linkLimit h
  rw [locate, locate, walkFrom, walkFrom]
  simp only [← hwalk]
  rfl

theorem nameOf_without : (fs.without place).nameOf path = fs.nameOf path := by
  have hwalk := walkLinks_without hplace (fun location => location.byteSize ≤ pathLimit) linkLimit h
  rw [nameOf, nameOf, canonical, canonical]
  simp only [← hwalk]
  rfl

/-- What the path leads to is the same, but without the entry. -/
theorem node_without :
    (∃ error, fs.node path = .error error ∧ (fs.without place).node path = .error error) ∨
      ∃ location node, fs.locate path = .ok location ∧ fs.root.at? location = some node ∧
        fs.node path = .ok node ∧
        (fs.without place).node path = .ok (node.without place location) := by
  rw [node, node, locate_without hplace h]
  cases hlocate : fs.locate path with
  | error error => exact .inl ⟨error, rfl, rfl⟩
  | ok location =>
      have hne : location ≠ place := by
        rintro rfl
        exact h (leads_of_locate hlocate).passes
      simp only [bind, Except.bind, at?_without hplace hne]
      cases hat : fs.root.at? location with
      | none => exact .inl ⟨_, rfl, rfl⟩
      | some node => exact .inr ⟨location, node, rfl, hat, rfl, rfl⟩

theorem isDirectory_without : (fs.without place).isDirectory path = fs.isDirectory path := by
  rw [isDirectory, isDirectory]
  obtain ⟨error, hnode, hnode'⟩ | ⟨location, node, -, -, hnode, hnode'⟩ := node_without hplace h
  · rw [hnode, hnode']
  · rw [hnode, hnode']
    cases node <;> rfl

theorem readText_without : (fs.without place).readText path = fs.readText path := by
  rw [readText, readText]
  obtain ⟨error, hnode, hnode'⟩ | ⟨location, node, -, -, hnode, hnode'⟩ := node_without hplace h
  · rw [hnode, hnode']
  · rw [hnode, hnode']
    cases node <;> rfl

/-- A directory is listed in both or in neither. -/
theorem entries_without :
    (∃ error, fs.entries path = .error error ∧ (fs.without place).entries path = .error error) ∨
      ∃ location entries, fs.locate path = .ok location ∧
        fs.root.at? location = some (.directory entries) ∧ fs.entries path = .ok entries ∧
        (fs.without place).entries path =
          .ok (FileNode.withoutEntries place location entries) := by
  rw [entries, entries]
  obtain ⟨error, hnode, hnode'⟩ | ⟨location, node, hlocate, hat, hnode, hnode'⟩ :=
    node_without hplace h
  · exact .inl ⟨error, by rw [hnode]; rfl, by rw [hnode']; rfl⟩
  · rw [hnode, hnode']
    cases node with
    | file bytes => exact .inl ⟨.notADirectory, rfl, rfl⟩
    | link target => exact .inl ⟨.notADirectory, rfl, rfl⟩
    | directory entries => exact .inr ⟨location, entries, hlocate, hat, rfl, rfl⟩

end Without

/-! ## Extended paths -/

variable {path name : String} {entries : List (String × FileNode)}

/-- An extended path passes the place only in its last step, if the path does not. -/
theorem passes_join (hlocate : fs.locate path = .ok location) (hname : IsEntryName name)
    (h : fs.Passes place (start fs.workingDirectory (Path.join path name))
      (Path.steps (Path.join path name))) :
    fs.Passes place (start fs.workingDirectory path) (Path.steps path) ∨
      fs.Passes place location [.down name] := by
  obtain ⟨before, hbefore, hsteps, hstart, hwalk⟩ := exists_before_of_locate hlocate hname
  rw [hsteps, hstart] at h
  rcases h.of_append with hfirst | ⟨middle, hleads, hlast⟩
  · rcases hbefore with hbefore | hbefore
    · exact .inl (hbefore ▸ hfirst)
    · exact .inl (hbefore ▸ hfirst.append [.stay])
  · obtain rfl := hleads.unique (leads_of_walkLinks hwalk)
    exact .inr hlast

/-- A last step passes the place if it leads to it, or to a link the target of which passes it. -/
theorem passes_last (hat : fs.root.at? location = some (.directory entries))
    (hplace : ∀ entries, fs.root.at? place ≠ some (.directory entries))
    (h : fs.Passes place location [.down name]) :
    location ++ [name] = place ∨ ∃ target, entries.lookup name = some (.link target) ∧
      fs.Passes place (start location target) (Path.steps target) := by
  cases h with
  | here => exact absurd hat (hplace entries)
  | down h => exact .inl h
  | later hmove hlater =>
      cases hmove with
      | down =>
          cases hlater with
          | here => exact .inl rfl
          | later hmove => exact nomatch hmove
      | follow hat' hlookup =>
          cases hat.symm.trans hat'
          rw [List.append_nil] at hlater
          exact .inr ⟨_, hlookup, hlater⟩

end FileSystem

end BlueprintPackages
