import BlueprintPackages.Files.FileSystem
import BlueprintPackages.Proofs.OrderedMap
import BlueprintPackages.Proofs.Text.ByteOrder

/-!
# What is in a tree of files

What a directory holds is told by locations below it: the names that lead down to a file, a link or
a directory, through real directories only. `FileNode.at?` finds what stands at a location, and no
link is followed on the way, so a tree with links in it is still a tree.

Locations stand in the order of the dictionary, in which names are compared by their bytes
(`Location.Before`). That is the order of a walk that comes to a directory before what is in it, to
its entries by name, and to all that is below one of them before the next.

Of the trees on which names mean anything a directory never has one name twice (`DistinctNames`).
Where names also become parts of paths, each must be a single part of a path and not too long
(`ProperNames`); a file system in which both hold is `WellNamed`.
-/

namespace BlueprintPackages

/-! ## Trees of files -/

namespace FileNode

/-- Holds of a node what holds of files and links, and of a directory whenever it holds of all its
entries. -/
@[elab_as_elim]
theorem induction {motive : FileNode → Prop} (file : ∀ bytes, motive (file bytes))
    (link : ∀ target, motive (link target))
    (directory : ∀ entries, (∀ e ∈ entries, motive e.2) → motive (directory entries))
    (node : FileNode) : motive node :=
  @FileNode.rec motive (fun entries => ∀ e ∈ entries, motive e.2) (fun e => motive e.2) file
    directory link (fun _ he => absurd he List.not_mem_nil)
    (fun _ _ he hes _ hd => (List.mem_cons.mp hd).elim (fun h => h ▸ he) (hes _))
    (fun _ _ hnode => hnode) node

/-- The entries of every directory of a tree are as they should be. -/
inductive Everywhere (good : List (String × FileNode) → Prop) : FileNode → Prop
  | file (bytes : ByteArray) : Everywhere good (file bytes)
  | link (target : String) : Everywhere good (link target)
  | directory {entries : List (String × FileNode)} (here : good entries)
      (below : ∀ e ∈ entries, Everywhere good e.2) : Everywhere good (directory entries)

variable {good : List (String × FileNode) → Prop} {node found : FileNode}
  {entries : List (String × FileNode)} {name : String} {location : Location}

theorem Everywhere.entries_good (h : (FileNode.directory entries).Everywhere good) :
    good entries := by
  cases h with
  | directory here _ => exact here

theorem Everywhere.of_mem (h : (FileNode.directory entries).Everywhere good) {e : String × FileNode}
    (he : e ∈ entries) : e.2.Everywhere good := by
  cases h with
  | directory _ below => exact below e he

mutual

/-- Looks through all directories of a tree. -/
def decideEverywhere [DecidablePred good] : (node : FileNode) → Decidable (node.Everywhere good)
  | file bytes => .isTrue (.file bytes)
  | link target => .isTrue (.link target)
  | directory entries =>
    match decideBelow entries with
    | .isTrue below =>
      if here : good entries then .isTrue (.directory here below)
      else .isFalse fun h => here h.entries_good
    | .isFalse notBelow => .isFalse fun h => notBelow fun _ he => h.of_mem he
termination_by structural node => node

/-- Looks through all directories below some entries. -/
def decideBelow [DecidablePred good] : (entries : List (String × FileNode)) →
    Decidable (∀ e ∈ entries, e.2.Everywhere good)
  | [] => .isTrue fun _ he => absurd he List.not_mem_nil
  | (name, node) :: rest =>
    match decideEverywhere node, decideBelow rest with
    | .isTrue first, .isTrue others => .isTrue (List.forall_mem_cons.mpr ⟨first, others⟩)
    | .isFalse notFirst, _ => .isFalse fun h => notFirst (h (name, node) List.mem_cons_self)
    | _, .isFalse notOthers => .isFalse fun h => notOthers (List.forall_mem_cons.mp h).2
termination_by structural entries => entries

end

instance [DecidablePred good] (node : FileNode) : Decidable (node.Everywhere good) :=
  decideEverywhere node

/-! ## What stands at a location -/

@[simp] theorem at?_nil (node : FileNode) : node.at? [] = some node := by
  cases node <;> rfl

theorem at?_directory_cons (entries : List (String × FileNode)) (name : String)
    (rest : Location) :
    (directory entries).at? (name :: rest) = (entries.lookup name).bind (·.at? rest) := by
  rw [at?]
  cases entries.lookup name <;> rfl

theorem at?_cons_eq_some_iff {rest : Location} :
    node.at? (name :: rest) = some found ↔
      ∃ entries child, node = directory entries ∧ entries.lookup name = some child ∧
        child.at? rest = some found := by
  cases node with
  | file bytes => simp [at?]
  | link target => simp [at?]
  | directory entries =>
      rw [at?_directory_cons, Option.bind_eq_some_iff]
      simp

/-- In a directory with one entry there is nothing but that and what is below. -/
theorem at?_single_eq_some {child : FileNode}
    (h : (directory [(name, child)]).at? location = some found) :
    location = [] ∧ directory [(name, child)] = found ∨
      ∃ rest, location = name :: rest ∧ child.at? rest = some found := by
  cases location with
  | nil => exact .inl ⟨rfl, Option.some.inj h⟩
  | cons other rest =>
      rw [at?_directory_cons, OrderedMap.lookup_cons_ite] at h
      by_cases hname : other = name
      · rw [if_pos hname] at h
        exact .inr ⟨rest, by rw [hname], h⟩
      · rw [if_neg hname] at h
        exact nomatch h

theorem at?_append (node : FileNode) (a b : Location) :
    node.at? (a ++ b) = (node.at? a).bind (·.at? b) := by
  induction a generalizing node with
  | nil => rw [List.nil_append, at?_nil, Option.bind_some]
  | cons name rest ih =>
      cases node with
      | file bytes => rfl
      | link target => rfl
      | directory entries =>
          rw [List.cons_append, at?_directory_cons, at?_directory_cons, Option.bind_assoc]
          exact Option.bind_congr fun child _ => ih child

theorem at?_concat (h : node.at? location = some (directory entries)) (name : String) :
    node.at? (location ++ [name]) = entries.lookup name := by
  rw [at?_append, h, Option.bind_some, at?_directory_cons]
  cases entries.lookup name <;> simp

/-- What stands at the end of a location stands in a directory. -/
theorem at?_concat_eq_some_iff :
    node.at? (location ++ [name]) = some found ↔
      ∃ entries, node.at? location = some (directory entries) ∧
        entries.lookup name = some found := by
  constructor
  · intro h
    rw [at?_append, Option.bind_eq_some_iff] at h
    obtain ⟨up, hup, hname⟩ := h
    obtain ⟨entries, child, rfl, hlookup, hchild⟩ := at?_cons_eq_some_iff.mp hname
    rw [at?_nil] at hchild
    exact ⟨entries, hup, hlookup.trans hchild⟩
  · rintro ⟨entries, hup, hlookup⟩
    rw [at?_concat hup, hlookup]

theorem Everywhere.at? (h : node.Everywhere good) (hat : node.at? location = some found) :
    found.Everywhere good := by
  induction location generalizing node with
  | nil =>
      rw [at?_nil] at hat
      exact Option.some.inj hat ▸ h
  | cons name rest ih =>
      obtain ⟨entries, child, rfl, hlookup, hchild⟩ := at?_cons_eq_some_iff.mp hat
      exact ih (h.of_mem (OrderedMap.mem_of_lookup hlookup)) hchild

end FileNode

/-! ## Names -/

/-- A name that an entry of a directory can have: one part of a path that leads down, and not too
long. -/
structure IsEntryName (name : String) : Prop where
  leads_down : Step.ofName name = .down name
  no_separator : Path.separator ∉ name.toList
  size_le : name.utf8ByteSize ≤ FileSystem.nameLimit

instance (name : String) : Decidable (IsEntryName name) :=
  decidable_of_iff (Step.ofName name = .down name ∧ Path.separator ∉ name.toList ∧
    name.utf8ByteSize ≤ FileSystem.nameLimit)
    ⟨fun ⟨hdown, hseparator, hsize⟩ => ⟨hdown, hseparator, hsize⟩,
      fun h => ⟨h.leads_down, h.no_separator, h.size_le⟩⟩

/-- No directory has two entries of one name. -/
def FileNode.DistinctNames (node : FileNode) : Prop :=
  node.Everywhere fun entries => (entries.map Prod.fst).Nodup

/-- Every entry has a name that an entry can have. -/
def FileNode.ProperNames (node : FileNode) : Prop :=
  node.Everywhere fun entries => ∀ e ∈ entries, IsEntryName e.1

/-- The directories of a file system have entries as directories can have them. -/
structure FileSystem.WellNamed (fs : FileSystem) : Prop where
  distinct : fs.root.DistinctNames
  proper : fs.root.ProperNames

instance (node : FileNode) : Decidable node.DistinctNames :=
  inferInstanceAs (Decidable (node.Everywhere _))

instance (node : FileNode) : Decidable node.ProperNames :=
  inferInstanceAs (Decidable (node.Everywhere _))

instance (fs : FileSystem) : Decidable fs.WellNamed :=
  decidable_of_iff (fs.root.DistinctNames ∧ fs.root.ProperNames)
    ⟨fun ⟨hdistinct, hproper⟩ => ⟨hdistinct, hproper⟩, fun h => ⟨h.distinct, h.proper⟩⟩

theorem FileNode.DistinctNames.lookup_iff {entries : List (String × FileNode)}
    (h : (FileNode.directory entries).DistinctNames) {name : String} {node : FileNode} :
    entries.lookup name = some node ↔ (name, node) ∈ entries :=
  OrderedMap.lookup_eq_some_iff_mem h.entries_good

/-! ## Locations -/

namespace Location

/-- The order of the dictionary: names one by one, each by its bytes, and nothing before more. -/
def Before (a b : Location) : Prop := a.map Text.utf8 < b.map Text.utf8

theorem before_iff_lt {a b : Location} : a.Before b ↔ a < b := by
  rw [Before]
  induction a generalizing b with
  | nil =>
      cases b with
      | nil => simp
      | cons name rest => simp [List.nil_lt_cons]
  | cons name rest ih =>
      cases b with
      | nil => simp
      | cons name' rest' =>
          rw [List.map_cons, List.map_cons, List.cons_lt_cons_iff, List.cons_lt_cons_iff,
            Text.utf8_lt_utf8_iff, Text.utf8_inj, ih]

theorem nil_before_cons (name : String) (rest : Location) : Before [] (name :: rest) :=
  before_iff_lt.mpr (List.nil_lt_cons _ _)

/-- What is below one name comes before what is below a later one. -/
theorem before_of_lt {name name' : String} (h : name < name') (rest rest' : Location) :
    Before (name :: rest) (name' :: rest') :=
  before_iff_lt.mpr (List.cons_lt_cons_iff.mpr (.inl h))

theorem cons_before_cons_iff {name : String} {rest rest' : Location} :
    Before (name :: rest) (name :: rest') ↔ rest.Before rest' := by
  rw [before_iff_lt, before_iff_lt, List.cons_lt_cons_iff]
  simp

end Location

end BlueprintPackages
