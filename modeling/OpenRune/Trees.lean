import Mathlib

/-!
# File trees

Finite trees of named leaves and directories, seen through lookups at paths:
removing and inserting change what is found at and below one path only. A walk
comes to every node of a tree, to a directory once before and once after what is
in it.
-/
namespace OpenRune.Trees

abbrev Path := List String

/-- What a directory holds. Of several entries with one name only the first is found. -/
inductive Forest (α : Type)
  | nil
  | leaf (name : String) (value : α) (rest : Forest α)
  | directory (name : String) (children rest : Forest α)
  deriving Repr

/-- What a path leads to. -/
inductive Entry (α : Type)
  | leaf (value : α)
  | directory (children : Forest α)
  deriving Repr

/-- An entry without what is in it. -/
inductive Node (α : Type)
  | leaf (value : α)
  | directory
  deriving DecidableEq, Repr

section
variable {α : Type}

def Entry.node : Entry α → Node α
  | .leaf value => .leaf value
  | .directory _ => .directory

def Forest.find : Forest α → Path → Option (Entry α)
  | forest, [] => some (.directory forest)
  | .nil, _ :: _ => none
  | .leaf name value rest, first :: path =>
    if name = first then if path = [] then some (.leaf value) else none else rest.find (first :: path)
  | .directory name children rest, first :: path =>
    if name = first then children.find path else rest.find (first :: path)

def Forest.lookup (forest : Forest α) (path : Path) : Option (Node α) := (forest.find path).map Entry.node

/-- Without the entry at the path, and all that is below it. -/
def Forest.remove : Forest α → Path → Forest α
  | forest, [] => forest
  | .nil, _ :: _ => .nil
  | .leaf name value rest, first :: path =>
    if name = first ∧ path = [] then rest.remove (first :: path) else .leaf name value (rest.remove (first :: path))
  | .directory name children rest, first :: path =>
    if name = first then
      if path = [] then rest.remove (first :: path)
      else .directory name (children.remove path) (rest.remove (first :: path))
    else .directory name children (rest.remove (first :: path))

def Node.entry (name : String) : Node α → Forest α
  | .leaf value => .leaf name value .nil
  | .directory => .directory name .nil .nil

/-- With a new entry at the end of a directory that is there. -/
def Forest.insert (node : Node α) : Forest α → Path → Forest α
  | forest, [] => forest
  | .nil, [name] => node.entry name
  | .nil, _ :: _ :: _ => .nil
  | .leaf name value rest, first :: path => .leaf name value (rest.insert node (first :: path))
  | .directory name children rest, first :: path =>
    if name = first then .directory name (children.insert node path) rest
    else .directory name children (rest.insert node (first :: path))

@[simp] theorem lookup_nil (first : String) (path : Path) : (Forest.nil : Forest α).lookup (first :: path) = none := rfl

@[simp] theorem lookup_root (forest : Forest α) : forest.lookup [] = some .directory := by
  cases forest <;> rfl

@[simp] theorem lookup_leaf (name first : String) (value : α) (rest : Forest α) (path : Path) :
    (Forest.leaf name value rest).lookup (first :: path) =
      if name = first then if path = [] then some (.leaf value) else none else rest.lookup (first :: path) := by
  by_cases same : name = first
  · by_cases whole : path = []
    · simp [Forest.lookup,Forest.find,same,whole,Entry.node]
    · simp [Forest.lookup,Forest.find,same,whole]
  · simp [Forest.lookup,Forest.find,same]

@[simp] theorem lookup_directory (name first : String) (children rest : Forest α) (path : Path) :
    (Forest.directory name children rest).lookup (first :: path) =
      if name = first then children.lookup path else rest.lookup (first :: path) := by
  by_cases same : name = first
  · simp [Forest.lookup,Forest.find,same]
  · simp [Forest.lookup,Forest.find,same]

/-- Nothing at or below a removed path is found, and everything else still is. -/
theorem lookup_remove (forest : Forest α) (first : String) (path other : Path) :
    (forest.remove (first :: path)).lookup other =
      if first :: path <+: other then none else forest.lookup other := by
  induction forest generalizing first path other with
  | nil => cases other <;> simp [Forest.remove]
  | leaf name value rest ih =>
    cases other with
    | nil => simp
    | cons found below =>
      unfold Forest.remove
      split
      · rename_i same
        obtain ⟨rfl,rfl⟩ := same
        rw [ih]
        by_cases here : name = found <;> simp [here]
      · rename_i differs
        rw [lookup_leaf,lookup_leaf,ih]
        by_cases here : name = found
        · subst here
          by_cases below' : first :: path <+: name :: below
          · obtain ⟨rfl,inside⟩ := List.cons_prefix_cons.mp below'
            have deeper : below ≠ [] := by
              rintro rfl
              exact differs ⟨rfl,List.prefix_nil.mp inside⟩
            simp [below',deeper]
          · simp [below']
        · simp [here]
  | directory name children rest ihChildren ih =>
    cases other with
    | nil => simp
    | cons found below =>
      unfold Forest.remove
      by_cases same : name = first
      · subst same
        rw [if_pos rfl]
        by_cases whole : path = []
        · subst whole
          rw [if_pos rfl,ih]
          by_cases here : name = found <;> simp [here]
        · obtain ⟨second,deeper,rfl⟩ := List.exists_cons_of_ne_nil whole
          rw [if_neg whole,lookup_directory,lookup_directory,ihChildren,ih]
          by_cases here : name = found <;> simp [here]
      · rw [if_neg same,lookup_directory,lookup_directory,ih]
        by_cases here : name = found
        · subst here
          simp [Ne.symm same]
        · simp [here]

/-- In front of other entries, an entry that is looked up under its own name only. -/
structure Fronting (here : String) (front : Forest α → Forest α) : Prop where
  own : ∀ rest rest' below, (front rest).lookup (here :: below) = (front rest').lookup (here :: below)
  past : ∀ rest found below, here ≠ found → (front rest).lookup (found :: below) = rest.lookup (found :: below)

theorem fronting_leaf (here : String) (value : α) : Fronting here (Forest.leaf here value) where
  own rest rest' below := by simp
  past rest found below differs := by simp [differs]

theorem fronting_directory (here : String) (children : Forest α) : Fronting here (Forest.directory here children) where
  own rest rest' below := by simp
  past rest found below differs := by simp [differs]

/-- Paths that start with another name lead past the entry in front. -/
theorem Fronting.lookup_prefix {here first : String} {front : Forest α → Forest α} (fronting : Fronting here front)
    (differs : here ≠ first) {path deeper : Path} (start : path <+: first :: deeper) (rest : Forest α) :
    (front rest).lookup path = rest.lookup path := by
  cases path with
  | nil => simp
  | cons second path =>
    obtain ⟨rfl,-⟩ := List.cons_prefix_cons.mp start
    exact fronting.past rest second path differs

/-- So does an insertion there. -/
theorem Fronting.lookup_inserted {here first : String} {front : Forest α → Forest α} (fronting : Fronting here front)
    (differs : here ≠ first) {rest inserted : Forest α} {node : Node α} {deeper : Path}
    (added : ∀ other, inserted.lookup other = if other = first :: deeper then some node else rest.lookup other)
    (other : Path) :
    (front inserted).lookup other = if other = first :: deeper then some node else (front rest).lookup other := by
  cases other with
  | nil => simp
  | cons found below =>
    by_cases same : here = found
    · subst same
      rw [fronting.own inserted rest,if_neg (by simp [differs])]
    · rw [fronting.past _ _ _ same,fronting.past _ _ _ same]
      exact added _

/-- Only the new entry is added. -/
theorem lookup_insert {forest : Forest α} {node : Node α} {path : Path} {name : String}
    (parent : forest.lookup path = some .directory) (absent : forest.lookup (path ++ [name]) = none) (other : Path) :
    (forest.insert node (path ++ [name])).lookup other =
      if other = path ++ [name] then some node else forest.lookup other := by
  obtain ⟨first,deeper,split⟩ := List.exists_cons_of_ne_nil (List.concat_ne_nil name path)
  have start : path <+: first :: deeper := split ▸ List.prefix_append path [name]
  induction forest generalizing path other first deeper with
  | nil =>
    cases path with
    | cons first path => cases parent
    | nil =>
      cases other with
      | nil => simp
      | cons found below =>
        cases node with
        | leaf value => by_cases here : name = found <;> simp [Forest.insert,Node.entry,here,eq_comm]
        | directory =>
          cases below with
          | nil => by_cases here : name = found <;> simp [Forest.insert,Node.entry,here,eq_comm]
          | cons second below => by_cases here : name = found <;> simp [Forest.insert,Node.entry,here]
  | leaf here value rest ih =>
    have fronting := fronting_leaf here value
    have differs : here ≠ first := by
      rintro rfl
      cases path with
      | nil =>
        cases split
        simp at absent
      | cons second path =>
        cases split
        by_cases ends : path = [] <;> simp [ends] at parent
    rw [fronting.lookup_prefix differs start] at parent
    rw [split,fronting.past _ _ _ differs,← split] at absent
    have added := fun other => ih parent absent other first deeper split start
    rw [split] at added ⊢
    rw [Forest.insert]
    exact fronting.lookup_inserted differs added other
  | directory here children rest ihChildren ih =>
    by_cases through : here = first
    · subst through
      cases path with
      | nil =>
        cases split
        simp at absent
      | cons second path =>
        cases split
        rw [List.cons_append] at absent ⊢
        rw [lookup_directory,if_pos rfl] at parent absent
        obtain ⟨first,deeper,split⟩ := List.exists_cons_of_ne_nil (List.concat_ne_nil name path)
        have added := fun other =>
          ihChildren parent absent other first deeper split (split ▸ List.prefix_append path [name])
        rw [Forest.insert,if_pos rfl]
        cases other with
        | nil => simp
        | cons found below =>
          rw [lookup_directory,lookup_directory]
          by_cases same : here = found
          · subst same
            simpa using added below
          · simp [same,Ne.symm same]
    · have fronting := fronting_directory here children
      rw [fronting.lookup_prefix through start] at parent
      rw [split,fronting.past _ _ _ through,← split] at absent
      have added := fun other => ih parent absent other first deeper split start
      rw [split] at added ⊢
      rw [Forest.insert,if_neg through]
      exact fronting.lookup_inserted through added other

/-- What is found in an entry. -/
def Entry.lookup : Entry α → Path → Option (Node α)
  | .leaf value, path => if path = [] then some (.leaf value) else none
  | .directory children, path => children.lookup path

/-- Below a path the tree is that of the entry at the path. -/
theorem lookup_append (forest : Forest α) (path below : Path) :
    forest.lookup (path ++ below) = (forest.find path).bind fun entry => entry.lookup below := by
  induction forest generalizing path with
  | nil => cases path <;> rfl
  | leaf name value rest ih =>
    cases path with
    | nil => rfl
    | cons first path =>
      rw [List.cons_append,lookup_leaf,Forest.find]
      by_cases same : name = first
      · by_cases whole : path = []
        · simp [same,whole,Entry.lookup]
        · simp [same,whole]
      · rw [if_neg same,if_neg same]
        exact ih (first :: path)
  | directory name children rest ihChildren ih =>
    cases path with
    | nil => rfl
    | cons first path =>
      rw [List.cons_append,lookup_directory,Forest.find]
      by_cases same : name = first
      · rw [if_pos same,if_pos same]
        exact ihChildren path
      · rw [if_neg same,if_neg same]
        exact ih (first :: path)

/-! ## Walks -/

/-- What a walk comes to. -/
inductive Event (α : Type)
  | preVisitDirectory (path : Path)
  | visitFile (path : Path) (value : α)
  | postVisitDirectory (path : Path)
  deriving DecidableEq, Repr

def Event.path : Event α → Path
  | .preVisitDirectory path => path
  | .visitFile path _ => path
  | .postVisitDirectory path => path

/-- The events in a directory at `base`, each name once. -/
def Forest.walk (base : Path) : List String → Forest α → List (Event α)
  | _, .nil => []
  | seen, .leaf name value rest =>
    (if name ∈ seen then [] else [.visitFile (base ++ [name]) value]) ++ rest.walk base (name :: seen)
  | seen, .directory name children rest =>
    (if name ∈ seen then [] else .preVisitDirectory (base ++ [name]) :: children.walk (base ++ [name]) [] ++
      [.postVisitDirectory (base ++ [name])]) ++ rest.walk base (name :: seen)

def Entry.walk (root : Path) : Entry α → List (Event α)
  | .leaf value => [.visitFile root value]
  | .directory children => .preVisitDirectory root :: children.walk root [] ++ [.postVisitDirectory root]

theorem walk_below (forest : Forest α) (base : Path) (seen : List String) :
    ∀ event ∈ forest.walk base seen, base <+: event.path := by
  have named (base : Path) (name : String) : base <+: base ++ [name] := List.prefix_append base [name]
  induction forest generalizing base seen with
  | nil => nofun
  | leaf name value rest ih =>
    intro event member
    rcases List.mem_append.mp member with here | later
    · split at here
      · cases here
      · rw [List.mem_singleton.mp here]
        exact named base name
    · exact ih base _ event later
  | directory name children rest ihChildren ih =>
    intro event member
    rcases List.mem_append.mp member with here | later
    · split at here
      · cases here
      · simp only [List.cons_append,List.mem_cons,List.mem_append,List.not_mem_nil,or_false] at here
        rcases here with rfl | inside | rfl
        · exact named base name
        · exact (named base name).trans (ihChildren _ [] event inside)
        · exact named base name
    · exact ih base _ event later

/-- The root comes last, after what is below it. -/
theorem walk_last (entry : Entry α) (root : Path) : ∃ before last, entry.walk root = before ++ [last] ∧
    (last = .postVisitDirectory root ∨ ∃ value, last = .visitFile root value) ∧
    ∀ event ∈ before, root <+: event.path := by
  cases entry with
  | leaf value => exact ⟨[],_,rfl,.inr ⟨value,rfl⟩,nofun⟩
  | directory children =>
    refine ⟨_,_,rfl,.inl rfl,?_⟩
    intro event member
    rcases List.mem_cons.mp member with rfl | inside
    · exact List.prefix_rfl
    · exact walk_below children root [] event inside

end
end OpenRune.Trees
