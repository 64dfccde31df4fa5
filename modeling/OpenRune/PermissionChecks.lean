import OpenRune.FilesystemPermissions

/-!
# Which files are checked

What `FilesystemPermissions.checkPermissions` answers on a directory tree. Each of
the directories it goes into has a budget of files; directories use none of it, and
files whose names are no paths use it without being checked.
-/
namespace OpenRune.PermissionChecks
open OpenRune.Java OpenRune.Programs OpenRune.FilesystemPermissions

/-- A directory tree while nobody changes it: what is listed, in which order, and
    what is told of each entry. -/
structure Tree where
  listFiles : List String → Option (List String)
  isDirectory : List String → Bool
  isPath : List String → Bool
  isReadable : List String → Bool
  isWritable : List String → Bool

def Tree.answer (tree : Tree) : (op : Op) → Reply op
  | .nativesLoaded => true
  | .isProcessElevated => .ok false
  | .getUserSID => .ok ""
  | .setTreeACL _ => .ok ()
  | .fileExists => true
  | .mkdirs => true
  | .listFiles directory => tree.listFiles directory
  | .isDirectory file => tree.isDirectory file
  | .toPath file => tree.isPath file
  | .isReadable file => tree.isReadable file
  | .isWritable file => tree.isWritable file
  | .fatalErrorDialog _ => ()

section
variable (tree : Tree)

/-- A file that is a path has to be readable and writable. -/
def Tree.accessible (file : List String) : Bool := !tree.isPath file || tree.isReadable file && tree.isWritable file

/-- Among names listed in a directory, those of the entries that are no directories. -/
def Tree.filesOf (directory names : List String) : List String :=
  names.filter fun name => !tree.isDirectory (directory ++ [name])

def Tree.directoriesOf (directory names : List String) : List String :=
  names.filter fun name => tree.isDirectory (directory ++ [name])

/-- The first `budget` files of the directory are accessible. -/
def Tree.fine (budget : Nat) (directory : List String) : Bool :=
  (tree.listFiles directory).any fun names =>
    ((tree.filesOf directory names).take budget).all fun name => tree.accessible (directory ++ [name])

/-- So they are in the root and in the directories that are in it. -/
def Tree.fineTree (budget : Nat) (root : List String) : Bool :=
  tree.fine budget root && (tree.listFiles root).all fun names =>
    (tree.directoriesOf root names).all fun name => tree.fine budget (root ++ [name])

end

section
variable {tree : Tree} {directory : List String}

theorem checkFile_answered (file : List String) : (checkFile file).answered tree.answer = .ok (tree.accessible file) := by
  change Program.answered tree.answer (if (!tree.isPath file) = true then pure true else do
    let readable : Bool ← ask (.isReadable file)
    if !readable then return false
    ask (.isWritable file)) = _
  unfold Tree.accessible
  cases tree.isPath file with
  | false => rfl
  | true =>
    change Program.answered tree.answer
      (if (!tree.isReadable file) = true then pure false else ask (.isWritable file) : Checking Bool) = _
    cases tree.isReadable file with
    | false => rfl
    | true => rfl

/-- A directory is gone into, a file is checked within the budget, and counted. -/
theorem checkEntry_answered {checkDirectory : List String → Checking Bool} {verdict : List String → Bool}
    (checks : ∀ directory, (checkDirectory directory).answered tree.answer = .ok (verdict directory))
    (name : String) (ok : Bool) (numFiles : Nat) :
    (checkEntry checkDirectory directory (ok,numFiles) name).answered tree.answer =
      if tree.isDirectory (directory ++ [name]) then .ok (ok && verdict (directory ++ [name]),numFiles)
      else if numFiles < MAX_FILES_PER_DIRECTORY then .ok (ok && tree.accessible (directory ++ [name]),numFiles + 1)
      else .ok (ok,numFiles + 1) := by
  change Program.answered tree.answer (if tree.isDirectory (directory ++ [name]) = true then do
      let fine ← checkDirectory (directory ++ [name])
      return (ok && fine,numFiles)
    else if numFiles < MAX_FILES_PER_DIRECTORY then do
      let fine ← checkFile (directory ++ [name])
      return (ok && fine,numFiles + 1)
    else return (ok,numFiles + 1)) = _
  split
  · rw [answered_bind,checks]
    rfl
  · split
    · rw [answered_bind,checkFile_answered]
      rfl
    · rfl

/-- The loop: the files that are left of the budget, and all the directories. -/
theorem checkEntries_answered {checkDirectory : List String → Checking Bool} {verdict : List String → Bool}
    (checks : ∀ directory, (checkDirectory directory).answered tree.answer = .ok (verdict directory))
    (names : List String) (ok : Bool) (numFiles : Nat) :
    (names.foldlM (checkEntry checkDirectory directory) (ok,numFiles)).answered tree.answer =
      .ok (ok && ((tree.filesOf directory names).take (MAX_FILES_PER_DIRECTORY - numFiles)).all
          (fun name => tree.accessible (directory ++ [name])) &&
        (tree.directoriesOf directory names).all (fun name => verdict (directory ++ [name])),
        numFiles + (tree.filesOf directory names).length) := by
  induction names generalizing ok numFiles with
  | nil => simp [Tree.filesOf,Tree.directoriesOf,Program.answered,pure]
  | cons name rest ih =>
    rw [List.foldlM_cons,answered_bind,checkEntry_answered checks]
    by_cases inside : tree.isDirectory (directory ++ [name]) = true
    · rw [if_pos inside,ok_bind,ih]
      simp [Tree.filesOf,Tree.directoriesOf,inside,Bool.and_assoc,Bool.and_left_comm]
    · rw [if_neg inside]
      by_cases within : numFiles < MAX_FILES_PER_DIRECTORY
      · obtain ⟨left,rest'⟩ : ∃ left, MAX_FILES_PER_DIRECTORY - numFiles = left + 1 :=
          ⟨MAX_FILES_PER_DIRECTORY - (numFiles + 1),by omega⟩
        have next : MAX_FILES_PER_DIRECTORY - (numFiles + 1) = left := by omega
        rw [if_pos within,ok_bind,ih,rest',next]
        simp [Tree.filesOf,Tree.directoriesOf,inside,Bool.and_assoc]
        omega
      · have spent : MAX_FILES_PER_DIRECTORY - numFiles = 0 := by omega
        have spent' : MAX_FILES_PER_DIRECTORY - (numFiles + 1) = 0 := by omega
        rw [if_neg within,ok_bind,ih,spent,spent']
        simp [Tree.filesOf,Tree.directoriesOf,inside]
        omega

theorem checkFiles_answered {checkDirectory : List String → Checking Bool} {verdict : List String → Bool}
    (checks : ∀ directory, (checkDirectory directory).answered tree.answer = .ok (verdict directory)) :
    (checkFiles checkDirectory directory).answered tree.answer =
      .ok (tree.fine MAX_FILES_PER_DIRECTORY directory && (tree.listFiles directory).all fun names =>
        (tree.directoriesOf directory names).all fun name => verdict (directory ++ [name])) := by
  obtain ⟨next,lists,unlisted,goes⟩ : ∃ next, checkFiles checkDirectory directory = .call (.listFiles directory) next ∧
      next none = .done false ∧ ∀ files, next (some files) =
        files.foldlM (checkEntry checkDirectory directory) (true,0) >>= fun sofar => .done sofar.1 :=
    ⟨_,rfl,rfl,fun files => rfl⟩
  rw [lists]
  change (next (tree.listFiles directory)).answered tree.answer = _
  unfold Tree.fine
  cases tree.listFiles directory with
  | none =>
    rw [unlisted]
    rfl
  | some names =>
    rw [goes,answered_bind,checkEntries_answered checks]
    simp [Program.answered]

/-- The answer, in terms of the tree. -/
theorem checkPermissions_answered (root : List String) :
    (checkPermissions root true).answered tree.answer = .ok (tree.fineTree MAX_FILES_PER_DIRECTORY root) := by
  refine checkFiles_answered fun directory => ?_
  have nothing (inner : List String) : (return true : Checking Bool).answered tree.answer = .ok ((fun _ => true) inner) :=
    rfl
  simp only [if_true,checkFiles_answered nothing]
  cases tree.listFiles directory <;> simp

end

/-! ## Ordinary directories -/

/-- The directories that are gone into. -/
def Tree.visits (tree : Tree) (root directory : List String) : Prop :=
  directory = root ∨ ∃ names name, tree.listFiles root = some names ∧ name ∈ names ∧
    tree.isDirectory (root ++ [name]) = true ∧ directory = root ++ [name]

/-- Each of the directories that are gone into can be listed, and the first files
    listed in it, those that are paths, are readable and writable. -/
def Tree.FirstFine (tree : Tree) (budget : Nat) (root : List String) : Prop :=
  ∀ directory, tree.visits root directory → ∃ names, tree.listFiles directory = some names ∧
    ∀ name ∈ (tree.filesOf directory names).take budget, tree.isPath (directory ++ [name]) = true →
      tree.isReadable (directory ++ [name]) = true ∧ tree.isWritable (directory ++ [name]) = true

/-- The same, of all the files. -/
def Tree.AllFine (tree : Tree) (root : List String) : Prop :=
  ∀ directory, tree.visits root directory → ∃ names, tree.listFiles directory = some names ∧
    ∀ name ∈ names, tree.isDirectory (directory ++ [name]) = false → tree.isPath (directory ++ [name]) = true →
      tree.isReadable (directory ++ [name]) = true ∧ tree.isWritable (directory ++ [name]) = true

/-- None of these directories holds more files than are checked. -/
def Tree.Ordinary (tree : Tree) (root : List String) : Prop :=
  ∀ directory names, tree.visits root directory → tree.listFiles directory = some names →
    (tree.filesOf directory names).length ≤ MAX_FILES_PER_DIRECTORY

/-- The same tree, listed in another order. -/
structure Reordered (tree tree' : Tree) : Prop where
  listed : ∀ directory, Option.Rel List.Perm (tree.listFiles directory) (tree'.listFiles directory)
  isDirectory : tree'.isDirectory = tree.isDirectory
  isPath : tree'.isPath = tree.isPath
  isReadable : tree'.isReadable = tree.isReadable
  isWritable : tree'.isWritable = tree.isWritable

section
variable {tree tree' : Tree} {root : List String}

theorem fine_iff {budget : Nat} {directory : List String} : tree.fine budget directory = true ↔
    ∃ names, tree.listFiles directory = some names ∧
      ∀ name ∈ (tree.filesOf directory names).take budget, tree.isPath (directory ++ [name]) = true →
        tree.isReadable (directory ++ [name]) = true ∧ tree.isWritable (directory ++ [name]) = true := by
  unfold Tree.fine Tree.accessible
  cases listed : tree.listFiles directory with
  | none => simp
  | some names =>
    simp only [Option.any_some,List.all_eq_true,Option.some.injEq,exists_eq_left']
    refine forall₂_congr fun name member => ?_
    cases tree.isPath (directory ++ [name]) <;> simp

theorem fineTree_iff {budget : Nat} : tree.fineTree budget root = true ↔ tree.FirstFine budget root := by
  unfold Tree.fineTree Tree.FirstFine
  rw [Bool.and_eq_true]
  constructor
  · rintro ⟨here,below⟩ directory (rfl | ⟨names,name,listed,member,inside,rfl⟩)
    · exact fine_iff.mp here
    · rw [listed,Option.all_some,List.all_eq_true] at below
      exact fine_iff.mp (below name (List.mem_filter.mpr ⟨member,inside⟩))
  · intro fine
    refine ⟨fine_iff.mpr (fine root (.inl rfl)),?_⟩
    cases listed : tree.listFiles root with
    | none => rfl
    | some names =>
      rw [Option.all_some,List.all_eq_true]
      intro name member
      obtain ⟨member,inside⟩ := List.mem_filter.mp member
      exact fine_iff.mpr (fine _ (.inr ⟨names,name,listed,member,inside,rfl⟩))

/-- Within the budget the first files are all files. -/
theorem ordinary_fine (ordinary : tree.Ordinary root) :
    tree.FirstFine MAX_FILES_PER_DIRECTORY root ↔ tree.AllFine root := by
  unfold Tree.FirstFine Tree.AllFine
  refine forall₂_congr fun directory visited => exists_congr fun names => and_congr_right fun listed => ?_
  rw [List.take_of_length_le (ordinary directory names visited listed)]
  simp only [Tree.filesOf,List.mem_filter,Bool.not_eq_true']
  exact ⟨fun fine name member file => fine name ⟨member,file⟩,fun fine name file => fine name file.1 file.2⟩

/-- What is listed in the other order. -/
theorem reordered_listed (reordered : Reordered tree tree') {directory names : List String}
    (listed : tree.listFiles directory = some names) :
    ∃ names', tree'.listFiles directory = some names' ∧ names.Perm names' := by
  have same := reordered.listed directory
  rw [listed] at same
  cases other : tree'.listFiles directory with
  | none =>
    rw [other] at same
    cases same
  | some names' =>
    rw [other] at same
    cases same with
    | some perm => exact ⟨names',rfl,perm⟩

theorem reordered_symm (reordered : Reordered tree tree') : Reordered tree' tree where
  listed directory := by
    have same := reordered.listed directory
    cases here : tree.listFiles directory with
    | none =>
      cases there : tree'.listFiles directory with
      | none => exact .none
      | some names =>
        rw [here,there] at same
        cases same
    | some names =>
      obtain ⟨names',there,perm⟩ := reordered_listed reordered here
      rw [there]
      exact .some perm.symm
  isDirectory := reordered.isDirectory.symm
  isPath := reordered.isPath.symm
  isReadable := reordered.isReadable.symm
  isWritable := reordered.isWritable.symm

theorem reordered_visits (reordered : Reordered tree tree') {directory : List String} (visited : tree'.visits root directory) :
    tree.visits root directory := by
  rcases visited with rfl | ⟨names,name,listed,member,inside,rfl⟩
  · exact .inl rfl
  · obtain ⟨names',listed',perm⟩ := reordered_listed (reordered_symm reordered) listed
    rw [reordered.isDirectory] at inside
    exact .inr ⟨names',name,listed',perm.subset member,inside,rfl⟩

theorem reordered_allFine (reordered : Reordered tree tree') (fine : tree.AllFine root) : tree'.AllFine root := by
  intro directory visited
  obtain ⟨names,listed,accessible⟩ := fine directory (reordered_visits reordered visited)
  obtain ⟨names',listed',perm⟩ := reordered_listed reordered listed
  refine ⟨names',listed',fun name member => ?_⟩
  rw [reordered.isDirectory,reordered.isPath,reordered.isReadable,reordered.isWritable]
  exact accessible name (perm.symm.subset member)

theorem reordered_ordinary (reordered : Reordered tree tree') (ordinary : tree.Ordinary root) : tree'.Ordinary root := by
  intro directory names' visited listed'
  obtain ⟨names,listed,perm⟩ := reordered_listed (reordered_symm reordered) listed'
  have same : tree'.filesOf directory = tree.filesOf directory := by
    funext names
    rw [Tree.filesOf,Tree.filesOf,reordered.isDirectory]
  rw [same,Tree.filesOf,(perm.filter _).length_eq]
  exact ordinary directory names (reordered_visits reordered visited) listed

/-- On ordinary directories the check answers `true` exactly when everything in them
    is accessible, in whichever order it is listed; on others `true` still tells as
    much of the files that are listed first. -/
theorem checkPermissions_exact (tree : Tree) (root : List String) :
    (tree.Ordinary root →
      ((checkPermissions root true).answered tree.answer = .ok true ↔ tree.AllFine root) ∧
        ∀ tree', Reordered tree tree' → (checkPermissions root true).answered tree'.answer =
          (checkPermissions root true).answered tree.answer) ∧
    ((checkPermissions root true).answered tree.answer = .ok true →
      tree.FirstFine MAX_FILES_PER_DIRECTORY root) := by
  have exact' {tree : Tree} : tree.Ordinary root →
      ((checkPermissions root true).answered tree.answer = .ok true ↔ tree.AllFine root) := by
    intro ordinary
    rw [checkPermissions_answered,Except.ok.injEq,fineTree_iff,ordinary_fine ordinary]
  refine ⟨fun ordinary => ⟨exact' ordinary,fun tree' reordered => ?_⟩,fun fine => ?_⟩
  · have same : tree'.AllFine root ↔ tree.AllFine root :=
      ⟨reordered_allFine (reordered_symm reordered),reordered_allFine reordered⟩
    rw [← exact' ordinary,← exact' (reordered_ordinary reordered ordinary),checkPermissions_answered,
      checkPermissions_answered,Except.ok.injEq,Except.ok.injEq,Bool.eq_iff_iff.symm] at same
    rw [checkPermissions_answered,checkPermissions_answered,same]
  · rw [checkPermissions_answered,Except.ok.injEq,fineTree_iff] at fine
    exact fine

/-- A file beside a directory with two files, of which the name of one is no path. -/
private def sampleTree : Tree where
  listFiles directory :=
    if directory = [] then some ["settings.json","logs"] else if directory = ["logs"] then some ["a.log","b:log"] else none
  isDirectory file := file == ["logs"]
  isPath file := file != ["logs","b:log"]
  isReadable _ := true
  isWritable file := file != ["logs","b:log"]

private theorem sample_visits {directory : List String} (visited : sampleTree.visits [] directory) :
    directory = [] ∨ directory = ["logs"] := by
  rcases visited with rfl | ⟨names,name,listed,member,inside,rfl⟩
  · exact .inl rfl
  · exact .inr (by simpa [sampleTree] using inside)

theorem checkPermissions_exact_sample : (checkPermissions [] true).answered sampleTree.answer = .ok true := by
  refine ((checkPermissions_exact sampleTree []).1 ?_).1.mpr ?_
  · intro directory names visited listed
    rcases sample_visits visited with rfl | rfl <;> cases listed <;> decide
  · intro directory visited
    rcases sample_visits visited with rfl | rfl
    · exact ⟨_,rfl,by decide⟩
    · exact ⟨_,rfl,by decide⟩

end
end OpenRune.PermissionChecks
