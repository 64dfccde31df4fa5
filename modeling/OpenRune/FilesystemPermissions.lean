import OpenRune.Java
import OpenRune.Programs

/-!
# File system permissions

`FilesystemPermissions.check`, the first stage of `main` that can refuse to go on.
It opens an error dialog exactly when it refuses.
-/
namespace OpenRune.FilesystemPermissions
open OpenRune.Java OpenRune.Programs

/-- Files are paths below `RUNELITE_DIR`. Setting the access control lists of the
    whole tree is one operation. -/
inductive Op
  | nativesLoaded
  | isProcessElevated
  | getUserSID
  | setTreeACL (sid : String)
  | fileExists
  | mkdirs
  | listFiles (tree : List String)
  | isDirectory (file : List String)
  | toPath (file : List String)
  | isReadable (file : List String)
  | isWritable (file : List String)
  | fatalErrorDialog (message : String)

def Reply : Op → Type
  | .nativesLoaded => Bool
  | .isProcessElevated => Except Thrown Bool
  | .getUserSID => Except Thrown String
  | .setTreeACL _ => Except Thrown Unit
  | .fileExists => Bool
  | .mkdirs => Bool
  | .listFiles _ => Option (List String)
  | .isDirectory _ => Bool
  | .toPath _ => Bool
  | .isReadable _ => Bool
  | .isWritable _ => Bool
  | .fatalErrorDialog _ => Unit

abbrev checking : Signature := ⟨Op,Reply⟩

abbrev Checking (α : Type) := Program checking Thrown α

def ask (op : Op) : Checking (Reply op) := @perform checking Thrown op

def MAX_FILES_PER_DIRECTORY : Nat := 64

/-- A file that is no path is skipped. -/
def checkFile (file : List String) : Checking Bool := do
  let valid : Bool ← ask (.toPath file)
  if !valid then return true
  let readable : Bool ← ask (.isReadable file)
  if !readable then return false
  ask (.isWritable file)

/-- One turn of the loop of `checkPermissions`, with `ok` and `numFiles`. -/
def checkEntry (checkDirectory : List String → Checking Bool) (tree : List String) (sofar : Bool × Nat) (name : String) :
    Checking (Bool × Nat) := do
  let file := tree ++ [name]
  let isDirectory : Bool ← ask (.isDirectory file)
  if isDirectory then
    let fine ← checkDirectory file
    return (sofar.1 && fine,sofar.2)
  else if sofar.2 < MAX_FILES_PER_DIRECTORY then
    let fine ← checkFile file
    return (sofar.1 && fine,sofar.2 + 1)
  else return (sofar.1,sofar.2 + 1)

def checkFiles (checkDirectory : List String → Checking Bool) (tree : List String) : Checking Bool := do
  match ← ask (.listFiles tree) with
  | none => return false
  | some files => return (← files.foldlM (checkEntry checkDirectory tree) (true,0)).1

/-- `FilesystemPermissions.checkPermissions`: only the root goes into directories. -/
def checkPermissions (tree : List String) (root : Bool) : Checking Bool :=
  checkFiles (fun directory => if root then checkFiles (fun _ => return true) directory else return true) tree

/-- The `try` around `setTreeACL`. -/
def updateTree : Checking Unit := do
  match ← attempt (do
      let sid ← ofOutcome (← ask .getUserSID)
      ofOutcome (← ask (.setTreeACL sid))) with
  | .ok _ => return ()
  | .error thrown => if thrown.isException then return () else throw thrown

/-- The launcher's name, and the path of `RUNELITE_DIR`. -/
structure Names where
  name : String
  runeliteDir : String

def creationMessage (names : Names) (elevated : Bool) : String :=
  if elevated then
    "Unable to create " ++ names.name ++ " directory " ++ names.runeliteDir ++
      " while elevated. Check your filesystem permissions are correct."
  else
    "Unable to create " ++ names.name ++ " directory " ++ names.runeliteDir ++
      ". Check your filesystem permissions are correct. If you rerun " ++ names.name ++
      " as an administrator, " ++ names.name ++ " will attempt to create the directory again and fix its permissions."

def permissionMessage (names : Names) (elevated : Bool) : String :=
  "The file permissions of " ++ names.runeliteDir ++
    ", or a file within it, is not correct. Check the logs for more details." ++
    if elevated then ""
    else " If you rerun " ++ names.name ++ " as an administrator, " ++ names.name ++
      " will attempt to fix the file permissions."

/-- The end of `check`. -/
def checkTree (names : Names) (elevated : Bool) : Checking Bool := do
  let permissionsOk ← checkPermissions [] true
  if permissionsOk then return false
  ask (.fatalErrorDialog (permissionMessage names elevated))
  return true

/-- `RUNELITE_DIR` is made if it is missing. -/
def ensureTree (names : Names) (elevated : Bool) : Checking Bool := do
  let there : Bool ← ask .fileExists
  if there then checkTree names elevated
  else
    let made : Bool ← ask .mkdirs
    if made then
      if elevated then updateTree
      checkTree names elevated
    else
      ask (.fatalErrorDialog (creationMessage names elevated))
      return true

/-- `FilesystemPermissions.check`. -/
def check (names : Names) : Checking Bool := do
  let nativesLoaded : Bool ← ask .nativesLoaded
  if !nativesLoaded then return false
  let elevated ← ofOutcome (← ask .isProcessElevated)
  if elevated then updateTree
  ensureTree names elevated

/-! ## Dialogs -/

def Op.isDialog : Op → Bool
  | .fatalErrorDialog _ => true
  | _ => false

/-- Every operation but the dialog. -/
def Op.silent (op : Op) : Prop := op.isDialog = false

theorem only_ask {op : Op} (silent : Op.silent op) : Only Op.silent (ask op) := only_perform silent

private theorem checkFile_silent (file : List String) : Only Op.silent (checkFile file) := by
  refine only_bind (only_ask rfl) fun (valid : Bool) => ?_
  cases valid with
  | false => exact trivial
  | true =>
    refine only_bind (only_ask rfl) fun (readable : Bool) => ?_
    cases readable with
    | false => exact trivial
    | true => exact only_ask rfl

private theorem checkFiles_silent {checkDirectory : List String → Checking Bool}
    (silent : ∀ directory, Only Op.silent (checkDirectory directory)) (tree : List String) :
    Only Op.silent (checkFiles checkDirectory tree) := by
  refine only_bind (only_ask rfl) ?_
  rintro (- | files)
  · exact trivial
  refine only_bind (only_foldlM ?_ files (true,0)) fun _ => only_pure _
  intro sofar name
  refine only_bind (only_ask rfl) fun (isDirectory : Bool) => ?_
  split
  · exact only_bind (silent _) fun _ => trivial
  · split
    · exact only_bind (checkFile_silent _) fun _ => trivial
    · exact trivial

theorem checkPermissions_silent (tree : List String) (root : Bool) : Only Op.silent (checkPermissions tree root) := by
  refine checkFiles_silent ?_ tree
  intro directory
  split
  · exact checkFiles_silent (fun _ => only_pure _) directory
  · exact only_pure _

private theorem updateTree_silent : Only Op.silent updateTree := by
  refine only_bind (only_attempt ?_) ?_
  · refine only_bind (only_ask rfl) fun found => only_bind (only_ofOutcome _) fun sid => ?_
    exact only_bind (only_ask rfl) fun _ => only_ofOutcome _
  · intro outcome
    split
    · exact trivial
    · split <;> exact trivial

section
variable {σ : Type} {env : Environment checking σ} {n : Nat}

private theorem silent_uncounted {α : Type} {p : Checking α} {s : σ} (silent : Only Op.silent p) :
    Ends (Counting env Op.isDialog) p (fun _ t => t.2 = n) (s,n) := by
  have uncounted : Ensures env (fun op _ => op.isDialog = false) p (fun _ _ => True) s :=
    ensures_only silent trivial (fun _ _ silent _ => silent) fun _ _ _ _ _ _ _ => trivial
  exact ensures_mono (counting_none uncounted) fun _ _ counted => counted.2

/-- A dialog, after which the check refuses. -/
private theorem refuse_dialogs (message : String) (s : σ) : Ends (Counting env Op.isDialog)
    (do ask (.fatalErrorDialog message); return true : Checking Bool)
    (fun outcome t => t.2 = n + if outcome = .ok true then 1 else 0) (s,n) := by
  refine ensures_perform trivial ?_
  rintro reply ⟨t,m⟩ ⟨-,counted⟩
  exact counted

private theorem checkTree_dialogs (names : Names) (elevated : Bool) (s : σ) : Ends (Counting env Op.isDialog)
    (checkTree names elevated) (fun outcome t => t.2 = n + if outcome = .ok true then 1 else 0) (s,n) := by
  refine ensures_bind (ensures_mono (silent_uncounted (checkPermissions_silent _ _)) ?_)
  rintro (thrown | permissionsOk) ⟨t,m⟩ same
  · exact same
  obtain rfl : m = n := same
  cases permissionsOk with
  | true => exact rfl
  | false => exact refuse_dialogs _ t

/-- Setting the access control lists opens no dialog. -/
private theorem updated_dialogs {p : Checking Bool} (s : σ) (follows : ∀ t, Ends (Counting env Op.isDialog) p
    (fun outcome t => t.2 = n + if outcome = .ok true then 1 else 0) (t,n)) : Ends (Counting env Op.isDialog)
      (updateTree >>= fun _ => p) (fun outcome t => t.2 = n + if outcome = .ok true then 1 else 0) (s,n) := by
  refine ensures_bind (ensures_mono (silent_uncounted updateTree_silent) ?_)
  rintro (thrown | done) ⟨t,m⟩ same
  · exact same
  obtain rfl : m = n := same
  exact follows t

private theorem ensureTree_dialogs (names : Names) (elevated : Bool) (s : σ) : Ends (Counting env Op.isDialog)
    (ensureTree names elevated) (fun outcome t => t.2 = n + if outcome = .ok true then 1 else 0) (s,n) := by
  refine ensures_perform trivial ?_
  rintro (there : Bool) ⟨t,m⟩ ⟨-,same⟩
  obtain rfl : m = n := same
  cases there with
  | true => exact checkTree_dialogs names elevated t
  | false =>
    refine ensures_perform trivial ?_
    rintro (made : Bool) ⟨u,k⟩ ⟨-,same⟩
    obtain rfl : k = m := same
    cases made with
    | false => exact refuse_dialogs _ u
    | true =>
      cases elevated with
      | false => exact checkTree_dialogs names false u
      | true => exact updated_dialogs u fun v => checkTree_dialogs names true v

/-- The check opens one dialog when it refuses, and otherwise none. -/
theorem check_dialogs (names : Names) (s : σ) : Ends (Counting env Op.isDialog) (check names)
    (fun outcome t => t.2 = n + if outcome = .ok true then 1 else 0) (s,n) := by
  refine ensures_perform trivial ?_
  rintro (loaded : Bool) ⟨t,m⟩ ⟨-,same⟩
  obtain rfl : m = n := same
  cases loaded with
  | false => exact rfl
  | true =>
    refine ensures_perform trivial ?_
    rintro reply ⟨u,k⟩ ⟨-,same⟩
    obtain rfl : k = m := same
    refine ensures_outcome (fun elevated _ => ?_) fun thrown _ => rfl
    cases elevated with
    | false => exact ensureTree_dialogs names false u
    | true => exact updated_dialogs u fun v => ensureTree_dialogs names true v

end
end OpenRune.FilesystemPermissions
