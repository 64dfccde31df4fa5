import OpenRune.Downloads
import OpenRune.Launchers
import OpenRune.Plist
import OpenRune.Trees

/-!
# The self-update

`Updater.updateWindows` and `Updater.updateMacos`: from the checks that let an
update through, over the download into a temporary file, to the installer that is
started, or to the application bundle that is replaced.
-/
namespace OpenRune.SelfUpdate
open OpenRune.Java OpenRune.Beans OpenRune.Updates OpenRune.Settings OpenRune.Programs OpenRune.Downloads
  OpenRune.Launchers OpenRune.Plist OpenRune.Trees
open OpenRune.Operations (Bytes Connection overwrite)

/-- The methods of `java.nio.file.Path`, on paths as text. -/
structure Paths where
  get : String → Except Thrown String
  toAbsolutePath : String → String
  normalize : String → String
  startsWith : String → String → Except Thrown Bool
  getFileName : String → Option String
  getParent : String → Option String
  resolveSibling : String → String → String
  resolve : String → String → String

/-- What the updater reads of its process and its system. `upgrade` is the
    variable that marks a launch from an upgrade, `locate` takes a directory to its
    place in the file system, and `toShare` divides by `Integer.MAX_VALUE`. -/
structure Surroundings where
  properties : LauncherProperties
  machine : Machine
  paths : Paths
  javaHome : Option String
  upgrade : Option String
  locate : String → Except Thrown Path
  toShare : Int → Double

/-- What the file system holds besides directories. -/
inductive Leaf
  | file (content : Bytes)
  | link (text : String)
  deriving DecidableEq, Repr

/-- The end of `Files.copy`. -/
inductive Copying
  | copied
  | alreadyExists
  | failed (thrown : Thrown)
  deriving DecidableEq, Repr

inductive Op
  | fileExists (path : String)
  | regQueryString
  | processCommand
  | loadSettings
  | saveSettings (settings : LauncherSettings)
  | now
  | currentTimeMillis
  | tasklist
  | installId
  | random
  | createTempFile (suffix : String)
  | newOutputStream (file : String)
  | write (file : String) (position : Nat) (buffer : Bytes)
  | connect (url : Option String)
  | stage (name : Option String) (completed size : Int)
  | deleteTempFile (file : String)
  | startInstaller (command : List String) (environment : List (String × String))
  | startAttach (file : String)
  | waitFor
  | destroy
  | exitValue
  | plist
  | tree (root : Path)
  | visit (path : Path)
  | delete (path : Path)
  | copy (source target : Path)
  | isDirectory (path : Path)
  | startDetach (mountPoint : String)
  | relaunch (command : List String) (environment : List (String × String))

def Reply : Op → Type
  | .fileExists _ => Bool
  | .regQueryString => Except Thrown (Option String)
  | .processCommand => Except Thrown (Option String)
  | .loadSettings => LauncherSettings
  | .saveSettings _ => Except Thrown Unit
  | .now => Int
  | .currentTimeMillis => Int
  | .tasklist => Except Thrown (List String)
  | .installId => Except Thrown (Option String)
  | .random => Double
  | .createTempFile _ => Except Thrown String
  | .newOutputStream _ => Except Thrown Unit
  | .write _ _ _ => Except Thrown Unit
  | .connect _ => Connection
  | .stage _ _ _ => Unit
  | .deleteTempFile _ => Bool
  | .startInstaller _ _ => Except Thrown Unit
  | .startAttach _ => Except Thrown Unit
  | .waitFor => Except Thrown Bool
  | .destroy => Unit
  | .exitValue => Int
  | .plist => Except Thrown Nodes
  | .tree _ => Option (Entry Leaf)
  | .visit _ => Except Thrown Unit
  | .delete _ => Except Thrown Unit
  | .copy _ _ => Copying
  | .isDirectory _ => Bool
  | .startDetach _ => Except Thrown Unit
  | .relaunch _ _ => Except Thrown Unit

abbrev updater : Signature := ⟨Op,Reply⟩

abbrev Updating (α : Type) := Program updater Thrown α

def ask (op : Op) : Updating (Reply op) := @perform updater Thrown op

/-! ## Running from the installer -/

/-- `Updater.getCurrentJavaProcessCommand`. -/
def getCurrentJavaProcessCommand (host : Surroundings) : Updating (Option String) := do
  match host.javaHome with
  | none => return none
  | some javaHome =>
    let javaBin ← ofOutcome (host.paths.get javaHome)
    let javaBin := host.paths.resolve (host.paths.resolve javaBin "bin") "java.exe"
    let found : Bool ← ask (.fileExists javaBin)
    return if found then some (host.paths.toAbsolutePath javaBin) else none

/-- `regQueryString`, with what `updateWindows` catches. -/
def getInstallLocation : Updating (Option (Option String)) := do
  match ← ask .regQueryString with
  | .ok installLocation => return some installLocation
  | .error thrown => if thrown = .unchecked ∨ thrown = .error then return none else throw thrown

def isInstalledWindows (host : Surroundings) (currentCommand : String) (installLocation : Option String) :
    Except Thrown Bool := do
  let path ← host.paths.get currentCommand
  let within ← host.paths.startsWith path (← deref installLocation)
  if within then return decide ((← deref (host.paths.getFileName path)) = host.properties.name ++ ".exe")
  else return false

/-- The beginning of `updateWindows`. -/
def checkWindows (host : Surroundings) : Updating Bool := do
  let currentCommand := (← getCurrentJavaProcessCommand host).getD ""
  if currentCommand = "" then return false
  else match ← getInstallLocation with
    | none => return false
    | some installLocation => ofOutcome (isInstalledWindows host currentCommand installLocation)

def appDirectory (properties : LauncherProperties) : String := properties.name ++ ".app"

/-- `RUNELITE_APP`. -/
def runeliteApp (properties : LauncherProperties) : Path := ["Applications",appDirectory properties]

/-- The executable of a process whose working directory is `Resources`. -/
def executablePath (paths : Paths) (path : String) : Except Thrown String := do
  if contains path.toList "/Contents/Resources/".toList then
    let parent ← deref (paths.getParent path)
    let fileName ← deref (paths.getFileName path)
    return paths.normalize (paths.resolve (paths.resolveSibling parent "MacOS") fileName)
  else return path

/-- The path of the executable, when it is in the application bundle. -/
def installedMacos (host : Surroundings) (command : String) : Except Thrown (Option String) := do
  let executable ← deref (split (fun c => c == ' ') command.toList)[0]?
  let absolute := host.paths.toAbsolutePath (← host.paths.get (String.ofList executable))
  let path ← executablePath host.paths (host.paths.normalize absolute)
  if (← deref (host.paths.getFileName path)) = host.properties.name then
    let within ← host.paths.startsWith path ("/Applications/" ++ appDirectory host.properties)
    return if within then some path else none
  else return none

/-- The beginning of `updateMacos`. -/
def checkMacos (host : Surroundings) : Updating (Option String) := do
  match ← ask .processCommand with
  | .error thrown => if thrown.isException then return none else throw thrown
  | .ok command =>
    if command.getD "" = "" then return none else ofOutcome (installedMacos host (command.getD ""))

/-! ## Whether to update -/

/-- `1 << Math.min(9, num)`: shifts count modulo 32. -/
def backoffHours (num : Int) : Int := int32 (2 ^ (min 9 num % 32).toNat)

def nanosPerMilli : Int := 1000000
def nanosPerHour : Int := 3600 * 1000000000

/-- The last attempt is after the limit; `now` is in nanoseconds. -/
def isRecent (settings : LauncherSettings) (now : Int) : Bool :=
  decide (now - backoffHours settings.lastUpdateAttemptNum * nanosPerHour <
    settings.lastUpdateAttemptTime * nanosPerMilli)

/-- The backoff check of `updateWindows`, which reads the clock last. -/
def backoffWindows (settings : LauncherSettings) (update : Update) : Updating Bool := do
  let hash ← ofOutcome (deref update.hash)
  if some hash = settings.lastUpdateHash then return isRecent settings (← ask .now) else return false

/-- The backoff check of `updateMacos`, which reads the clock first. -/
def backoffMacos (settings : LauncherSettings) (update : Update) : Updating Bool := do
  let now ← ask .now
  let hash ← ofOutcome (deref update.hash)
  return decide (some hash = settings.lastUpdateHash) && isRecent settings now

/-- The update to go on with, and the settings that were read: `updateWindows` and
    `updateMacos` alike, but for the backoff check. -/
def offerWith (backoff : LauncherSettings → Update → Updating Bool) (host : Surroundings) (bootstrap : Bootstrap)
    (launcherSettings : LauncherSettings) : Updating (Option (Update × LauncherSettings)) := do
  match ← ofOutcome (findAvailableUpdate host.machine (some host.properties.version) bootstrap) with
  | none => return none
  | some newestUpdate =>
    if launcherSettings.noupdates then return none
    else if host.upgrade.isSome then return none
    else
      let settings ← ask .loadSettings
      if ← backoff settings newestUpdate then return none
      return some (newestUpdate,settings)

def offerWindows (host : Surroundings) (bootstrap : Bootstrap) (launcherSettings : LauncherSettings) :
    Updating (Option (Update × LauncherSettings)) := offerWith backoffWindows host bootstrap launcherSettings

def offerMacos (host : Surroundings) (bootstrap : Bootstrap) (launcherSettings : LauncherSettings) :
    Updating (Option (Update × LauncherSettings)) := offerWith backoffMacos host bootstrap launcherSettings

/-- `Updater.isAnotherLauncherProcessRunning`. -/
def isAnotherLauncherProcessRunning (properties : LauncherProperties) : Updating Bool := do
  match ← ask .tasklist with
  | .error thrown => if thrown.isIOException then return false else throw thrown
  | .ok lines =>
    return decide (1 < (lines.filter fun line => contains line.toList (properties.name ++ ".exe").toList).length)

/-- `Math.random`. -/
def random : Updating Double := ask .random

/-- `Updater.installRollout`. -/
def installRollout (toShare : Int → Double) : Updating Double := do
  match ← ask .installId with
  | .ok (some line) =>
    match parseInt (Java.trim line) with
    | some i => return toShare i
    | none => random
  | .ok none => random
  | .error thrown => if thrown.isIOException then random else throw thrown

/-- The rollout check, which asks for a share only when there is a rollout. -/
def heldBack (rollout : Double) (share : Updating Double) : Updating Bool := do
  if rollout.gt (.finite 0) then return (← share).gt rollout else return false

/-- An attempt at an update. -/
def recordAttempt (settings : LauncherSettings) (time : Int) (hash : Option String) : LauncherSettings :=
  { settings with
    lastUpdateAttemptTime := time
    lastUpdateHash := hash
    lastUpdateAttemptNum := int32 (settings.lastUpdateAttemptNum + 1) }

def markAttempt (settings : LauncherSettings) (update : Update) : Updating Unit := do
  let time ← ask .currentTimeMillis
  ofOutcome (← ask (.saveSettings (recordAttempt settings time update.hash)))

/-! ## Fetching -/

def writeTemp (file : String) (position : Nat) (buffer : Bytes) : Updating Unit := do
  ofOutcome (← ask (.write file position buffer))

/-- The update in a temporary file, or nothing when it is not what was announced. -/
def fetch (sha256 : Bytes → String) (suffix : String) (update : Update) : Updating (Option String) := do
  let file ← ofOutcome (← ask (.createTempFile suffix))
  ofOutcome (← ask (.newOutputStream file))
  match ← attempt (downloadTo sha256 (ask (.connect update.url)) update.hash
      (fun completed => ask (.stage update.name completed update.size)) (writeTemp file)) with
  | .ok _ => return some file
  | .error .verification => do
    let _ ← ask (.deleteTempFile file)
    return none
  | .error thrown => throw thrown

/-! ## Windows -/

def escapeArg (arg : String) : String :=
  if arg.toList.contains ' ' || arg.toList.contains '"' then "\"" ++ arg.replace "\"" "\\\"" ++ "\"" else arg

/-- The loop with the `StringBuilder` for `_UPGRADE_PARAMS`. -/
def argStr (args : List String) : String :=
  args.foldl (fun sb arg => (if sb = "" then sb else sb ++ " ") ++ escapeArg arg) ""

def upgradeVariable (properties : LauncherProperties) : String := properties.name.toUpper ++ "_UPGRADE"

def runInstaller (sha256 : Bytes → String) (host : Surroundings) (update : Update) (args : List String) :
    Updating Unit := do
  match ← fetch sha256 "exe" update with
  | none => return ()
  | some file =>
    ofOutcome (← ask (.startInstaller [host.paths.toAbsolutePath file,"/SILENT"]
      [(upgradeVariable host.properties,"1"),(upgradeVariable host.properties ++ "_PARAMS",argStr args)]))
    throw .exit

/-- `Updater.updateWindows`. -/
def updateWindows (sha256 : Bytes → String) (host : Surroundings) (bootstrap : Bootstrap)
    (launcherSettings : LauncherSettings) (args : List String) : Updating Unit := do
  if ← checkWindows host then
    match ← offerWindows host bootstrap launcherSettings with
    | none => return ()
    | some (newestUpdate,settings) =>
      if ← isAnotherLauncherProcessRunning host.properties then return ()
      else if ← heldBack newestUpdate.rollout (installRollout host.toShare) then return ()
      else
        markAttempt settings newestUpdate
        tryCatch (runInstaller sha256 host newestUpdate args) fun thrown =>
          if thrown.isIOException then return () else throw thrown

/-! ## macOS -/

/-- `false` when `hdiutil attach` does not end in time, or fails. -/
def waitForImage : Updating Bool := do
  if ← ofOutcome (← ask .waitFor) then
    let status : Int ← ask .exitValue
    return decide (status = 0)
  else
    ask .destroy
    return false

def attach (file : String) : Updating Bool := do
  ofOutcome (← ask (.startAttach file))
  waitForImage

/-- One callback, after the attributes of the file or the listing of the directory
    have been read. -/
def visitEvent (visitor : Event Leaf → Updating Unit) (event : Event Leaf) : Updating Unit :=
  match event with
  | .postVisitDirectory _ => visitor event
  | _ => do
    ofOutcome (← ask (.visit event.path))
    visitor event

/-- `Files.walkFileTree`. -/
def walkFileTree (root : Path) (visitor : Event Leaf → Updating Unit) : Updating Unit := do
  match ← ask (.tree root) with
  | none => throw .io
  | some entry => (entry.walk root).forM (visitEvent visitor)

def deleteVisitor : Event Leaf → Updating Unit
  | .preVisitDirectory _ => return ()
  | .visitFile path _ => do ofOutcome (← ask (.delete path))
  | .postVisitDirectory path => do ofOutcome (← ask (.delete path))

/-- `Updater.delete`. -/
def delete (directory : Path) : Updating Unit := walkFileTree directory deleteVisitor

/-- `target.resolve(source.relativize(path))`. -/
def retarget (source target path : Path) : Path := target ++ path.drop source.length

/-- The directory that is copied may be there. -/
def copyDirectory (path targetDir : Path) : Updating Unit := do
  match ← ask (.copy path targetDir) with
  | .copied => return ()
  | .alreadyExists =>
    let there : Bool ← ask (.isDirectory targetDir)
    if there then return () else throw .io
  | .failed thrown => throw thrown

def copyFile (path targetFile : Path) : Updating Unit := do
  match ← ask (.copy path targetFile) with
  | .copied => return ()
  | .alreadyExists => throw .io
  | .failed thrown => throw thrown

def copyVisitor (source target : Path) : Event Leaf → Updating Unit
  | .preVisitDirectory path => copyDirectory path (retarget source target path)
  | .visitFile path _ => copyFile path (retarget source target path)
  | .postVisitDirectory _ => return ()

/-- `Updater.copy`. -/
def copy (source target : Path) : Updating Unit := walkFileTree source (copyVisitor source target)

/-- `Paths.get(mountPoint, ...)`; without a mount point there is no path. -/
def imageApp (host : Surroundings) (mountPoint : Option String) : Except Thrown Path := do
  return (← host.locate (← deref mountPoint)) ++ [appDirectory host.properties]

/-- From the point of no return on. -/
def replaceApp (host : Surroundings) (path : String) (mountPoint : Option String) (args : List String) :
    Updating Unit := do
  delete (runeliteApp host.properties)
  copy (← ofOutcome (imageApp host mountPoint)) (runeliteApp host.properties)
  ofOutcome (← ask (.startDetach (← ofOutcome (deref mountPoint))))
  ofOutcome (← ask (.relaunch (host.paths.toAbsolutePath path :: args) [(upgradeVariable host.properties,"1")]))
  throw .exit

def installImage (sha256 : Bytes → String) (host : Surroundings) (path : String) (update : Update)
    (args : List String) : Updating Unit := do
  match ← fetch sha256 "dmg" update with
  | none => return ()
  | some file =>
    if ← attach file then
      let mountPoint ← ofOutcome (parseHdiutilPlist (← ofOutcome (← ask .plist)))
      replaceApp host path mountPoint args

/-- `Updater.updateMacos`. -/
def updateMacos (sha256 : Bytes → String) (host : Surroundings) (bootstrap : Bootstrap)
    (launcherSettings : LauncherSettings) (args : List String) : Updating Unit := do
  match ← checkMacos host with
  | none => return ()
  | some path =>
    match ← offerMacos host bootstrap launcherSettings with
    | none => return ()
    | some (newestUpdate,settings) =>
      if ← heldBack newestUpdate.rollout random then return ()
      else
        markAttempt settings newestUpdate
        tryCatch (installImage sha256 host path newestUpdate args) fun thrown =>
          if thrown.isException then return () else throw thrown

/-- `Updater.update`. -/
def update (sha256 : Bytes → String) (host : Surroundings) (bootstrap : Bootstrap)
    (launcherSettings : LauncherSettings) (args : List String) : Updating Unit :=
  match getOs host.machine with
  | .Windows => updateWindows sha256 host bootstrap launcherSettings args
  | .MacOS => updateMacos sha256 host bootstrap launcherSettings args
  | _ => return ()

/-! ## Effects -/

/-- What a link at a path leads to, through further links, if it leads anywhere. -/
structure Resolution where
  leads : Forest Leaf → Path → Option (Node Leaf)
  resolved : ∀ {files : Forest Leaf} {path : Path} {node : Node Leaf}, leads files path = some node →
    ∀ text, node ≠ .leaf (.link text)

/-- Links that lead nowhere. -/
def nowhere : Resolution where
  leads _ _ := none
  resolved := nofun

/-- What `Files.copy` without `NOFOLLOW_LINKS` copies: of a file its bytes, of a
    directory none of what is in it, and of a link what it leads to. -/
def Resolution.followed (resolution : Resolution) (files : Forest Leaf) (path : Path) : Option (Node Leaf) :=
  match files.lookup path with
  | some (.leaf (.link _)) => resolution.leads files path
  | other => other

/-- What is not for the updater to choose, and is the same all through a run. -/
structure Inputs where
  now : Int
  currentTimeMillis : Int
  tasklist : Except Thrown (List String)
  installId : Except Thrown (Option String)
  random : Double
  resolution : Resolution := nowhere

/-- What is read of the settings file, the settings that were saved to it, the
    temporary files, and the file system; `mounted` is the file system with the
    image, `exitValue` the status that `hdiutil` has ended with, `plist` what was read
    of it, and `failed` tells that a walk could not do its work somewhere. -/
structure World where
  stored : LauncherSettings
  saved : List LauncherSettings := []
  temp : String → Option Bytes := fun _ => none
  files : Forest Leaf := .nil
  mounted : Forest Leaf := .nil
  exitValue : Option Int := none
  plist : Option Nodes := none
  failed : Bool := false

/-- Files and empty directories can be deleted. -/
def removable : Option (Entry Leaf) → Bool
  | some (.leaf _) => true
  | some (.directory .nil) => true
  | _ => false

/-- Nothing changes at or below a path. -/
def Spares (app : Path) (files files' : Forest Leaf) : Prop :=
  ∀ below, files'.lookup (app ++ below) = files.lookup (app ++ below)

/-- What any surroundings may do, where nobody else touches the bundle at `app`.
    Attaching and detaching change the files elsewhere. -/
def Reacts (app : Path) (inputs : Inputs) : Environment updater World
  | .fileExists _, w, _, w' => w' = w
  | .regQueryString, w, _, w' => w' = w
  | .processCommand, w, _, w' => w' = w
  | .loadSettings, w, reply, w' => reply = w.stored ∧ w' = w
  | .saveSettings settings, w, reply, w' =>
    (reply = .ok () ∧ (w' = { w with stored := settings.reloaded, saved := w.saved ++ [settings] } ∨
      w' = { w with stored := {} })) ∨
      ((∃ thrown, reply = .error thrown) ∧ w' = w)
  | .now, w, reply, w' => reply = inputs.now ∧ w' = w
  | .currentTimeMillis, w, reply, w' => reply = inputs.currentTimeMillis ∧ w' = w
  | .tasklist, w, reply, w' => reply = inputs.tasklist ∧ w' = w
  | .installId, w, reply, w' => reply = inputs.installId ∧ w' = w
  | .random, w, reply, w' => reply = inputs.random ∧ w' = w
  | .createTempFile _, w, reply, w' => match reply with
    | .ok file => w.temp file = none ∧ w' = { w with temp := Function.update w.temp file (some []) }
    | .error _ => w' = w
  | .newOutputStream file, w, reply, w' =>
    (reply = .ok () ∧ w' = { w with temp := Function.update w.temp file (some []) }) ∨
      ((∃ thrown, reply = .error thrown) ∧ w' = w)
  | .write file position buffer, w, reply, w' =>
    (reply = .ok () ∧ w' = { w with
      temp := Function.update w.temp file ((w.temp file).map fun content => overwrite content position buffer) }) ∨
      ((∃ thrown, reply = .error thrown) ∧ ∃ n, w' = { w with
        temp := Function.update w.temp file
          ((w.temp file).map fun content => overwrite content position (buffer.take n)) })
  | .connect _, w, _, w' => w' = w
  | .stage _ _ _, w, _, w' => w' = w
  | .deleteTempFile file, w, (reply : Bool), w' =>
    w' = if reply = true then { w with temp := Function.update w.temp file none } else w
  | .startInstaller _ _, w, _, w' => w' = w
  | .startAttach _, w, _, w' => w' = w
  | .waitFor, w, _, w' => ∃ files, Spares app w.files files ∧ w' = { w with files := files, mounted := files }
  | .destroy, w, _, w' => w' = w
  | .exitValue, w, reply, w' => w' = { w with exitValue := some reply }
  | .plist, w, reply, w' => w' = { w with plist := reply.toOption }
  | .tree root, w, reply, w' => reply = w.files.find root ∧ w' = { w with failed := w.failed || reply.isNone }
  | .visit _, w, reply, w' => w' = { w with failed := w.failed || !reply.isOk }
  | .delete path, w, reply, w' =>
    (reply = .ok () ∧ removable (w.files.find path) = true ∧ w' = { w with files := w.files.remove path }) ∨
      ((∃ thrown, reply = .error thrown) ∧ w' = { w with failed := true })
  | .copy source target, w, reply, w' =>
    (reply = .copied ∧ (∃ parent name node, target = parent ++ [name] ∧
      inputs.resolution.followed w.files source = some node ∧ w.files.lookup parent = some .directory ∧ w.files.lookup target = none ∧
      w' = { w with files := w.files.insert node target })) ∨
      (reply ≠ .copied ∧ ∃ files, (∀ path, ¬ target <+: path → files.lookup path = w.files.lookup path) ∧
        w' = { w with files := files, failed := true })
  | .isDirectory path, w, (reply : Bool), w' => w' = w ∧ reply = decide (w.files.lookup path = some .directory)
  | .startDetach _, w, _, w' => ∃ files, Spares app w.files files ∧ w' = { w with files := files }
  | .relaunch _ _, w, _, w' => w' = w

/-! ## An executable environment -/

/-- How calm surroundings answer; the image is mounted below `/Volumes`. -/
structure Answers where
  installLocation : Option String := none
  command : Option String := none
  serve : Option String → Bytes
  image : Forest Leaf := .nil
  document : Nodes := .nil

/-- Surroundings in which every operation succeeds that can. -/
def calm (inputs : Inputs) (answers : Answers) : Handler updater World
  | .fileExists _, w => (true,w)
  | .regQueryString, w => (.ok answers.installLocation,w)
  | .processCommand, w => (.ok answers.command,w)
  | .loadSettings, w => (w.stored,w)
  | .saveSettings settings, w => (.ok (),{ w with stored := settings.reloaded, saved := w.saved ++ [settings] })
  | .now, w => (inputs.now,w)
  | .currentTimeMillis, w => (inputs.currentTimeMillis,w)
  | .tasklist, w => (inputs.tasklist,w)
  | .installId, w => (inputs.installId,w)
  | .random, w => (inputs.random,w)
  | .createTempFile suffix, w =>
    if w.temp suffix = none then (.ok suffix,{ w with temp := Function.update w.temp suffix (some []) })
    else (.error .io,w)
  | .newOutputStream file, w => (.ok (),{ w with temp := Function.update w.temp file (some []) })
  | .write file position buffer, w => (.ok (),{ w with
      temp := Function.update w.temp file ((w.temp file).map fun content => overwrite content position buffer) })
  | .connect url, w => (.stream [answers.serve url] false,w)
  | .stage _ _ _, w => ((),w)
  | .deleteTempFile file, w => (true,{ w with temp := Function.update w.temp file none })
  | .startInstaller _ _, w => (.ok (),w)
  | .startAttach _, w => (.ok (),w)
  | .waitFor, w => (.ok true,{ w with
      files := .directory "Volumes" answers.image w.files, mounted := .directory "Volumes" answers.image w.files })
  | .destroy, w => ((),w)
  | .exitValue, w => ((0 : Int),{ w with exitValue := some 0 })
  | .plist, w => (.ok answers.document,{ w with plist := some answers.document })
  | .tree root, w => (w.files.find root,{ w with failed := w.failed || (w.files.find root).isNone })
  | .visit _, w => (.ok (),{ w with failed := w.failed || false })
  | .delete path, w =>
    if removable (w.files.find path) then (.ok (),{ w with files := w.files.remove path })
    else (.error .io,{ w with failed := true })
  | .copy source target, w => match inputs.resolution.followed w.files source with
    | none => (.failed .io,{ w with failed := true })
    | some node =>
      if target ≠ [] ∧ w.files.lookup target.dropLast = some .directory ∧ w.files.lookup target = none then
        (.copied,{ w with files := w.files.insert node target })
      else (.alreadyExists,{ w with failed := true })
  | .isDirectory path, w => (decide (w.files.lookup path = some .directory),w)
  | .startDetach _, w => (.ok (),w)
  | .relaunch _ _, w => (.ok (),w)

theorem calm_reacts (properties : LauncherProperties) (inputs : Inputs) (answers : Answers) (op : Op) (w : World) :
    Reacts (runeliteApp properties) inputs op w (calm inputs answers op w).1 (calm inputs answers op w).2 := by
  cases op with
  | loadSettings | now | currentTimeMillis | tasklist | installId | random | tree root => exact ⟨rfl,rfl⟩
  | saveSettings settings => exact .inl ⟨rfl,.inl rfl⟩
  | createTempFile suffix =>
    by_cases fresh : w.temp suffix = none
    · simp only [calm,fresh,if_true]
      exact ⟨fresh,rfl⟩
    · simp only [calm,fresh,if_false]
      exact rfl
  | newOutputStream file => exact .inl ⟨rfl,rfl⟩
  | write file position buffer => exact .inl ⟨rfl,rfl⟩
  | waitFor => exact ⟨_,fun below => by simp [runeliteApp],rfl⟩
  | startDetach mountPoint => exact ⟨w.files,fun _ => rfl,rfl⟩
  | delete path =>
    by_cases empty : removable (w.files.find path) = true
    · simp only [calm,empty,if_true]
      exact .inl ⟨rfl,empty,rfl⟩
    · simp only [calm,empty,if_false,Bool.false_eq_true]
      exact .inr ⟨⟨_,rfl⟩,rfl⟩
  | copy source target =>
    cases copied : inputs.resolution.followed w.files source with
    | none =>
      simp only [calm,copied]
      exact .inr ⟨nofun,w.files,fun _ _ => rfl,rfl⟩
    | some node =>
      by_cases possible : target ≠ [] ∧ w.files.lookup target.dropLast = some .directory ∧ w.files.lookup target = none
      · simp only [calm,copied,if_pos possible]
        obtain ⟨given,parent,absent⟩ := possible
        exact .inl ⟨rfl,target.dropLast,target.getLast given,node,(List.dropLast_concat_getLast given).symm,
          copied,parent,absent,rfl⟩
      · simp only [calm,copied,if_neg possible]
        exact .inr ⟨nofun,w.files,fun _ _ => rfl,rfl⟩
  | isDirectory path => exact ⟨rfl,rfl⟩
  | _ => exact rfl

/-- A launcher with the name, on the operating system; paths are taken as they are. -/
def sampleSurroundings (name osName : String) : Surroundings where
  properties := { Launchers.sampleHost.properties with name := name }
  machine := ⟨some osName,some "amd64",none⟩
  paths := {
    get := fun path => .ok path
    toAbsolutePath := id
    normalize := id
    startsWith := fun path start => .ok (start.toList.isPrefixOf path.toList)
    getFileName := fun path => (path.toList.splitOn '/').getLast?.map String.ofList
    getParent := fun _ => none
    resolveSibling := fun path _ => path
    resolve := fun path name => path ++ "/" ++ name }
  javaHome := some "/launcher"
  upgrade := none
  locate _ := .ok ["Volumes","OpenRune"]
  toShare _ := .finite 0

end OpenRune.SelfUpdate
