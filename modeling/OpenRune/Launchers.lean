import OpenRune.Operations

/-!
# Launchers

The arguments that the launcher collects for the client and for its virtual
machine, and the command lines that `JvmLauncher` and `ForkLauncher` build.
-/
namespace OpenRune.Launchers
open OpenRune.Java OpenRune.Beans OpenRune.Updates OpenRune.Settings

/-- The constants of `LauncherProperties`. -/
structure LauncherProperties where
  name : String
  version : String
  versionKey : String
  main : String
  bootstrap : String
  bootstrapSig : String

/-- What the launcher reads from its process and its system: properties,
    environment variables, and the path functions of the file system. -/
structure Host where
  properties : LauncherProperties
  machine : Machine
  javaVersion : Option String
  specVersion : String
  reflect : Option String
  command : Option String
  appimage : Option String
  runeliteArgs : Option String
  runeliteVmargs : Option String
  separator : Char
  pathSeparator : Char
  crashFiles : String
  repoDir : String
  fileNameOf : String → Except Thrown String
  absolutePathOf : String → Except Thrown String

/-! ## Arguments -/

/-- `CharMatcher.whitespace`. -/
def isWhitespace (c : Char) : Bool :=
  decide (c.toNat ∈ [0x9,0xA,0xB,0xC,0xD,0x20,0x85,0xA0,0x1680,0x2028,0x2029,0x202F,0x205F,0x3000]) ||
    (decide (0x2000 ≤ c.toNat) && decide (c.toNat ≤ 0x200A))

def trim (cs : List Char) : List Char := (cs.dropWhile isWhitespace).rdropWhile isWhitespace

/-- `Splitter.on(' ').omitEmptyStrings().trimResults()`. -/
def splitWords (text : String) : List String :=
  (((text.toList.splitOn ' ').map trim).filter fun word => !word.isEmpty).map String.ofList

/-- The words of an environment variable. -/
def environmentArgs (setting : Option String) : List String := splitWords (setting.getD "")

/-- `Launcher.getClientArgs`. -/
def getClientArgs (host : Host) (settings : LauncherSettings) : Except Thrown (List String) := do
  let clientArguments ← deref settings.clientArguments
  return clientArguments ++ environmentArgs host.runeliteArgs ++
    (if settings.debug then ["--debug"] else []) ++ (if settings.safemode then ["--safe-mode"] else [])

/-- `Launcher.getJvmArgs`. -/
def getJvmArgs (host : Host) (settings : LauncherSettings) : Except Thrown (List String) := do
  let jvmArguments ← deref settings.jvmArguments
  return jvmArguments ++ (if settings.ipv4 then ["-Djava.net.preferIPv4Stack=true"] else []) ++
    environmentArgs host.runeliteVmargs

/-- `Launcher.isJava17`. -/
def isJava17 (javaVersion : Option String) : Except Thrown Bool := do
  match (← deref javaVersion).toList with
  | ['1','.'] => throw .unchecked
  | '1' :: '.' :: digit :: _ => return decide (7 ≤ (← deref (parseInt [digit])))
  | _ => return false

/-- `JvmLauncher.getJvmArguments`. -/
def getJvmArguments (host : Host) (bootstrap : Bootstrap) : Except Thrown (Option (List String)) := do
  if ← isJava17 host.javaVersion then
    match getOs host.machine with
    | .Windows => return bootstrap.clientJvm17WindowsArguments <|> bootstrap.clientJvm17Arguments
    | .MacOS => return bootstrap.clientJvm17MacArguments <|> bootstrap.clientJvm17Arguments
    | _ => return bootstrap.clientJvm17Arguments
  return bootstrap.clientJvm9Arguments

/-- `put` of a `LinkedHashMap`: a key that is there keeps its place. -/
def put (props : List (String × String)) (key value : String) : List (String × String) :=
  if props.any fun prop => prop.1 == key then
    props.map fun prop => if prop.1 = key then (key,value) else prop
  else props ++ [(key,value)]

def property (prop : String × String) : String := "-D" ++ prop.1 ++ "=" ++ prop.2

/-! ## Class paths -/

/-- `File.getName` of a file that was resolved in the repository directory. -/
def getName (host : Host) (name : String) : String :=
  match ((name.toList.splitOn host.separator).filter fun part => !part.isEmpty).getLast? with
  | some part => String.ofList part
  | none => (host.repoDir.toList.splitOn host.separator).getLast?.elim "" String.ofList

/-- The loops with a `StringBuilder` that join paths. -/
def join (separator : Char) (paths : List String) : String :=
  paths.foldl (fun sb path => if sb = "" then path else sb ++ String.singleton separator ++ path) ""

/-- `Splitter.on(File.pathSeparatorChar)`. -/
def splitPaths (separator : Char) (paths : String) : List String := (paths.toList.splitOn separator).map String.ofList

def absolutePath (host : Host) (name : String) : String := host.repoDir ++ String.singleton host.separator ++ name

/-- A file name that is no path, and can stand in a list of paths. -/
def PlainName (host : Host) (name : String) : Prop :=
  name ≠ "" ∧ host.separator ∉ name.toList ∧ host.pathSeparator ∉ name.toList

theorem getName_plain {host : Host} {name : String} (plain : PlainName host name) : getName host name = name := by
  obtain ⟨given,single,-⟩ := plain
  have whole : name.toList.splitOn host.separator = [name.toList] := by
    simpa using @List.splitOn_intercalate _ [name.toList] _ _ host.separator (by simpa using single) (by simp)
  have filled : name.toList ≠ [] := fun empty => given (String.toList_inj.mp (by simpa using empty))
  simp [getName,whole,filled]

theorem join_started {separator : Char} {names : List String} {sb : String} (filled : sb ≠ "") :
    names.foldl (fun sb path => if sb = "" then path else sb ++ String.singleton separator ++ path) sb =
      (String.singleton separator).intercalate (sb :: names) := by
  induction names generalizing sb with
  | nil => simp
  | cons name names ih =>
    have longer : sb ++ String.singleton separator ++ name ≠ "" := by simp
    rw [List.foldl_cons,if_neg filled,ih longer,String.intercalate_cons_append,String.intercalate_cons_cons]

theorem join_eq {separator : Char} {names : List String} (filled : ∀ name ∈ names, name ≠ "") :
    join separator names = (String.singleton separator).intercalate names := by
  cases names with
  | nil => rfl
  | cons name names =>
    rw [join,List.foldl_cons,if_pos rfl]
    exact join_started (filled name List.mem_cons_self)

/-- Splitting gives back the names that were joined. -/
theorem splitPaths_join {host : Host} {names : List String} (given : names ≠ [])
    (plain : ∀ name ∈ names, PlainName host name) :
    splitPaths host.pathSeparator (join host.pathSeparator names) = names := by
  have divided : ((String.singleton host.pathSeparator).intercalate names).toList.splitOn host.pathSeparator =
      names.map String.toList := by
    rw [String.toList_intercalate,String.toList_singleton]
    refine List.splitOn_intercalate _ ?_ (by simpa using given)
    intro text member
    obtain ⟨name,listed,rfl⟩ := List.mem_map.mp member
    exact (plain name listed).2.2
  rw [splitPaths,join_eq fun name member => (plain name member).1,divided,List.map_map]
  simp [Function.comp_def]

/-! ## Commands -/

def forkCommand (executable : String) (pathSeparator : Char) (clientJvmArgs : List String)
    (jvmProps : List (String × String)) (jvmArgs names clientArgs : List String) : List String :=
  [executable,"-c"] ++ clientJvmArgs.flatMap (fun arg => ["-J",arg]) ++
    jvmProps.flatMap (fun prop => ["-J",property prop]) ++ jvmArgs ++ ["--"] ++
    ["--classpath",join pathSeparator names] ++ clientArgs

/-- The command of `ForkLauncher.launch`. -/
def forkLaunch (host : Host) (bootstrap : Bootstrap) (classpath clientArgs : List String)
    (jvmProps : List (String × String)) (jvmArgs : List String) : Except Thrown (List String) := do
  let executable ← host.absolutePathOf (← deref host.command)
  let clientJvmArgs ← getJvmArguments host bootstrap
  if classpath.isEmpty then throw .unchecked
  return forkCommand executable host.pathSeparator (clientJvmArgs.getD []) jvmProps jvmArgs
    (classpath.map (getName host)) clientArgs

theorem forkLaunch_ok {host : Host} {bootstrap : Bootstrap} {classpath clientArgs : List String}
    {jvmProps : List (String × String)} {jvmArgs command : List String}
    (launched : forkLaunch host bootstrap classpath clientArgs jvmProps jvmArgs = .ok command) :
    ∃ executable clientJvmArgs, getJvmArguments host bootstrap = .ok clientJvmArgs ∧ classpath ≠ [] ∧
      command = forkCommand executable host.pathSeparator (clientJvmArgs.getD []) jvmProps jvmArgs
        (classpath.map (getName host)) clientArgs := by
  unfold forkLaunch at launched
  cases given : host.command with
  | none => simp [given] at launched
  | some path =>
    cases resolved : host.absolutePathOf path with
    | error thrown => simp [given,resolved] at launched
    | ok executable =>
      cases arguments : getJvmArguments host bootstrap with
      | error thrown => simp [given,resolved,arguments] at launched
      | ok clientJvmArgs =>
        cases classpath with
        | nil => simp [given,resolved,arguments,throw,throwThe,MonadExceptOf.throw] at launched
        | cons name names =>
          simp [given,resolved,arguments] at launched
          exact ⟨executable,clientJvmArgs,rfl,by simp,launched.symm⟩

/-- The options of the virtual machine in the command of `JvmLauncher.launch`. -/
def vmOptions (clientJvmArgs : List String) (jvmProps : List (String × String)) (jvmArgs : List String) :
    List String := clientJvmArgs ++ jvmProps.map property ++ jvmArgs

/-- The command of `JvmLauncher.launch`, once the Java executable is found. -/
def jvmLaunch (host : Host) (java : String) (bootstrap : Bootstrap) (classpath clientArgs : List String)
    (jvmProps : List (String × String)) (jvmArgs : List String) : Except Thrown (List String) := do
  let clientJvmArgs ← getJvmArguments host bootstrap
  return [java,"-cp",join host.pathSeparator (classpath.map (absolutePath host))] ++
    vmOptions (clientJvmArgs.getD []) jvmProps jvmArgs ++ [host.properties.main] ++ clientArgs

theorem jvmLaunch_ok {host : Host} {java : String} {bootstrap : Bootstrap} {classpath clientArgs : List String}
    {jvmProps : List (String × String)} {jvmArgs command : List String}
    (launched : jvmLaunch host java bootstrap classpath clientArgs jvmProps jvmArgs = .ok command) :
    ∃ clientJvmArgs, getJvmArguments host bootstrap = .ok clientJvmArgs ∧
      command = [java,"-cp",join host.pathSeparator (classpath.map (absolutePath host))] ++
        vmOptions (clientJvmArgs.getD []) jvmProps jvmArgs ++ [host.properties.main] ++ clientArgs := by
  unfold jvmLaunch at launched
  cases arguments : getJvmArguments host bootstrap with
  | error thrown => simp [arguments] at launched
  | ok clientJvmArgs =>
    rw [arguments] at launched
    cases launched
    exact ⟨clientJvmArgs,rfl,rfl⟩

/-- `ForkLauncher.canForkLaunch`. -/
def canForkLaunch (host : Host) : Except Thrown Bool := do
  match getOs host.machine with
  | .Linux => return host.appimage.isSome
  | .Other => return false
  | _ =>
    match host.command with
    | none => return false
    | some "" => return false
    | some command =>
      let name ← host.fileNameOf command
      return decide (name = host.properties.name ++ ".exe") || decide (name = host.properties.name)

/-- A process on Linux, with Java 11. -/
def sampleHost : Host where
  properties := ⟨"OpenRune","1.0","runelite.launcher.version","Main","https://host/bootstrap","https://host/sig"⟩
  machine := ⟨some "Linux",some "amd64",some "6.1"⟩
  javaVersion := some "11.0.2"
  specVersion := "11"
  reflect := some "true"
  command := some "/opt/OpenRune"
  appimage := none
  runeliteArgs := none
  runeliteVmargs := none
  separator := '/'
  pathSeparator := ':'
  crashFiles := "/crash"
  repoDir := "/repository2"
  fileNameOf command := .ok command
  absolutePathOf command := .ok command

end OpenRune.Launchers
