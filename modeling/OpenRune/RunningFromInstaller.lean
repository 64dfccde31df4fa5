import OpenRune.Attempts
import OpenRune.RootedPaths

/-!
# Running from the installer

Which processes `updateWindows` and `updateMacos` take for an installed launcher.
On Windows it is the `java.exe` of the runtime that is compared with the name of
the launcher, and on macOS the command of the process is cut at its first blank.
-/
namespace OpenRune.RunningFromInstaller
open OpenRune.Java OpenRune.Settings OpenRune.Programs OpenRune.SelfUpdate OpenRune.Attempts OpenRune.DotSegments
  OpenRune.RootedPaths

/-- The methods of `java.nio.file.Path` in a dialect; `place` is where a path
    lies that is not absolute. -/
def paths (d : Dialect) (place : RootedPath → RootedPath) : Paths :=
  let read (text : String) := (d.parse text).getD ⟨"",[]⟩
  let absolute (path : RootedPath) := if d.isAbsolute path then path else place path
  let sibling (path other : RootedPath) := path.parent.elim other fun parent => d.resolve parent other
  { get := fun text => (deref (d.parse text)).map d.print
    toAbsolutePath := fun text => d.print (absolute (read text))
    normalize := fun text => d.print (read text).normalize
    startsWith := fun text other => (deref (d.parse other)).map fun other => d.startsWith (read text) other
    getFileName := fun text => (read text).fileName
    getParent := fun text => (read text).parent.map d.print
    resolveSibling := fun text other => d.print (sibling (read text) (read other))
    resolve := fun text other => d.print (d.resolve (read text) (read other)) }

section
variable {d : Dialect} {place : RootedPath → RootedPath} {path : RootedPath} (proper : d.Proper path)
include proper

theorem toAbsolutePath_proper : (paths d place).toAbsolutePath (d.print path) = d.print path := by
  simp [paths,parse_print proper,proper.absolute]

theorem startsWith_proper {text : String} : (paths d place).startsWith (d.print path) text =
    (deref (d.parse text)).map fun other => d.startsWith path other := by
  simp [paths,parse_print proper]

theorem getFileName_proper : (paths d place).getFileName (d.print path) = path.fileName := by
  simp [paths,parse_print proper]

theorem resolve_proper {name : String} (relative : d.parse name = some ⟨"",[name]⟩) :
    (paths d place).resolve (d.print path) name = d.print (path.join [name]) := by
  simp [paths,parse_print proper,relative,Dialect.resolve,Dialect.isAbsolute,d.full_empty,RootedPath.join]

end

/-- What the updater is told, the command of the process included. -/
def told (inputs : Inputs) (readings : Readings) (stored : LauncherSettings) : (op : Op) → Reply op
  | .processCommand => readings.command
  | op => answer inputs readings stored op

/-! ## Windows -/

/-- A process whose `java.home` is absolute, as a virtual machine sets it. -/
structure WindowsProcess (fold : Char → Char) where
  installLocation : String
  executable : String
  javaHome : String
  home : RootedPath
  parsed : (windows fold).parse javaHome = some home
  absolute : (windows fold).isAbsolute home = true
  found : String → Bool

section
variable {fold : Char → Char}

def WindowsProcess.javaBin (process : WindowsProcess fold) : RootedPath := process.home.join ["bin","java.exe"]

/-- The runtime has its `java.exe`. -/
def WindowsProcess.HasRuntime (process : WindowsProcess fold) : Prop :=
  process.found ((windows fold).print process.javaBin) = true

/-- The process was started from the launcher that was installed, with the
    runtime that was installed with it. -/
def WindowsProcess.StartedFrom (process : WindowsProcess fold) (name : String) : Prop :=
  process.HasRuntime ∧ ∃ location, (windows fold).parse process.installLocation = some location ∧
    (windows fold).parse process.executable = some (location.join [name ++ ".exe"]) ∧
    process.home = location.join ["jre"]

/-- The executable is the launcher somewhere under the install location. -/
def WindowsProcess.IsInstalled (process : WindowsProcess fold) (name : String) : Prop :=
  ∃ location executable, (windows fold).parse process.installLocation = some location ∧
    (windows fold).parse process.executable = some executable ∧
    (windows fold).startsWith executable location = true ∧ executable.fileName = some (name ++ ".exe")

/-- The runtime lies under the install location. -/
def WindowsProcess.RuntimeInstalled (process : WindowsProcess fold) : Prop :=
  process.HasRuntime ∧ ∃ location, (windows fold).parse process.installLocation = some location ∧
    (windows fold).startsWith process.javaBin location = true

/-- What the updater is told about the process. -/
def WindowsProcess.readings (process : WindowsProcess fold) : Readings where
  found := process.found
  installLocation := .ok (some process.installLocation)
  command := .ok none

theorem bin_name : (windows fold).Name "bin" where
  legal := (by simp [windowsLegal] : windowsLegal "bin" = true)
  nonempty := by decide
  whole := (by simp [isSlash] : ∀ c ∈ "bin".toList, isSlash c = false)

theorem java_name : (windows fold).Name "java.exe" where
  legal := (by simp [windowsLegal] : windowsLegal "java.exe" = true)
  nonempty := by decide
  whole := (by simp [isSlash] : ∀ c ∈ "java.exe".toList, isSlash c = false)

theorem javaBin_proper (process : WindowsProcess fold) : (windows fold).Proper process.javaBin := by
  refine proper_join (parse_proper process.parsed process.absolute) fun name member => ?_
  have listed : name = "bin" ∨ name = "java.exe" := by simpa using member
  rcases listed with rfl | rfl
  · exact bin_name
  · exact java_name

variable (place : RootedPath → RootedPath) (host : Surroundings) (inputs : Inputs) (stored : LauncherSettings)

def windowsHost (process : WindowsProcess fold) : Surroundings :=
  { host with paths := paths (windows fold) place, javaHome := some process.javaHome }

/-- The check of `updateWindows` lets the process through. -/
def PassesWindows (process : WindowsProcess fold) : Prop :=
  (checkWindows (windowsHost place host process)).answered (told inputs process.readings stored) = .ok true

theorem command_answered (process : WindowsProcess fold) :
    (getCurrentJavaProcessCommand (windowsHost place host process)).answered (told inputs process.readings stored) =
      .ok (if process.found ((windows fold).print process.javaBin) then some ((windows fold).print process.javaBin)
        else none) := by
  have proper := parse_proper process.parsed process.absolute
  have binProper : (windows fold).Proper (process.home.join ["bin"]) :=
    proper_join proper fun name member => List.mem_singleton.mp member ▸ bin_name
  have gets : (paths (windows fold) place).get process.javaHome = .ok ((windows fold).print process.home) := by
    simp [paths,process.parsed,Except.map]
  have joined : (paths (windows fold) place).resolve
      ((paths (windows fold) place).resolve ((windows fold).print process.home) "bin") "java.exe" =
        (windows fold).print process.javaBin := by
    rw [resolve_proper proper (parse_name bin_name rfl),resolve_proper binProper (parse_name java_name rfl)]
    simp [RootedPath.join,WindowsProcess.javaBin]
  unfold getCurrentJavaProcessCommand
  simp only [windowsHost,gets]
  rw [answered_bind,answered_outcome,ok_bind,joined]
  have absolute := @toAbsolutePath_proper _ place _ (javaBin_proper process)
  change Except.ok (if process.found ((windows fold).print process.javaBin) = true then
    some ((paths (windows fold) place).toAbsolutePath ((windows fold).print process.javaBin)) else none) = _
  rw [absolute]

theorem isInstalledWindows_iff (process : WindowsProcess fold) :
    isInstalledWindows (windowsHost place host process) ((windows fold).print process.javaBin)
        (some process.installLocation) = .ok true ↔
      (∃ location, (windows fold).parse process.installLocation = some location ∧
        (windows fold).startsWith process.javaBin location = true) ∧ host.properties.name = "java" := by
  have proper := javaBin_proper process
  have gets : (paths (windows fold) place).get ((windows fold).print process.javaBin) =
      .ok ((windows fold).print process.javaBin) := by simp [paths,parse_print proper,Except.map]
  have fileName : process.javaBin.fileName = some "java.exe" := fileName_join ["bin"] "java.exe"
  have named : "java.exe" = host.properties.name ++ ".exe" ↔ host.properties.name = "java" := by
    rw [show "java.exe" = "java" ++ ".exe" from rfl,String.append_left_inj]
    exact eq_comm
  unfold isInstalledWindows
  simp only [windowsHost,gets,ok_bind,deref_some,startsWith_proper proper,getFileName_proper proper,fileName]
  cases parsed : (windows fold).parse process.installLocation with
  | none => simp [Except.map]
  | some location =>
    cases within : (windows fold).startsWith process.javaBin location with
    | false => simp [Except.map,within]
    | true => simp [Except.map,within,named]

theorem passesWindows_iff (process : WindowsProcess fold) :
    PassesWindows place host inputs stored process ↔ process.RuntimeInstalled ∧ host.properties.name = "java" := by
  have proper := javaBin_proper process
  have printed : (windows fold).print process.javaBin ≠ "" := by
    intro empty
    have parsed := parse_print proper
    rw [empty] at parsed
    have unrooted : process.javaBin.root = "" := congrArg RootedPath.root (Option.some.inj parsed).symm
    have absolute := proper.absolute
    rw [Dialect.isAbsolute,unrooted,Dialect.full_empty] at absolute
    cases absolute
  unfold PassesWindows checkWindows WindowsProcess.RuntimeInstalled WindowsProcess.HasRuntime
  rw [answered_bind,command_answered,ok_bind]
  cases found : process.found ((windows fold).print process.javaBin) with
  | false =>
    refine iff_of_false ?_ ?_
    · intro passes
      cases passes
    · rintro ⟨⟨there,-⟩,-⟩
      cases there
  | true =>
    simp only [if_true,Option.getD_some,if_neg printed,true_and]
    rw [answered_bind]
    change (ofOutcome (isInstalledWindows (windowsHost place host process) _ _) :
      Updating Bool).answered (told inputs process.readings stored) = _ ↔ _
    rw [answered_outcome]
    exact isInstalledWindows_iff place host process

/-- The installed launcher passes, and nothing else does. -/
def RecognisesWindows (process : WindowsProcess fold) : Prop :=
  (process.StartedFrom host.properties.name → PassesWindows place host inputs stored process) ∧
    (¬ process.IsInstalled host.properties.name → ¬ PassesWindows place host inputs stored process)

theorem recognisesWindows_iff (process : WindowsProcess fold) :
    RecognisesWindows place host inputs stored process ↔
      (process.StartedFrom host.properties.name → host.properties.name = "java") ∧
        (¬ process.IsInstalled host.properties.name → process.RuntimeInstalled → host.properties.name ≠ "java") := by
  have started : process.StartedFrom host.properties.name → process.RuntimeInstalled := by
    rintro ⟨runtime,location,located,-,home⟩
    refine ⟨runtime,location,located,?_⟩
    have below : process.javaBin = location.join ["jre","bin","java.exe"] := by
      simp [WindowsProcess.javaBin,home,RootedPath.join]
    have absolute : (windows fold).isAbsolute location = true := by
      have full := process.absolute
      rw [home] at full
      exact full
    rw [below]
    exact startsWith_join absolute _
  rw [RecognisesWindows,passesWindows_iff]
  exact and_congr (forall_congr' fun from' => and_iff_right (started from')) (forall_congr' fun _ => not_and)

end

/-! ## macOS -/

/-- A name that a file can have. -/
structure FileName (name : String) : Prop where
  nonempty : name ≠ ""
  plain : ∀ c ∈ name.toList, c ≠ '/' ∧ c ≠ '\x00'
  undotted : name ≠ "." ∧ name ≠ ".."

theorem unix_name {name : String} (nonempty : name ≠ "") (plain : ∀ c ∈ name.toList, c ≠ '/' ∧ c ≠ '\x00') :
    unix.Name name where
  legal := by
    have absent : '\x00' ∉ name.toList := fun member => (plain _ member).2 rfl
    simpa [unix] using absent
  nonempty := nonempty
  whole c member := by simpa [unix] using (plain c member).1

theorem FileName.name {name : String} (fileName : FileName name) : unix.Name name :=
  unix_name fileName.nonempty fileName.plain

def Clean (path : RootedPath) : Prop := ∀ name ∈ path.names, name ≠ "." ∧ name ≠ ".."

def inResources (path : RootedPath) : Bool := contains (unix.print path).toList "/Contents/Resources/".toList

/-- Where `updateMacos` looks for the executable. -/
def executable (path : RootedPath) (fileName : String) : RootedPath :=
  if inResources path then ⟨path.root,path.names.dropLast.dropLast ++ ["MacOS",fileName]⟩ else path

theorem unix_root {path : RootedPath} (proper : unix.Proper path) : path.root = "/" := by
  simpa [Dialect.isAbsolute,unix] using proper.absolute

theorem unix_separates : unix.separates '/' = true := rfl

theorem segments_print {path : RootedPath} (proper : unix.Proper path) :
    segments unix.separates (unix.print path) = path.names := by
  have printed : unix.print path = String.ofList ([] ++ '/' :: ("/".intercalate path.names).toList) := by
    apply String.toList_inj.mp
    simp [Dialect.print,unix_root proper]
    rfl
  have joined : segments unix.separates ("/".intercalate path.names) = path.names :=
    segments_intercalate unix_separates fun name member => ⟨(proper.named name member).nonempty,(proper.named name member).whole⟩
  rw [printed,segments_append unix_separates,String.ofList_toList,joined]
  rfl

theorem inResources_names {path : RootedPath} (proper : unix.Proper path) (inside : inResources path = true) :
    ∃ before after, path.names = before ++ "Contents" :: "Resources" :: after := by
  obtain ⟨before,after,text⟩ := of_decide_eq_true inside
  have divided : unix.print path = String.ofList
        (before ++ '/' :: ("Contents".toList ++ '/' :: ("Resources".toList ++ '/' :: after))) := by
    apply String.toList_inj.mp
    rw [← text]
    simp
  refine ⟨segments unix.separates (String.ofList before),segments unix.separates (String.ofList after),?_⟩
  rw [← segments_print proper,divided,segments_append unix_separates,segments_append unix_separates,
    segments_append unix_separates]
  rfl

theorem unixRoot_name {name : String} (named : unix.Name name) : unix.root name.toList = some ("",name.toList) := by
  change unixRoot name.toList = _
  unfold unixRoot
  split
  · rename_i rest text
    have slash := named.whole '/' (by simp [text])
    cases slash
  · rfl

theorem macos_name : unix.Name "MacOS" :=
  unix_name (by decide) (by simp)

theorem normalize_proper {path : RootedPath} (proper : unix.Proper path) :
    path.normalize = ⟨path.root,DotSegments.resolve [] path.names⟩ := by
  rw [RootedPath.normalize,if_neg]
  rw [unix_root proper]
  decide

theorem normalize_keeps {path : RootedPath} (proper : unix.Proper path) : unix.Proper path.normalize := by
  rw [normalize_proper proper]
  exact proper_subset proper rfl (resolve_subset [] path.names)

theorem normalize_clean {path : RootedPath} (proper : unix.Proper path) (clean : Clean path) : path.normalize = path := by
  rw [normalize_proper proper,resolve_plain [] clean]
  rfl

section
variable {path : RootedPath} (proper : unix.Proper path) {fileName : String} (named : path.fileName = some fileName)
include proper named

theorem fileName_listed : fileName ∈ path.names := by
  refine fileName_mem ?_ named
  rw [unix_root proper]
  decide

theorem executable_proper : unix.Proper (executable path fileName) := by
  unfold executable
  split
  · let contents : RootedPath := ⟨path.root,path.names.dropLast.dropLast⟩
    have contentsProper : unix.Proper contents := proper_subset proper rfl fun name member =>
      List.dropLast_subset _ (List.dropLast_subset _ member)
    refine proper_join contentsProper fun name member => ?_
    rcases List.mem_pair.mp member with rfl | rfl
    · exact macos_name
    · exact proper.named _ (fileName_listed proper named)
  · exact proper

theorem executable_clean (clean : Clean path) : Clean (executable path fileName) := by
  unfold executable
  split
  · intro name member
    simp only [List.mem_append,List.mem_pair] at member
    rcases member with early | rfl | rfl
    · exact clean name (List.dropLast_subset _ (List.dropLast_subset _ early))
    · decide
    · exact clean name (fileName_listed proper named)
  · exact clean

omit proper in
theorem executable_fileName : (executable path fileName).fileName = some fileName := by
  unfold executable
  split
  · simp [RootedPath.fileName]
  · exact named

/-- The steps of `updateMacos` that make up for the working directory. -/
theorem executablePath_eq (place : RootedPath → RootedPath) (clean : Clean path) :
    executablePath (paths unix place) (unix.print path) = .ok (unix.print (executable path fileName)) := by
  have finalProper := executable_proper proper named
  have finalClean := executable_clean proper named clean
  unfold executablePath
  unfold executable at finalProper finalClean ⊢
  cases inside : inResources path with
  | false =>
    rw [inResources] at inside
    rw [inside]
    rfl
  | true =>
    rw [inside,if_pos rfl] at finalProper finalClean
    obtain ⟨before,after,names⟩ := inResources_names proper inside
    have root := unix_root proper
    have longer : path.names ≠ [] ∧ path.names.dropLast ≠ [] := by
      constructor <;> intro empty <;> have short := congrArg List.length empty <;> simp [names] at short
    let resources : RootedPath := ⟨path.root,path.names.dropLast⟩
    let contents : RootedPath := ⟨path.root,path.names.dropLast.dropLast⟩
    have resourcesProper : unix.Proper resources := proper_subset proper rfl (List.dropLast_subset _)
    have macosProper : unix.Proper (contents.join ["MacOS"]) :=
      proper_subset finalProper rfl fun name member => by
        rcases List.mem_append.mp member with early | last
        · exact List.mem_append_left _ early
        · exact List.mem_append_right _ (List.mem_singleton.mp last ▸ List.mem_cons_self)
    have lastName : unix.Name fileName := proper.named _ (fileName_listed proper named)
    have parent : (paths unix place).getParent (unix.print path) = some (unix.print resources) := by
      simp [paths,parse_print proper,RootedPath.parent,longer.1,root,resources]
    have sibling : (paths unix place).resolveSibling (unix.print resources) "MacOS" =
        unix.print (contents.join ["MacOS"]) := by
      have read := parse_name macos_name (unixRoot_name macos_name)
      have up : resources.parent = some contents := by
        simp [RootedPath.parent,resources,contents,longer.2,root]
      simp [paths,parse_print resourcesProper,read,up,Dialect.resolve,Dialect.isAbsolute,Dialect.full_empty,RootedPath.join]
    have resolved : (paths unix place).resolve (unix.print (contents.join ["MacOS"])) fileName =
        unix.print (contents.join ["MacOS",fileName]) := by
      rw [resolve_proper macosProper (parse_name lastName (unixRoot_name lastName))]
      simp [RootedPath.join]
    have normalized : (paths unix place).normalize (unix.print (contents.join ["MacOS",fileName])) =
        unix.print (contents.join ["MacOS",fileName]) := by
      simp only [paths,RootedPath.join,contents,parse_print finalProper,Option.getD_some,
        normalize_clean finalProper finalClean]
    have contained : contains (unix.print path).toList "/Contents/Resources/".toList = true := inside
    rw [if_pos contained,if_pos rfl,parent,getFileName_proper proper,named]
    simp only [deref_some,ok_bind,pure_ok,sibling,resolved,normalized]
    rfl

end

/-- `BufferedReader.readLine`. -/
def readLine (text : List Char) : List Char := text.takeWhile fun c => c != '\n' && c != '\r'

/-- Where the executable stands in what `ps` reports of an installed launcher. -/
inductive Placement
  | MacOS
  | Resources

def reported (name : String) : Placement → String
  | .MacOS => "/Applications/" ++ name ++ ".app/Contents/MacOS/" ++ name
  | .Resources => "/Applications/" ++ name ++ ".app/Contents/Resources/./" ++ name

/-- The executable and its arguments, as far as they are one line. -/
def command (name : String) (placement : Placement) (args : List String) : String :=
  String.ofList (readLine (" ".intercalate (reported name placement :: args)).toList)

/-- The characters at which the executable ends for the updater. -/
def stops (c : Char) : Bool := c == ' ' || c == '\n' || c == '\r'

theorem split_first {separates : Char → Bool} {text : List Char}
    (filled : text.takeWhile (fun c => !separates c) ≠ []) :
    (split separates text)[0]? = some (text.takeWhile fun c => !separates c) := by
  have divided := @List.takeWhile_append_dropWhile _ (fun c => !separates c) text
  have whole : ∀ c ∈ text.takeWhile (fun c => !separates c), separates c = false := fun c member => by
    simpa using List.mem_takeWhile_imp member
  cases rest : text.dropWhile fun c => !separates c with
  | nil =>
    rw [rest,List.append_nil] at divided
    have unseparated : text.any separates = false := by
      rw [divided] at whole
      simpa using whole
    rw [split,unseparated,divided]
    rfl
  | cons separator after =>
    have separated : separates separator = true := by
      have stopped := List.head?_dropWhile_not (fun c => !separates c) text
      rw [rest] at stopped
      simpa using stopped
    rw [rest] at divided
    have found : text.any separates = true := by
      rw [← divided]
      simp [separated]
    rw [split,found,if_pos rfl]
    generalize text.takeWhile (fun c => !separates c) = first at *
    rw [← divided,List.splitOnP_append_cons_of_forall_mem whole separator separated]
    obtain ⟨trailing,kept⟩ := List.rdropWhile_prefix List.isEmpty (first :: after.splitOnP separates)
    cases pieces : (first :: after.splitOnP separates).rdropWhile List.isEmpty with
    | nil =>
      have empty := List.rdropWhile_eq_nil_iff.mp pieces first List.mem_cons_self
      exact absurd (List.isEmpty_iff.mp empty) filled
    | cons piece pieces' =>
      rw [pieces] at kept
      rw [(List.cons.inj kept).1]
      rfl

theorem reported_starts (name : String) (placement : Placement) :
    ∃ rest, (reported name placement).toList.takeWhile (fun c => !stops c) = '/' :: rest := by
  unfold reported
  cases placement <;> simp [stops]

theorem command_executable (name : String) (placement : Placement) (args : List String) :
    (split (fun c => c == ' ') (command name placement args).toList)[0]? =
      some ((reported name placement).toList.takeWhile fun c => !stops c) := by
  obtain ⟨tail,text,blank⟩ : ∃ tail : List Char, (" ".intercalate (reported name placement :: args)).toList =
      (reported name placement).toList ++ tail ∧ tail.takeWhile (fun c => !stops c) = [] := by
    cases args with
    | nil => exact ⟨[],by simp,rfl⟩
    | cons first rest =>
      refine ⟨' ' :: (" ".intercalate (first :: rest)).toList,?_,rfl⟩
      rw [String.intercalate_cons_cons]
      simp
  have line : (command name placement args).toList.takeWhile (fun c => !(c == ' ')) =
      (reported name placement).toList.takeWhile fun c => !stops c := by
    rw [command,String.toList_ofList,readLine,List.takeWhile_takeWhile,text]
    have same : (fun c : Char => decide (((!(c == ' ')) = true) ∧ ((c != '\n' && c != '\r') = true))) =
        fun c => !stops c := by
      funext c
      by_cases space : c = ' ' <;> by_cases newline : c = '\n' <;> by_cases carriage : c = '\r' <;>
        simp [stops,space,newline,carriage]
    rw [same,List.takeWhile_append,blank,List.append_nil]
    split
    · rename_i whole
      exact ((List.takeWhile_prefix _).eq_of_length whole).symm
    · rfl
  obtain ⟨rest,starts⟩ := reported_starts name placement
  rw [split_first (by rw [line,starts]; nofun),line]

theorem checkMacos_told (host : Surroundings) (inputs : Inputs) (stored : LauncherSettings) (readings : Readings) :
    (checkMacos host).answered (told inputs readings stored) = located host readings.command := by
  obtain ⟨found,installLocation,command⟩ := readings
  cases command with
  | error thrown =>
    change (if thrown.isException then pure none else throw thrown : Updating (Option String)).answered _ = _
    dsimp only [located]
    split <;> rfl
  | ok command =>
    change (if command.getD "" = "" then pure none else ofOutcome (installedMacos host (command.getD "")) :
      Updating (Option String)).answered _ = _
    dsimp only [located]
    split
    · rfl
    · exact answered_outcome _

section
variable (place : RootedPath → RootedPath) (host : Surroundings)

def macosHost : Surroundings := { host with paths := paths unix place }

def app : RootedPath := ⟨"/",["Applications",appDirectory host.properties]⟩

/-- What the check comes to once the executable is a path. -/
theorem installedMacos_eq {command : String} {text : List Char} {path : RootedPath}
    (first : (split (fun c => c == ' ') command.toList)[0]? = some text)
    (parsed : unix.parse (String.ofList text) = some path) (proper : unix.Proper path) {fileName : String}
    (named : path.normalize.fileName = some fileName)
    (appProper : unix.Proper (app host)) :
    installedMacos (macosHost place host) command =
      if fileName = host.properties.name then
        .ok (if unix.startsWith (executable path.normalize fileName) (app host)
          then some (unix.print (executable path.normalize fileName)) else none)
      else .ok none := by
  have normalProper := normalize_keeps proper
  have clean : Clean path.normalize := by
    rw [normalize_proper proper]
    exact resolve_undotted (fun _ member => absurd member List.not_mem_nil) path.names
  have finalProper := executable_proper normalProper named
  have gets : (paths unix place).get (String.ofList text) = .ok (unix.print path) := by
    simp [paths,parsed,Except.map]
  have normalizes : (paths unix place).normalize (unix.print path) = unix.print path.normalize := by
    simp [paths,parse_print proper]
  have appText : "/Applications/" ++ appDirectory host.properties = unix.print (app host) := by
    apply String.toList_inj.mp
    simp [app,Dialect.print,unix]
  unfold installedMacos
  simp only [macosHost,first,deref_some,ok_bind,gets,toAbsolutePath_proper proper,normalizes,
    executablePath_eq normalProper named place clean,getFileName_proper finalProper,
    executable_fileName named,appText,startsWith_proper finalProper,parse_print appProper]
  by_cases same : fileName = host.properties.name
  · simp [same,Except.map]
  · simp [same]

end

section
variable (place : RootedPath → RootedPath) (host : Surroundings) {command : String} {text : List Char}
  (first : (split (fun c => c == ' ') command.toList)[0]? = some text)
include first

theorem installedMacos_unparsed (unparsed : unix.parse (String.ofList text) = none) :
    installedMacos (macosHost place host) command = .error .unchecked := by
  have gets : (paths unix place).get (String.ofList text) = .error .unchecked := by simp [paths,unparsed,Except.map]
  unfold installedMacos
  simp only [macosHost,first,deref_some,ok_bind,gets,error_bind]

/-- The root has no name. -/
theorem installedMacos_unnamed {path : RootedPath} (parsed : unix.parse (String.ofList text) = some path)
    (proper : unix.Proper path) (unnamed : path.normalize.fileName = none) :
    installedMacos (macosHost place host) command = .error .unchecked := by
  have normalProper := normalize_keeps proper
  have empty : unix.print path.normalize = "/" := by
    have root := unix_root normalProper
    have names : path.normalize.names = [] := by
      rw [RootedPath.fileName,if_neg (by simp [root])] at unnamed
      exact List.getLast?_eq_none_iff.mp unnamed
    rw [Dialect.print,root,names]
    rfl
  have gets : (paths unix place).get (String.ofList text) = .ok (unix.print path) := by
    simp [paths,parsed,Except.map]
  have normalizes : (paths unix place).normalize (unix.print path) = "/" := by
    rw [← empty]
    simp [paths,parse_print proper]
  have located : executablePath (paths unix place) "/" = .ok "/" := rfl
  have fileName : (paths unix place).getFileName "/" = none := by
    rw [← empty,getFileName_proper normalProper,unnamed]
  unfold installedMacos
  simp only [macosHost,first,deref_some,ok_bind,gets,toAbsolutePath_proper proper,normalizes,located,fileName,deref_none,
    error_bind]

end

/-! ### The installed bundle -/

def bundled (name : String) : Placement → RootedPath
  | .MacOS => ⟨"/",["Applications",name ++ ".app","Contents","MacOS",name]⟩
  | .Resources => ⟨"/",["Applications",name ++ ".app","Contents","Resources",".",name]⟩

theorem reported_print (name : String) (placement : Placement) :
    reported name placement = unix.print (bundled name placement) := by
  unfold reported
  cases placement <;> apply String.toList_inj.mp <;> simp [bundled,Dialect.print,unix]

section
variable {name : String} (fileName : FileName name)
include fileName

theorem app_name : unix.Name (name ++ ".app") := by
  refine unix_name (by simp) fun c member => ?_
  have letters : ∀ c ∈ ".app".toList, c ≠ '/' ∧ c ≠ '\x00' := by simp
  exact (List.mem_append.mp (String.toList_append ▸ member)).elim (fileName.plain c) (letters c)

omit fileName in
theorem app_undotted : name ++ ".app" ≠ "." ∧ name ++ ".app" ≠ ".." := by
  constructor <;> intro same <;> have letter := congrArg (fun text => 'a' ∈ text.toList) same <;> simp at letter

theorem bundled_proper (placement : Placement) : unix.Proper (bundled name placement) := by
  have constants : ∀ constant ∈ ["Applications","Contents","MacOS","Resources","."], unix.Name constant := by
    simp only [List.forall_mem_cons]
    exact ⟨unix_name (by simp) (by simp),unix_name (by simp) (by simp),unix_name (by simp) (by simp),
      unix_name (by simp) (by simp),unix_name (by simp) (by simp),nofun⟩
  have named : ∀ part ∈ (bundled name placement).names, unix.Name part := by
    intro part member
    have cases : part = name ∨ part = name ++ ".app" ∨ part ∈ ["Applications","Contents","MacOS","Resources","."] := by
      cases placement <;> simp [bundled] at member ⊢ <;> tauto
    rcases cases with rfl | rfl | constant
    · exact fileName.name
    · exact app_name fileName
    · exact constants part constant
  exact ⟨⟨['/'],[],by cases placement <;> rfl⟩,by cases placement <;> rfl,named⟩

theorem bundled_normalize (placement : Placement) : (bundled name placement).normalize =
    match placement with
    | .MacOS => bundled name .MacOS
    | .Resources => ⟨"/",["Applications",name ++ ".app","Contents","Resources",name]⟩ := by
  rw [normalize_proper (bundled_proper fileName placement)]
  cases placement <;> simp [bundled,DotSegments.resolve,enter,app_undotted,fileName.undotted]

omit fileName in
theorem inResources_launcher (proper : unix.Proper (bundled name .MacOS)) : inResources (bundled name .MacOS) = false := by
  refine Bool.eq_false_iff.mpr fun inside => ?_
  obtain ⟨before,after,names⟩ := inResources_names proper inside
  rcases before with - | ⟨first,- | ⟨second,- | ⟨third,- | ⟨fourth,before⟩⟩⟩⟩
  · simp [bundled] at names
  · simp [bundled] at names
  · simp [bundled] at names
  · simp [bundled] at names
  · have short := congrArg List.length names
    simp only [bundled,List.length_cons,List.length_nil,List.length_append] at short
    omega

/-- Both placements lead to the same executable. -/
theorem bundled_executable (placement : Placement) :
    executable (bundled name placement).normalize name = bundled name .MacOS := by
  rw [bundled_normalize fileName]
  cases placement with
  | MacOS => rw [executable,inResources_launcher (bundled_proper fileName .MacOS)]; rfl
  | Resources =>
    have inside : inResources ⟨"/",["Applications",name ++ ".app","Contents","Resources",name]⟩ = true := by
      refine decide_eq_true ⟨("/Applications/" ++ name ++ ".app").toList,name.toList,?_⟩
      simp [Dialect.print,unix]
    rw [executable,inside]
    rfl

end

theorem parsed_proper {text rest : List Char} {path : RootedPath} (starts : text = '/' :: rest)
    (parsed : unix.parse (String.ofList text) = some path) : unix.Proper path := by
  refine parse_proper parsed ?_
  obtain ⟨rest',rooted,-,-⟩ := parse_eq parsed
  rw [String.toList_ofList,starts] at rooted
  rw [Dialect.isAbsolute,← (Prod.mk.inj (Option.some.inj rooted)).1]
  rfl

theorem parsed_subset {text : List Char} {path : RootedPath} (parsed : unix.parse (String.ofList text) = some path) :
    ∀ name ∈ path.names, name.toList ⊆ text := by
  obtain ⟨rest,rooted,names,-⟩ := parse_eq parsed
  intro name member
  rw [String.toList_ofList] at rooted
  have early : rest ⊆ text := by
    change unixRoot text = _ at rooted
    unfold unixRoot at rooted
    split at rooted
    · rw [← (Prod.mk.inj (Option.some.inj rooted)).2]
      exact List.subset_cons_self _ _
    · rw [← (Prod.mk.inj (Option.some.inj rooted)).2]
      exact List.Subset.refl _
  have inside := segments_subset unix.separates (String.ofList rest) name (names ▸ member)
  rw [String.toList_ofList] at inside
  exact fun c listed => early (inside listed)

theorem normalize_subset {path : RootedPath} (proper : unix.Proper path) : path.normalize.names ⊆ path.names := by
  rw [normalize_proper proper]
  exact resolve_subset [] path.names

theorem reported_unstopped {name : String} (unstopped : ∀ c ∈ name.toList, stops c = false) (placement : Placement) :
    ∀ c ∈ (reported name placement).toList, stops c = false := by
  intro c member
  have constants : ∀ text ∈ ["/Applications/",".app/Contents/MacOS/",".app/Contents/Resources/./"], ∀ c ∈ text.toList,
      stops c = false := by simp [stops]
  unfold reported at member
  cases placement with
  | MacOS =>
    simp only [String.toList_append,List.mem_append] at member
    rcases member with ((start | named) | middle) | named
    · exact constants _ (by simp) c start
    · exact unstopped c named
    · exact constants _ (by simp) c middle
    · exact unstopped c named
  | Resources =>
    simp only [String.toList_append,List.mem_append] at member
    rcases member with ((start | named) | middle) | named
    · exact constants _ (by simp) c start
    · exact unstopped c named
    · exact constants _ (by simp) c middle
    · exact unstopped c named

section
variable (place : RootedPath → RootedPath) (host : Surroundings) (inputs : Inputs) (stored : LauncherSettings)

theorem app_proper (fileName : FileName host.properties.name) : unix.Proper (app host) :=
  proper_subset (bundled_proper fileName .MacOS) rfl (by simp [app,bundled,appDirectory])

/-- The check of `updateMacos` lets the process through that `ps` reports. -/
def PassesMacos (placement : Placement) (args : List String) : Prop :=
  ∃ path, (checkMacos (macosHost place host)).answered
    (told inputs ⟨fun _ => false,.ok none,.ok (some (command host.properties.name placement args))⟩ stored) = .ok (some path)

theorem passesMacos_iff (fileName : FileName host.properties.name) (placement : Placement) (args : List String) :
    PassesMacos place host inputs stored placement args ↔ ∀ c ∈ host.properties.name.toList, stops c = false := by
  have first := command_executable host.properties.name placement args
  obtain ⟨rest,starts⟩ := reported_starts host.properties.name placement
  have given : command host.properties.name placement args ≠ "" := by
    intro empty
    rw [empty,starts] at first
    cases first
  rw [PassesMacos]
  simp only [checkMacos_told,located,Option.getD_some,if_neg given]
  constructor
  · rintro ⟨path,passes⟩ c member
    cases parsed : unix.parse
        (String.ofList ((reported host.properties.name placement).toList.takeWhile fun c => !stops c)) with
    | none =>
      rw [installedMacos_unparsed place host first parsed] at passes
      cases passes
    | some found =>
      have proper := parsed_proper starts parsed
      cases named : found.normalize.fileName with
      | none =>
        rw [installedMacos_unnamed place host first parsed proper named] at passes
        cases passes
      | some last =>
        rw [installedMacos_eq place host first parsed proper named (app_proper host fileName)] at passes
        by_cases same : last = host.properties.name
        · have listed := normalize_subset proper (fileName_listed (normalize_keeps proper) named)
          have inside := parsed_subset parsed last listed (same ▸ member)
          simpa using List.mem_takeWhile_imp inside
        · rw [if_neg same] at passes
          cases passes
  · intro unstopped
    have whole : (reported host.properties.name placement).toList.takeWhile (fun c => !stops c) =
        (reported host.properties.name placement).toList :=
      List.takeWhile_eq_self_iff.mpr fun c member => by rw [reported_unstopped unstopped placement c member]; rfl
    rw [whole] at first
    have proper := bundled_proper fileName placement
    have parsed : unix.parse (String.ofList (reported host.properties.name placement).toList) =
        some (bundled host.properties.name placement) := by
      rw [String.ofList_toList,reported_print,parse_print proper]
    have named : (bundled host.properties.name placement).normalize.fileName = some host.properties.name := by
      rw [bundled_normalize fileName]
      cases placement <;> rfl
    have below : bundled host.properties.name .MacOS = (app host).join ["Contents","MacOS",host.properties.name] := rfl
    rw [installedMacos_eq place host first parsed proper named (app_proper host fileName),if_pos rfl,
      bundled_executable fileName,below,startsWith_join (app_proper host fileName).absolute]
    exact ⟨_,rfl⟩

end

/-! ## Both systems -/

/-- A process that asks for an update. -/
inductive Process (fold : Char → Char)
  | windows (process : WindowsProcess fold)
  | macos (placement : Placement) (args : List String)

section
variable (fold : Char → Char) (place : RootedPath → RootedPath) (host : Surroundings) (inputs : Inputs)
  (stored : LauncherSettings)

/-- The updater takes the process for what it is. -/
def Recognises : Process fold → Prop
  | .windows process => RecognisesWindows place host inputs stored process
  | .macos placement args => PassesMacos place host inputs stored placement args

/-- On Windows the launcher has the name of the runtime's executable, unless
    neither of the two is installed; on macOS the name has no blank and is one line. -/
def Recognisable : Process fold → Prop
  | .windows process => (process.StartedFrom host.properties.name → host.properties.name = "java") ∧
    (¬ process.IsInstalled host.properties.name → process.RuntimeInstalled → host.properties.name ≠ "java")
  | .macos _ _ => ∀ c ∈ host.properties.name.toList, c ≠ ' ' ∧ c ≠ '\n' ∧ c ≠ '\r'

theorem recognises_iff (fileName : FileName host.properties.name) (process : Process fold) :
    Recognises fold place host inputs stored process ↔ Recognisable fold host process := by
  cases process with
  | windows process => exact recognisesWindows_iff place host inputs stored process
  | macos placement args =>
    refine (passesMacos_iff place host inputs stored fileName placement args).trans ?_
    simp [Recognisable,stops,and_assoc]

end

private def named (name : String) : Surroundings where
  properties := ⟨name,"2.7.1","launcher.version","","",""⟩
  machine := ⟨some "Windows 10",some "amd64",some "10.0"⟩
  paths := paths unix id
  javaHome := none
  upgrade := none
  locate _ := .error .io
  toShare _ := .nan

private def quiet : Inputs := ⟨0,0,.ok [],.ok none,.nan,nowhere⟩

theorem recognises_sample :
    Recognises id id (named "RuneLite") quiet {} (.macos .Resources ["--debug"]) ↔
      Recognisable id (named "RuneLite") (.macos .Resources ["--debug"]) :=
  recognises_iff id id (named "RuneLite") quiet {} ⟨by decide,by simp [named],by decide⟩ (.macos .Resources ["--debug"])

private def runtime : RootedPath := ⟨"C:\\",["RuneLite","jre"]⟩

private theorem drive_proper {names : List String} (listed : names ⊆ ["RuneLite","jre","RuneLite.exe"]) :
    (windows id).Proper ⟨"C:\\",names⟩ := by
  have named : ∀ name ∈ ["RuneLite","jre","RuneLite.exe"], (windows id).Name name := by
    simp only [List.forall_mem_cons]
    exact ⟨⟨by simp [windows,windowsLegal],by decide,by simp [windows,isSlash]⟩,
      ⟨by simp [windows,windowsLegal],by decide,by simp [windows,isSlash]⟩,
      ⟨by simp [windows,windowsLegal],by decide,by simp [windows,isSlash]⟩,nofun⟩
  exact ⟨⟨['C',':','\\'],[],rfl⟩,decide_eq_true (by decide : 2 < "C:\\".length),fun name member => named name (listed member)⟩

private theorem drive_parse {names : List String} {text : String} (listed : names ⊆ ["RuneLite","jre","RuneLite.exe"])
    (printed : text.toList = ((windows id).print ⟨"C:\\",names⟩).toList) :
    (windows id).parse text = some ⟨"C:\\",names⟩ := by
  rw [String.toList_inj.mp printed]
  exact parse_print (drive_proper listed)

/-- The launcher in `C:\RuneLite`, started with the runtime that lies next to it. -/
private def launched : WindowsProcess id where
  installLocation := "C:\\RuneLite"
  executable := "C:\\RuneLite\\RuneLite.exe"
  javaHome := "C:\\RuneLite\\jre"
  home := runtime
  parsed := drive_parse (by simp) (by simp [Dialect.print,windows])
  absolute := (drive_proper (by simp)).absolute
  found _ := true

/-- The installed launcher is not recognised, nor is one with a blank in its name. -/
theorem launcher_unrecognised : ¬ Recognises id id (named "RuneLite") quiet {} (.windows launched) ∧
    ¬ Recognises id id (named "Old RuneLite") quiet {} (.macos .MacOS []) := by
  constructor
  · intro recognised
    have expected := ((recognisesWindows_iff id (named "RuneLite") quiet {} launched).mp recognised).1
    have started : launched.StartedFrom "RuneLite" := by
      exact ⟨rfl,⟨"C:\\",["RuneLite"]⟩,drive_parse (by simp) (by simp [launched,Dialect.print,windows]),
        drive_parse (by simp) (by simp [launched,Dialect.print,windows]),rfl⟩
    exact absurd (expected started) (by decide)
  · intro recognised
    have unstopped := (passesMacos_iff id (named "Old RuneLite") quiet {} ⟨by decide,by simp [named],by decide⟩ .MacOS []).mp
      recognised ' ' (by decide)
    cases unstopped

end OpenRune.RunningFromInstaller
