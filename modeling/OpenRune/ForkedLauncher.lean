import OpenRune.Startup
import OpenRune.RootedPaths

/-!
# The forked launcher

`ForkLauncher.canForkLaunch` says whether the launcher can be started again, and
`ForkLauncher.launch` starts it. On Linux the first reads `APPIMAGE`, which the
second does not.
-/
namespace OpenRune.ForkedLauncher
open OpenRune.Java OpenRune.Beans OpenRune.Settings OpenRune.Updates OpenRune.Programs OpenRune.Operations OpenRune.DotSegments
  OpenRune.RootedPaths OpenRune.Launchers OpenRune.Startup

/-- The paths of the system. -/
def dialect (fold : Char → Char) : OSType → Dialect
  | .Windows => windows fold
  | _ => unix

/-- A process and the places of its paths: `place` is where a path lies that is not
    absolute, with its names at the end. The virtual machine sets `java.version`. -/
structure Process where
  surroundings : Host
  fold : Char → Char
  place : RootedPath → Except Thrown RootedPath
  versioned : ∃ new, isJava17 surroundings.javaVersion = .ok new
  placed : ∀ {text : String} {path placed : RootedPath},
    (dialect fold (getOs surroundings.machine)).parse text = some path → place path = .ok placed →
      (dialect fold (getOs surroundings.machine)).Proper placed ∧ path.names <:+ placed.names

namespace Process
variable (process : Process)

def os : OSType := getOs process.surroundings.machine

def paths : Dialect := dialect process.fold process.os

/-- `Path.toAbsolutePath`. -/
def toAbsolutePath (path : RootedPath) : Except Thrown RootedPath :=
  if process.paths.isAbsolute path then .ok path else process.place path

/-- What the launchers are told of the paths. -/
def host : Host :=
  { process.surroundings with
    fileNameOf := fun text => do deref (← deref (process.paths.parse text)).fileName
    absolutePathOf := fun text => do
      return process.paths.print (← process.toAbsolutePath (← deref (process.paths.parse text))) }

/-- `LAUNCHER_EXECUTABLE_NAME_WIN` or `LAUNCHER_EXECUTABLE_NAME_OSX`. -/
def IsExecutableName (name : String) : Prop :=
  name = process.host.properties.name ++ ".exe" ∨ name = process.host.properties.name

/-- The AppImage on Linux when there is one, and otherwise a file with the name of
    the launcher. -/
def IsLauncher (program : String) : Prop :=
  match process.os, process.host.appimage with
  | .Linux, some appimage => process.host.absolutePathOf appimage = .ok program
  | _, _ => ∃ name, process.host.fileNameOf program = .ok name ∧ process.IsExecutableName name

/-- What can be forked is forked, and it is the launcher. -/
def ForksLauncher (bootstrap : Bootstrap) (classpath clientArgs : List String) (jvmProps : List (String × String))
    (jvmArgs : List String) : Prop :=
  canForkLaunch process.host = .ok true → ∃ program options,
    forkLaunch process.host bootstrap classpath clientArgs jvmProps jvmArgs = .ok (program :: options) ∧
      process.IsLauncher program

/-- The command is a path to the launcher by its name. -/
def NamesLauncher (command : String) : Prop :=
  command ≠ "" ∧ ∃ name, process.host.fileNameOf command = .ok name ∧ process.IsExecutableName name

/-- With an AppImage, `sun.java.command` is a path to it; otherwise it has an
    absolute path if it is one to the launcher. -/
def CommandFits : Prop :=
  match process.os, process.host.appimage with
  | .Linux, some appimage => ∃ command program, process.host.command = some command ∧
      process.host.absolutePathOf command = .ok program ∧ process.host.absolutePathOf appimage = .ok program
  | .Linux, none => True
  | .Other, _ => True
  | _, _ => ∀ command, process.host.command = some command → process.NamesLauncher command →
      ∃ program, process.host.absolutePathOf command = .ok program

end Process

/-! ## Paths -/

theorem segments_filled {separates : Char → Bool} {c : Char} {text : List Char} (inside : separates c = false) :
    segments separates (String.ofList (c :: text)) ≠ [] := by
  obtain ⟨first,rest,divided⟩ := List.exists_cons_of_ne_nil (List.splitOnP_ne_nil separates text)
  simp [segments,List.splitOnP_cons_eq_if_modifyHead,inside,divided]

theorem root_differs {start : String} {rest rest' : List Char} {P : Prop} (filled : start ≠ "")
    (same : some (start,rest) = some ("",rest')) : P :=
  absurd (congrArg Prod.fst (Option.some.inj same)) filled

theorem ofList_filled {c : Char} {cs : List Char} : String.ofList (c :: cs) ≠ "" := by
  intro empty
  have listed := congrArg String.toList empty
  simp at listed

theorem unixRoot_none {c : Char} {text rest : List Char} (found : unixRoot (c :: text) = some ("",rest)) :
    (c == '/') = false ∧ rest = c :: text := by
  unfold unixRoot at found
  split at found
  · exact root_differs (by decide) found
  · rename_i relative
    cases found
    exact ⟨beq_false_of_ne fun same => relative text (congrArg (· :: text) same),rfl⟩

theorem windowsRoot_none {c : Char} {text rest : List Char} (found : windowsRoot (c :: text) = some ("",rest)) :
    isSlash c = false ∧ rest = c :: text := by
  cases text with
  | nil =>
    simp only [windowsRoot] at found
    split at found
    · exact root_differs (by decide) found
    · rename_i relative
      cases found
      exact ⟨by simpa using relative,rfl⟩
  | cons next text =>
    simp only [windowsRoot] at found
    split at found
    · simp only [uncRoot] at found
      split at found
      · cases found
      · exact root_differs ofList_filled found
    split at found
    · cases text with
      | nil => exact root_differs ofList_filled found
      | cons after text =>
        dsimp only at found
        split at found <;> exact root_differs ofList_filled found
    split at found
    · exact root_differs (by decide) found
    · rename_i relative
      cases found
      exact ⟨by simpa using relative,rfl⟩

/-- Only the empty text is the empty path. -/
theorem parse_filled {fold : Char → Char} {os : OSType} {text : String} (filled : text ≠ "") {path : RootedPath}
    (parsed : (dialect fold os).parse text = some path) : path ≠ ⟨"",[]⟩ := by
  rintro rfl
  obtain ⟨rest,rooted,named,-⟩ := parse_eq parsed
  obtain ⟨c,cs,listed⟩ : ∃ c cs, text.toList = c :: cs :=
    List.exists_cons_of_ne_nil fun empty => filled (String.toList_inj.mp (by simpa using empty))
  have first : (dialect fold os).separates c = false ∧ rest = c :: cs := by
    rw [listed] at rooted
    cases os with
    | Windows => exact windowsRoot_none rooted
    | MacOS => exact unixRoot_none rooted
    | Linux => exact unixRoot_none rooted
    | Other => exact unixRoot_none rooted
  rw [first.2] at named
  exact segments_filled first.1 named.symm

section
variable {process : Process}

theorem fileNameOf_ok {text name : String} : process.host.fileNameOf text = .ok name ↔
    ∃ path, process.paths.parse text = some path ∧ path.fileName = some name := by
  simp only [Process.host]
  cases process.paths.parse text with
  | none => simp
  | some path => cases named : path.fileName <;> simp [named]

theorem absolutePathOf_ok {text program : String} : process.host.absolutePathOf text = .ok program ↔
    ∃ path absolute, process.paths.parse text = some path ∧ process.toAbsolutePath path = .ok absolute ∧
      process.paths.print absolute = program := by
  simp only [Process.host]
  cases process.paths.parse text with
  | none => simp
  | some path => cases placed : process.toAbsolutePath path <;> simp [placed]

theorem toAbsolutePath_proper {text : String} {path absolute : RootedPath} (parsed : process.paths.parse text = some path)
    (placed : process.toAbsolutePath path = .ok absolute) :
    process.paths.Proper absolute ∧ path.names <:+ absolute.names := by
  unfold Process.toAbsolutePath at placed
  split at placed
  · rename_i full
    cases placed
    exact ⟨parse_proper parsed full,List.suffix_rfl⟩
  · exact process.placed parsed placed

/-- An absolute path has the same last name. -/
theorem absolute_fileName {path absolute : RootedPath} (filled : path ≠ ⟨"",[]⟩)
    (full : process.paths.isAbsolute absolute = true) (below : path.names <:+ absolute.names) {name : String}
    (named : path.fileName = some name) : absolute.fileName = some name := by
  have rooted : absolute.root ≠ "" := by
    intro empty
    rw [Dialect.isAbsolute,empty,Dialect.full_empty] at full
    cases full
  have relative : ¬ (path.root = "" ∧ path.names = []) := by
    rintro ⟨root,names⟩
    exact filled (by cases path; simp_all)
  rw [RootedPath.fileName,if_neg relative] at named
  rw [RootedPath.fileName,if_neg (by simp [rooted])]
  obtain ⟨before,together⟩ := below
  rw [← together,List.getLast?_append,named]
  rfl

theorem fileNameOf_absolute {text program name : String} (filled : text ≠ "")
    (absolute : process.host.absolutePathOf text = .ok program) (named : process.host.fileNameOf text = .ok name) :
    process.host.fileNameOf program = .ok name := by
  obtain ⟨path,place,parsed,placed,rfl⟩ := absolutePathOf_ok.mp absolute
  obtain ⟨path',parsed',fileName⟩ := fileNameOf_ok.mp named
  obtain rfl : path = path' := Option.some.inj (parsed.symm.trans parsed')
  obtain ⟨proper,below⟩ := toAbsolutePath_proper parsed placed
  exact fileNameOf_ok.mpr ⟨place,parse_print proper,
    absolute_fileName (parse_filled filled parsed) proper.absolute below fileName⟩

end

/-! ## The check and the launch -/

section
variable {process : Process} {bootstrap : Bootstrap} {classpath clientArgs : List String}
  {jvmProps : List (String × String)} {jvmArgs : List String}

theorem canForkLaunch_linux (linux : process.os = .Linux) :
    canForkLaunch process.host = .ok true ↔ process.host.appimage.isSome = true := by
  unfold canForkLaunch
  rw [show getOs process.host.machine = .Linux from linux]
  exact Except.ok.injEq _ _ |>.to_iff

theorem canForkLaunch_named (system : process.os = .Windows ∨ process.os = .MacOS) :
    canForkLaunch process.host = .ok true ↔ ∃ command, process.host.command = some command ∧ process.NamesLauncher command := by
  unfold canForkLaunch
  split
  · rename_i linux
    exact absurd (system.imp linux.symm.trans linux.symm.trans) (by decide)
  · rename_i other
    exact absurd (system.imp other.symm.trans other.symm.trans) (by decide)
  split
  · rename_i absent
    simp [absent]
  · rename_i empty
    simp [empty,Process.NamesLauncher]
  · rename_i command filled given
    cases named : process.host.fileNameOf command with
    | error thrown => simp [given,Process.NamesLauncher,named]
    | ok name => simp [given,Process.NamesLauncher,named,show command ≠ "" from filled,Process.IsExecutableName,pure,Except.pure]

/-- What is started is the absolute path of `sun.java.command`. -/
theorem forkLaunch_iff (given : classpath ≠ []) (P : String → Prop) :
    (∃ program options, forkLaunch process.host bootstrap classpath clientArgs jvmProps jvmArgs = .ok (program :: options) ∧
      P program) ↔
    ∃ command program, process.host.command = some command ∧ process.host.absolutePathOf command = .ok program ∧ P program := by
  obtain ⟨arguments,collected⟩ : ∃ arguments, getJvmArguments process.host bootstrap = .ok arguments := by
    obtain ⟨new,versioned⟩ := process.versioned
    have versioned : isJava17 process.host.javaVersion = .ok new := versioned
    unfold getJvmArguments
    rw [versioned,ok_bind]
    cases new with
    | false => exact ⟨_,rfl⟩
    | true => cases getOs process.host.machine <;> exact ⟨_,rfl⟩
  have filled : classpath.isEmpty = false := by simpa using given
  unfold forkLaunch
  cases set : process.host.command with
  | none => simp
  | some command =>
    cases resolved : process.host.absolutePathOf command with
    | error thrown => simp [resolved]
    | ok program => simp [resolved,collected,filled,forkCommand]

theorem canForkLaunch_other (other : process.os = .Other) : canForkLaunch process.host ≠ .ok true := by
  unfold canForkLaunch
  rw [show getOs process.host.machine = .Other from other]
  intro forks
  cases forks

/-- A file with the name of the launcher is still one at its absolute path. -/
theorem named_iff (system : process.os = .Windows ∨ process.os = .MacOS) :
    (canForkLaunch process.host = .ok true → ∃ command program, process.host.command = some command ∧
      process.host.absolutePathOf command = .ok program ∧
        ∃ name, process.host.fileNameOf program = .ok name ∧ process.IsExecutableName name) ↔
    ∀ command, process.host.command = some command → process.NamesLauncher command →
      ∃ program, process.host.absolutePathOf command = .ok program := by
  rw [canForkLaunch_named system]
  constructor
  · intro forks command given named
    obtain ⟨command',program,given',absolute,-⟩ := forks ⟨command,given,named⟩
    obtain rfl : command = command' := Option.some.inj (given.symm.trans given')
    exact ⟨program,absolute⟩
  · rintro absolute ⟨command,given,filled,name,fileName,executable⟩
    obtain ⟨program,resolved⟩ := absolute command given ⟨filled,name,fileName,executable⟩
    exact ⟨command,program,given,resolved,name,fileNameOf_absolute filled resolved fileName,executable⟩

/-- What can be forked is forked, and is the launcher, exactly when the command is a
    path to the AppImage, or without one has an absolute path. -/
theorem forksLauncher_iff (process : Process) (bootstrap : Bootstrap) {classpath : List String} (clientArgs : List String)
    (jvmProps : List (String × String)) (jvmArgs : List String) (given : classpath ≠ []) :
    process.ForksLauncher bootstrap classpath clientArgs jvmProps jvmArgs ↔ process.CommandFits := by
  rw [Process.ForksLauncher,forkLaunch_iff given process.IsLauncher]
  unfold Process.IsLauncher Process.CommandFits
  cases system : process.os with
  | Linux =>
    rw [canForkLaunch_linux system]
    cases process.host.appimage with
    | none => exact iff_of_true (fun present => by cases present) trivial
    | some appimage => exact forall_prop_of_true rfl
  | Other => exact iff_of_true (fun forks => absurd forks (canForkLaunch_other system)) trivial
  | Windows => exact named_iff (.inl system)
  | MacOS => exact named_iff (.inr system)

/-- With `AUTO`, what can be forked but fails to be ends the start of the client. -/
theorem startClient_auto {host : Host} {settings : LauncherSettings} {thrown : Thrown} (auto : settings.launchMode = some .AUTO)
    (can : canForkLaunch host = .ok true)
    (failed : forkLaunch host bootstrap classpath clientArgs jvmProps jvmArgs = .error thrown) :
    startClient host bootstrap settings classpath clientArgs jvmProps jvmArgs = throw thrown := by
  unfold startClient
  rw [auto,if_neg (by simp),if_pos rfl,can,failed]
  rfl

theorem startClient_image {settings : LauncherSettings} {appimage : String} (auto : settings.launchMode = some .AUTO)
    (linux : process.os = .Linux) (started : process.host.appimage = some appimage) (unset : process.host.command = none) :
    startClient process.host bootstrap settings classpath clientArgs jvmProps jvmArgs = throw .unchecked := by
  refine startClient_auto auto ((canForkLaunch_linux linux).mpr (by rw [started]; rfl)) ?_
  rw [forkLaunch,unset]
  rfl

end

/-! ## From an AppImage -/

theorem unix_sample : dialect id (getOs sampleHost.machine) = unix := by
  have linux : getOs sampleHost.machine = .Linux := by decide
  rw [linux]
  rfl

/-- A process that was started from an AppImage in the root directory. -/
def imageProcess (command : Option String) : Process where
  surroundings := { sampleHost with command := command, appimage := some "/OpenRune.AppImage" }
  fold := id
  place path := .ok ⟨"/",path.names⟩
  versioned := ⟨false,rfl⟩
  placed := by
    intro text path placed parsed same
    rw [show dialect id (getOs _) = unix from unix_sample] at parsed ⊢
    cases same
    obtain ⟨rest,-,named,legal⟩ := parse_eq parsed
    refine ⟨⟨⟨['/'],[],rfl⟩,rfl,fun name member => ?_⟩,List.suffix_rfl⟩
    have whole := segments_whole unix.separates (String.ofList rest) name (named ▸ member)
    exact ⟨List.all_eq_true.mp legal name member,whole.1,whole.2⟩

theorem forksLauncher_sample :
    (imageProcess (some "OpenRune.AppImage")).ForksLauncher {} ["client.jar"] [] [] [] := by
  refine (forksLauncher_iff _ _ _ _ _ (by decide)).mpr ?_
  have linux : (imageProcess (some "OpenRune.AppImage")).os = .Linux := by decide
  have unix : (imageProcess (some "OpenRune.AppImage")).paths = unix := unix_sample
  rw [Process.CommandFits,linux]
  refine ⟨"OpenRune.AppImage","/OpenRune.AppImage",rfl,absolutePathOf_ok.mpr ?_,absolutePathOf_ok.mpr ?_⟩
  · refine ⟨⟨"",["OpenRune.AppImage"]⟩,⟨"/",["OpenRune.AppImage"]⟩,?_,?_,?_⟩
    · rw [unix]
      rfl
    · rw [Process.toAbsolutePath,unix]
      rfl
    · rw [unix]
      rfl
  · refine ⟨⟨"/",["OpenRune.AppImage"]⟩,⟨"/",["OpenRune.AppImage"]⟩,?_,?_,?_⟩
    · rw [unix]
      rfl
    · rw [Process.toAbsolutePath,unix]
      rfl
    · rw [unix]
      rfl

/-- Without `sun.java.command` the launcher says that it can fork, and fails. -/
theorem image_not_forked : canForkLaunch (imageProcess none).host = .ok true ∧
    forkLaunch (imageProcess none).host {} ["client.jar"] [] [] [] = .error .unchecked ∧
    ¬ (imageProcess none).ForksLauncher {} ["client.jar"] [] [] [] := by
  have can : canForkLaunch (imageProcess none).host = .ok true := (canForkLaunch_linux (by decide)).mpr rfl
  refine ⟨can,rfl,fun forks => ?_⟩
  obtain ⟨program,options,launched,-⟩ := forks can
  cases launched

end OpenRune.ForkedLauncher
