import OpenRune.Updates

/-!
# Settings and options

The launcher settings as they are stored, the options of a command line as the
option parser reports them, and `LauncherSettings.apply`, which lets the options
override the settings.
-/
namespace OpenRune.Settings
open OpenRune.Java OpenRune.Updates

inductive HardwareAccelerationMode
  | AUTO
  | OFF
  | DIRECTDRAW
  | OPENGL
  | METAL
  deriving DecidableEq, Repr

inductive LaunchMode
  | AUTO
  | JVM
  | FORK
  | REFLECT
  deriving DecidableEq, Repr

structure LauncherSettings where
  lastUpdateAttemptTime : Int := 0
  lastUpdateHash : Option String := none
  lastUpdateAttemptNum : Int := 0
  debug : Bool := false
  nodiffs : Bool := false
  skipTlsVerification : Bool := false
  noupdates : Bool := false
  safemode : Bool := false
  ipv4 : Bool := false
  scale : Option Double := none
  clientArguments : Option (List String) := some []
  jvmArguments : Option (List String) := some []
  hardwareAccelerationMode : Option HardwareAccelerationMode := some .AUTO
  launchMode : Option LaunchMode := some .AUTO
  deriving DecidableEq, Repr

/-- What is read of settings that were saved. Gson writes no member that is null,
    and one that is not there has the value of a new object. -/
def LauncherSettings.reloaded (settings : LauncherSettings) : LauncherSettings :=
  { settings with
    clientArguments := some (settings.clientArguments.getD [])
    jvmArguments := some (settings.jvmArguments.getD [])
    hardwareAccelerationMode := some (settings.hardwareAccelerationMode.getD .AUTO)
    launchMode := some (settings.launchMode.getD .AUTO) }

/-! ## Options -/

/-- What the option parser has found: the options in order, each with its
    argument when it takes one, and the arguments that are no options. -/
structure OptionSet where
  detected : List (String × Option String) := []
  nonOptionArguments : List String := []
  deriving DecidableEq, Repr

def OptionSet.has (options : OptionSet) (option : String) : Bool := options.detected.any fun found => found.1 == option

def OptionSet.valuesOf (options : OptionSet) (option : String) : List String :=
  options.detected.filterMap fun found => if found.1 = option then found.2 else none

/-- Null without a value; several values are an exception. -/
def OptionSet.valueOf (options : OptionSet) (option : String) : Except Thrown (Option String) :=
  match options.valuesOf option with
  | [] => .ok none
  | [value] => .ok (some value)
  | _ => .error .unchecked

/-- Conversion of an option's argument to an enumeration. -/
def convert {α : Type} (valueOf : String → Option α) : Option String → Except Thrown (Option α)
  | none => .ok none
  | some name => (deref (valueOf name)).map some

def HardwareAccelerationMode.valueOf : String → Option HardwareAccelerationMode
  | "AUTO" => some .AUTO
  | "OFF" => some .OFF
  | "DIRECTDRAW" => some .DIRECTDRAW
  | "OPENGL" => some .OPENGL
  | "METAL" => some .METAL
  | _ => none

def LaunchMode.valueOf : String → Option LaunchMode
  | "AUTO" => some .AUTO
  | "JVM" => some .JVM
  | "FORK" => some .FORK
  | "REFLECT" => some .REFLECT
  | _ => none

/-- Each of the three values that `apply` converts, or the stored one. -/
def LauncherSettings.scaleFor (parseDouble : String → Option Double) (settings : LauncherSettings)
    (options : OptionSet) : Except Thrown (Option Double) := do
  if !options.has "scale" then return settings.scale
  let text ← options.valueOf "scale"
  return some (← deref (parseDouble (text.getD "null")))

def LauncherSettings.hardwareAccelerationFor (settings : LauncherSettings) (options : OptionSet) :
    Except Thrown (Option HardwareAccelerationMode) := do
  if options.has "hw-accel" then convert HardwareAccelerationMode.valueOf (← options.valueOf "hw-accel")
  else if options.has "mode" then convert HardwareAccelerationMode.valueOf (← options.valueOf "mode")
  else return settings.hardwareAccelerationMode

def LauncherSettings.launchModeFor (reflectProperty : Option String) (settings : LauncherSettings)
    (options : OptionSet) : Except Thrown (Option LaunchMode) := do
  if reflectProperty = some "true" then return some .REFLECT
  else if options.has "launch-mode" then convert LaunchMode.valueOf (← options.valueOf "launch-mode")
  else return settings.launchMode

/-- `LauncherSettings.apply`. `reflectProperty` is the system property
    `runelite.launcher.reflect`, `parseDouble` is `Double.parseDouble`. -/
def LauncherSettings.apply (parseDouble : String → Option Double) (reflectProperty : Option String)
    (settings : LauncherSettings) (options : OptionSet) : Except Thrown LauncherSettings := do
  let scale ← settings.scaleFor parseDouble options
  let hardwareAccelerationMode ← settings.hardwareAccelerationFor options
  let launchMode ← settings.launchModeFor reflectProperty options
  return { settings with
    debug := settings.debug || options.has "debug"
    nodiffs := settings.nodiffs || options.has "nodiff"
    skipTlsVerification := settings.skipTlsVerification || options.has "insecure-skip-tls-verification"
    noupdates := settings.noupdates || options.has "noupdate"
    scale := scale
    jvmArguments := if options.has "J" then some (options.valuesOf "J") else settings.jvmArguments
    clientArguments :=
      if options.nonOptionArguments.isEmpty then settings.clientArguments else some options.nonOptionArguments
    hardwareAccelerationMode := hardwareAccelerationMode
    launchMode := launchMode }

theorem apply_ok {parseDouble : String → Option Double} {reflectProperty : Option String}
    {stored settings : LauncherSettings} {options : OptionSet}
    (applied : stored.apply parseDouble reflectProperty options = .ok settings) :
    settings.debug = (stored.debug || options.has "debug") ∧ settings.safemode = stored.safemode ∧
      settings.clientArguments =
        (if options.nonOptionArguments.isEmpty then stored.clientArguments else some options.nonOptionArguments) ∧
      settings.noupdates = (stored.noupdates || options.has "noupdate") := by
  unfold LauncherSettings.apply at applied
  cases scaled : stored.scaleFor parseDouble options with
  | error thrown => simp [scaled] at applied
  | ok scale =>
    cases accelerated : stored.hardwareAccelerationFor options with
    | error thrown => simp [scaled,accelerated] at applied
    | ok mode =>
      cases launched : stored.launchModeFor reflectProperty options with
      | error thrown => simp [scaled,accelerated,launched] at applied
      | ok launchMode =>
        rw [scaled,accelerated,launched] at applied
        cases applied
        exact ⟨rfl,rfl,rfl,rfl⟩

/-- Without a value to convert nothing can fail. -/
theorem apply_succeeds {parseDouble : String → Option Double} {reflectProperty : Option String}
    {stored : LauncherSettings} {options : OptionSet}
    (unconverted : ∀ option ∈ ["scale","hw-accel","mode","launch-mode"], options.has option = false) :
    ∃ settings, stored.apply parseDouble reflectProperty options = .ok settings := by
  have scaled : stored.scaleFor parseDouble options = .ok stored.scale := by
    simp [LauncherSettings.scaleFor,unconverted "scale" (by decide)]
  have accelerated : stored.hardwareAccelerationFor options = .ok stored.hardwareAccelerationMode := by
    simp [LauncherSettings.hardwareAccelerationFor,unconverted "hw-accel" (by decide),unconverted "mode" (by decide)]
  obtain ⟨mode,launched⟩ : ∃ mode, stored.launchModeFor reflectProperty options = .ok mode := by
    unfold LauncherSettings.launchModeFor
    rw [unconverted "launch-mode" (by decide)]
    split
    · exact ⟨_,rfl⟩
    · exact ⟨_,rfl⟩
  unfold LauncherSettings.apply
  rw [scaled,accelerated,launched]
  exact ⟨_,rfl⟩

/-! ## Hardware acceleration -/

/-- `HardwareAccelerationMode.defaultMode`. -/
def HardwareAccelerationMode.defaultMode : OSType → HardwareAccelerationMode
  | .Windows => .DIRECTDRAW
  | .MacOS => .OPENGL
  | _ => .OFF

/-- `HardwareAccelerationMode.toParams`; a mode the system does not have is an
    `IllegalArgumentException`. -/
def HardwareAccelerationMode.toParams (os : OSType) : HardwareAccelerationMode → Except Thrown (List (String × String))
  | .AUTO => .ok []
  | .DIRECTDRAW =>
    if os = .Windows then .ok [("sun.java2d.d3d","true"),("sun.java2d.opengl","false")] else .error .unchecked
  | .OPENGL =>
    .ok ((if os = .Windows then [("sun.java2d.d3d","false")]
      else if os = .MacOS then [("sun.java2d.metal","false")] else []) ++ [("sun.java2d.opengl","true")])
  | .OFF =>
    if os = .MacOS then .error .unchecked
    else .ok ((if os = .Windows then [("sun.java2d.d3d","false")] else []) ++ [("sun.java2d.opengl","false")])
  | .METAL => if os = .MacOS then .ok [("sun.java2d.metal","true")] else .error .unchecked

end OpenRune.Settings
