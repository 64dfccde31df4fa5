import OpenRune.PackrConfig
import OpenRune.Runs

/-!
# The configuration window

`ConfigurationFrame.save` stores the choices of the window in the settings and
adds or removes the IPv4 flag in the list of arguments of the virtual machine,
which every launch builds anew. The flag follows the setting as long as it is
never listed twice when it is taken away.
-/
namespace OpenRune.ConfigurationFrame
open OpenRune.Java OpenRune.Beans OpenRune.Updates OpenRune.Settings OpenRune.Launchers OpenRune.PackrConfig OpenRune.Runs

/-- What is chosen and written in the window. -/
structure Frame where
  chkboxDebug : Bool := false
  chkboxNoDiffs : Bool := false
  chkboxSkipTlsVerification : Bool := false
  chkboxNoUpdates : Bool := false
  chkboxSafemode : Bool := false
  chkboxIpv4 : Bool := false
  txtScale : String := ""
  txtClientArguments : String := ""
  txtJvmArguments : String := ""
  comboHardwareAccelMode : Option HardwareAccelerationMode := some .AUTO
  comboLaunchMode : Option LaunchMode := some .AUTO

/-- `Splitter.on('\\n').omitEmptyStrings().trimResults()`. -/
def splitLines (text : String) : List String :=
  (((text.toList.splitOn '\n').map Launchers.trim).filter fun line => !line.isEmpty).map String.ofList

/-- What `ConfigurationFrame.save` does to the settings. -/
def Frame.choose (parseDouble : String → Option Double) (frame : Frame) (settings : LauncherSettings) :
    LauncherSettings :=
  { settings with
    debug := frame.chkboxDebug
    nodiffs := frame.chkboxNoDiffs
    skipTlsVerification := frame.chkboxSkipTlsVerification
    noupdates := frame.chkboxNoUpdates
    safemode := frame.chkboxSafemode
    ipv4 := frame.chkboxIpv4
    scale := if frame.txtScale = "" then none else parseDouble frame.txtScale
    clientArguments := some (splitLines frame.txtClientArguments)
    jvmArguments := some (splitLines frame.txtJvmArguments)
    hardwareAccelerationMode := frame.comboHardwareAccelMode
    launchMode := frame.comboLaunchMode }

def isFinite : Double → Bool
  | .finite _ => true
  | _ => false

/-- `ConfigurationFrame.save` up to the file: what is read of it afterwards.
    Gson writes no double that JSON has no number for. -/
def save (parseDouble : String → Option Double) (frame : Frame) (settings : LauncherSettings) :
    Except Thrown LauncherSettings :=
  let chosen := frame.choose parseDouble settings
  if chosen.scale.all isFinite then .ok chosen.reloaded else .error .unchecked

/-! ## The flag and the setting -/

/-- A bootstrap with arguments for the launcher, the flag not among them. -/
structure Provided (host : Host) where
  bootstrap : Bootstrap
  args : List String
  given : getVmArgs host bootstrap = .ok (some args)
  nonempty : args ≠ []
  plain : preferIPv4Stack ∉ args

/-- What happens to the two files. A launch loads the settings and later puts
    its list of arguments into the configuration. -/
inductive Action (host : Host)
  | save (frame : Frame)
  | load (launch : Nat) (options : OptionSet)
  | updateLauncherArgs (launch : Nat) (provided : Provided host)

/-- The stored settings, the configuration, and what each launch has loaded. -/
structure State where
  settings : LauncherSettings
  config : Config
  loaded : Nat → Option LauncherSettings

section
variable (parseDouble : String → Option Double) (host : Host)

/-- Settings that are refused are not stored, and the configuration is not reached. -/
def step (s : State) : Action host → State
  | .save frame =>
    match save parseDouble frame s.settings with
    | .ok settings => { s with settings := settings, config := patchedConfig host (ipv4Consumer settings.ipv4) s.config }
    | .error _ => s
  | .load launch options =>
    match s.settings.apply parseDouble host.reflect options with
    | .ok settings => { s with loaded := Function.update s.loaded launch (some settings) }
    | .error _ => s
  | .updateLauncherArgs launch provided =>
    match s.loaded launch with
    | none => s
    | some settings =>
      match launcherConsumer host provided.bootstrap settings with
      | .ok (some consumer) => { s with config := patchedConfig host consumer s.config }
      | _ => s

end

/-- The elements of `vmArgs`; a missing list is an empty one. -/
def vmArgs (config : Config) : Option (List Json) :=
  match config.lookup "vmArgs" with
  | none => some []
  | some .null => some []
  | some (.array elements) => some elements
  | some _ => none

def flags (config : Config) : Nat := ((vmArgs config).getD []).countP isPreferIPv4Stack

/-- The flag is listed if and only if it was chosen last. -/
def Follows (s : State) : Prop := 0 < flags s.config ↔ s.settings.ipv4 = true

/-- A scale that can be stored. -/
def Storable (parseDouble : String → Option Double) (frame : Frame) (settings : LauncherSettings) : Prop :=
  (frame.choose parseDouble settings).scale.all isFinite = true

/-- When settings are stored, a list can take the flag, and taking it away leaves
    none; a launch has loaded the choice that is stored. -/
def Meets (parseDouble : String → Option Double) (host : Host) (s : State) : Action host → Prop
  | .save frame =>
    Storable parseDouble frame s.settings → if frame.chkboxIpv4 then vmArgs s.config ≠ none else flags s.config ≤ 1
  | .load _ _ => True
  | .updateLauncherArgs launch _ =>
    ∀ settings, s.loaded launch = some settings → settings.ipv4 = s.settings.ipv4

section
variable {host : Host} (os : getOs host.machine = .Windows ∨ getOs host.machine = .MacOS)
include os

end

private def fresh : State := ⟨{},AList.insert "vmArgs" (.array []) ∅,fun _ => none⟩

end OpenRune.ConfigurationFrame
