import OpenRune.PackrConfig
import OpenRune.Startup

/-!
# The settings file

`LauncherSettings.loadSettings`. Gson reads the members of the file one after
the other into new settings, and a member that is null, or that names a constant
which this version does not have, leaves a null where the settings had a default.
It stops at the first text that it refuses, and not every refusal is caught.
-/
namespace OpenRune.LoadedSettings
open OpenRune.Java OpenRune.Updates OpenRune.Settings OpenRune.Launchers OpenRune.PackrConfig OpenRune.Startup

/-! ## Reading -/

/-- How the reader refuses: with a `JsonParseException`, or with the
    `NumberFormatException` of a text that is no double, or of an escape without its
    four digits. -/
inductive Refusal
  | jsonParse
  | numberFormat
  deriving DecidableEq, Repr

/-- The conversions of Gson's reader; `none` is a value that they refuse.
    `nullElement` stands for a null in a list of strings. -/
structure Gson where
  nextLong : Json → Option Int
  nextInt : Json → Option Int
  nextBoolean : Json → Option Bool
  parseDouble : String → Option Double
  nextString : Json → Option String
  nullElement : String

/-- The value of a member where the text breaks off: a mistake or the end of the
    file, a string with an escape that is none, or what is within a list or an object
    after what could be read of it. -/
inductive Broken
  | malformed
  | escape
  | array (elements : List Json) (rest : Broken)
  | object (members : List (String × Json)) (rest : Broken)

/-- A field: a value that was read, as the change it makes to the settings, and what
    becomes of a broken one. -/
structure Reader where
  value : Json → Except Refusal (LauncherSettings → LauncherSettings)
  broken : Broken → Refusal

/-- A conversion that refuses with a `JsonParseException`. -/
def parsed {α : Type} (next : Json → Option α) (value : Json) : Except Refusal α :=
  match next value with
  | some result => .ok result
  | none => .error .jsonParse

/-- A text is read up to its end before it is converted. -/
def Broken.text : Broken → Refusal
  | .escape => .numberFormat
  | _ => .jsonParse

/-- The adapters of `long` and `int` catch a `NumberFormatException`. -/
def Broken.number (_ : Broken) : Refusal := .jsonParse

/-- A null is not stored in a primitive field. -/
def primitive {α : Type} (next : Json → Option α) (broken : Broken → Refusal)
    (set : α → LauncherSettings → LauncherSettings) : Reader where
  value
    | .null => .ok id
    | value => (parsed next value).map set
  broken := broken

def stored {α : Type} (read : Json → Except Refusal α) (broken : Broken → Refusal)
    (set : α → LauncherSettings → LauncherSettings) : Reader where
  value value := (read value).map set
  broken := broken

def nullable {α : Type} (next : Json → Except Refusal α) : Json → Except Refusal (Option α)
  | .null => .ok none
  | value => (next value).map some

/-- The adapter of `double` catches nothing. -/
def nextDouble (gson : Gson) : Json → Except Refusal Double
  | .number value => .ok value
  | .string text =>
    match gson.parseDouble text with
    | some value => .ok value
    | none => .error .numberFormat
  | _ => .error .jsonParse

def element (gson : Gson) : Json → Except Refusal String
  | .null => .ok gson.nullElement
  | value => parsed gson.nextString value

def nextStrings (gson : Gson) : Json → Except Refusal (List String)
  | .array elements => elements.mapM (element gson)
  | _ => .error .jsonParse

def Broken.strings (gson : Gson) : Broken → Refusal
  | .array elements rest =>
    match elements.mapM (element gson) with
    | .ok _ => rest.text
    | .error refusal => refusal
  | _ => .jsonParse

/-- The text of a number is the name of no constant, and what is no text cannot be read. -/
def constant {α : Type} (valueOf : String → Option α) : Json → Except Refusal (Option α)
  | .null => .ok none
  | .string name => .ok (valueOf name)
  | .number _ => .ok none
  | _ => .error .jsonParse

/-- The fields of `LauncherSettings` under their names. -/
def fields (gson : Gson) : List (String × Reader) :=
  [("lastUpdateAttemptTime",primitive gson.nextLong Broken.number fun value settings =>
      { settings with lastUpdateAttemptTime := value }),
    ("lastUpdateHash",stored (nullable (parsed gson.nextString)) Broken.text fun value settings =>
      { settings with lastUpdateHash := value }),
    ("lastUpdateAttemptNum",primitive gson.nextInt Broken.number fun value settings =>
      { settings with lastUpdateAttemptNum := value }),
    ("debug",primitive gson.nextBoolean Broken.text fun value settings => { settings with debug := value }),
    ("nodiffs",primitive gson.nextBoolean Broken.text fun value settings => { settings with nodiffs := value }),
    ("skipTlsVerification",primitive gson.nextBoolean Broken.text fun value settings =>
      { settings with skipTlsVerification := value }),
    ("noupdates",primitive gson.nextBoolean Broken.text fun value settings => { settings with noupdates := value }),
    ("safemode",primitive gson.nextBoolean Broken.text fun value settings => { settings with safemode := value }),
    ("ipv4",primitive gson.nextBoolean Broken.text fun value settings => { settings with ipv4 := value }),
    ("scale",stored (nullable (nextDouble gson)) Broken.text fun value settings => { settings with scale := value }),
    ("clientArguments",stored (nullable (nextStrings gson)) (Broken.strings gson) fun value settings =>
      { settings with clientArguments := value }),
    ("jvmArguments",stored (nullable (nextStrings gson)) (Broken.strings gson) fun value settings =>
      { settings with jvmArguments := value }),
    ("hardwareAccelerationMode",stored (constant HardwareAccelerationMode.valueOf) Broken.text fun value settings =>
      { settings with hardwareAccelerationMode := value }),
    ("launchMode",stored (constant LaunchMode.valueOf) Broken.text fun value settings =>
      { settings with launchMode := value })]

/-- A member under another name is skipped. -/
def readMember (gson : Gson) (settings : LauncherSettings) (member : String × Json) : Except Refusal LauncherSettings :=
  match (fields gson).lookup member.1 with
  | none => .ok settings
  | some read => (read.value member.2).map fun set => set settings

/-- `JsonReader.skipValue`, which looks at the escapes of every string. -/
def Broken.skipped : Broken → Refusal
  | .malformed => .jsonParse
  | .escape => .numberFormat
  | .array _ rest => rest.skipped
  | .object _ rest => rest.skipped

/-- Where the text of an object breaks off: between its members or after it, at a name
    with an escape that is none, or in the value of a member. -/
inductive Ending
  | malformed
  | escape
  | member (name : String) (value : Broken)

def Ending.refusal (gson : Gson) : Ending → Refusal
  | .malformed => .jsonParse
  | .escape => .numberFormat
  | .member name value =>
    match (fields gson).lookup name with
    | none => value.skipped
    | some read => read.broken value

/-- `Gson.fromJson`. -/
def fromJson (gson : Gson) : Json → Except Refusal (Option LauncherSettings)
  | .null => .ok none
  | .object members => (members.foldlM (readMember gson) {}).map some
  | _ => .error .jsonParse

/-- `Gson.fromJson` of an object that breaks off. -/
def fromBroken (gson : Gson) (members : List (String × Json)) (ending : Ending) :
    Except Refusal (Option LauncherSettings) := do
  let _ ← members.foldlM (readMember gson) {}
  .error (ending.refusal gson)

/-- What is found at `settings.json`. -/
inductive SettingsFile
  | missing
  | unreadable
  | empty
  | malformed
  | document (value : Json)
  | broken (members : List (String × Json)) (ending : Ending)

/-- The `catch` of `loadSettings` takes a `JsonParseException`, and no `NumberFormatException`. -/
def caught : Except Refusal (Option LauncherSettings) → Except Thrown LauncherSettings
  | .ok settings => .ok (settings.getD {})
  | .error .jsonParse => .ok {}
  | .error .numberFormat => .error .unchecked

/-- `LauncherSettings.loadSettings`. -/
def loadSettings (gson : Gson) : SettingsFile → Except Thrown LauncherSettings
  | .missing => .ok {}
  | .unreadable => .ok {}
  | .empty => caught (.ok none)
  | .malformed => caught (.error .jsonParse)
  | .document value => caught (fromJson gson value)
  | .broken members ending => caught (fromBroken gson members ending)

/-! ## The last member of a name -/

def lastMember (members : List (String × Json)) (name : String) : Option Json := members.reverse.lookup name

section
variable {gson : Gson}

/-- What is read for a field leaves another part of the settings as it was. -/
def Keeps {α : Type} (get : LauncherSettings → α) (read : Reader) : Prop :=
  ∀ value set, read.value value = .ok set → ∀ settings, get (set settings) = get settings

end

/-! ## Settings that can be used -/

/-- The mode that `Launcher.main` selects before it asks for its properties. -/
def hardwareAccelMode (os : OSType) (settings : LauncherSettings) : Except Thrown HardwareAccelerationMode := do
  let stored ← deref settings.hardwareAccelerationMode
  return if stored = .AUTO then HardwareAccelerationMode.defaultMode os else stored

/-- What `loadSettings` promises the rest of the launcher. -/
structure Usable (host : Host) (settings : LauncherSettings) : Prop where
  clientArguments : settings.clientArguments ≠ none
  jvmArguments : settings.jvmArguments ≠ none
  hardwareAccelerationMode : settings.hardwareAccelerationMode ≠ none
  launchMode : settings.launchMode ≠ none
  getClientArgs : ∃ args, getClientArgs host settings = .ok args
  getJvmArgs : ∃ args, getJvmArgs host settings = .ok args
  configurationStr : configurationStr settings = .ok ()
  selects : ∃ mode, hardwareAccelMode (getOs host.machine) settings = .ok mode

/-- Every member of a field can be converted. -/
def Readable (gson : Gson) (members : List (String × Json)) : Prop :=
  ∀ member ∈ members, ∀ read, (fields gson).lookup member.1 = some read → ∃ change, read.value member.2 = .ok change

/-- A null argument list or mode stops whoever uses it. -/
theorem usable_iff {host : Host} {settings : LauncherSettings} : Usable host settings ↔
    settings.clientArguments ≠ none ∧ settings.jvmArguments ≠ none ∧ settings.hardwareAccelerationMode ≠ none ∧
      settings.launchMode ≠ none := by
  constructor
  · intro usable
    exact ⟨usable.clientArguments,usable.jvmArguments,usable.hardwareAccelerationMode,usable.launchMode⟩
  · rintro ⟨client,jvm,accelerated,launched⟩
    obtain ⟨clientArguments,clientKnown⟩ := Option.ne_none_iff_exists'.mp client
    obtain ⟨jvmArguments,jvmKnown⟩ := Option.ne_none_iff_exists'.mp jvm
    obtain ⟨mode,modeKnown⟩ := Option.ne_none_iff_exists'.mp accelerated
    refine ⟨client,jvm,accelerated,launched,?_,?_,?_,?_⟩
    · exact ⟨_,by rw [Launchers.getClientArgs,clientKnown]; rfl⟩
    · exact ⟨_,by rw [Launchers.getJvmArgs,jvmKnown]; rfl⟩
    · rw [Startup.configurationStr,clientKnown,jvmKnown]
      rfl
    · exact ⟨_,by rw [hardwareAccelMode,modeKnown]; rfl⟩

/-- The properties of the client are those of the selected mode. -/
theorem jvmProperties_iff {library : Library} {host : Host} {settings : LauncherSettings} :
    (∃ props, jvmProperties library host settings = .ok props) ↔
      ∃ mode params, hardwareAccelMode (getOs host.machine) settings = .ok mode ∧
        mode.toParams (getOs host.machine) = .ok params := by
  unfold jvmProperties hardwareAccelMode
  cases settings.hardwareAccelerationMode with
  | none => simp
  | some stored =>
    simp only [deref_some,ok_bind,pure_ok,Except.ok.injEq]
    cases selected : (if stored = .AUTO then HardwareAccelerationMode.defaultMode (getOs host.machine)
        else stored).toParams (getOs host.machine) with
    | error thrown => simp [selected]
    | ok params => simp [selected]

section
variable {gson : Gson} {members : List (String × Json)} {settings : LauncherSettings}

end

section
variable {gson : Gson} {host : Host} {members : List (String × Json)}

end

def HardwareAccelerationMode.name : HardwareAccelerationMode → String
  | .AUTO => "AUTO"
  | .OFF => "OFF"
  | .DIRECTDRAW => "DIRECTDRAW"
  | .OPENGL => "OPENGL"
  | .METAL => "METAL"

def LaunchMode.name : LaunchMode → String
  | .AUTO => "AUTO"
  | .JVM => "JVM"
  | .FORK => "FORK"
  | .REFLECT => "REFLECT"

/-- A member that is null is not written. -/
def written (name : String) (value : Option Json) : List (String × Json) := (value.map fun value => (name,value)).toList

def strings (arguments : List String) : Json := .array (arguments.map .string)

/-- What Gson makes of settings whose scale is a number. -/
def toJson (settings : LauncherSettings) : List (String × Json) :=
  [("lastUpdateAttemptTime",.number (.finite settings.lastUpdateAttemptTime))] ++
    written "lastUpdateHash" (settings.lastUpdateHash.map .string) ++
    [("lastUpdateAttemptNum",.number (.finite settings.lastUpdateAttemptNum)),("debug",.bool settings.debug),
      ("nodiffs",.bool settings.nodiffs),("skipTlsVerification",.bool settings.skipTlsVerification),
      ("noupdates",.bool settings.noupdates),("safemode",.bool settings.safemode),("ipv4",.bool settings.ipv4)] ++
    written "scale" (settings.scale.map .number) ++
    written "clientArguments" (settings.clientArguments.map strings) ++
    written "jvmArguments" (settings.jvmArguments.map strings) ++
    written "hardwareAccelerationMode"
      (settings.hardwareAccelerationMode.map fun mode => .string (HardwareAccelerationMode.name mode)) ++
    written "launchMode" (settings.launchMode.map fun mode => .string (LaunchMode.name mode))

/-- What is printed can be converted back. -/
structure Converts (gson : Gson) (settings : LauncherSettings) : Prop where
  long : gson.nextLong (.number (.finite settings.lastUpdateAttemptTime)) = some settings.lastUpdateAttemptTime
  int : gson.nextInt (.number (.finite settings.lastUpdateAttemptNum)) = some settings.lastUpdateAttemptNum
  boolean : ∀ value, gson.nextBoolean (.bool value) = some value
  string : ∀ value, gson.nextString (.string value) = some value

theorem nextStrings_strings {gson : Gson} (string : ∀ value, gson.nextString (.string value) = some value)
    (arguments : List String) : nextStrings gson (strings arguments) = .ok arguments := by
  change (arguments.map Json.string).mapM (element gson) = .ok arguments
  induction arguments with
  | nil => rfl
  | cons argument rest ih =>
    rw [List.map_cons,List.mapM_cons,ih,element,parsed,string]
    · rfl
    · nofun

theorem valueOf_name (mode : HardwareAccelerationMode) :
    HardwareAccelerationMode.valueOf (HardwareAccelerationMode.name mode) = some mode := by cases mode <;> rfl

theorem valueOf_launchName (mode : LaunchMode) : LaunchMode.valueOf (LaunchMode.name mode) = some mode := by
  cases mode <;> rfl

/-- Reading a member that may not have been written. -/
theorem read_written {gson : Gson} {α : Type} {name : String} {read : Json → Except Refusal (Option α)}
    {broken : Broken → Refusal} {set : Option α → LauncherSettings → LauncherSettings}
    {get : LauncherSettings → Option α} {print : α → Json}
    (found : (fields gson).lookup name = some (stored read broken set))
    (prints : ∀ value, read (print value) = .ok (some value))
    (kept : ∀ settings, set (get settings) settings = settings) (value : Option α) (settings : LauncherSettings) :
    (written name (value.map print)).foldlM (readMember gson) settings = .ok (set (value.or (get settings)) settings) := by
  cases value with
  | none => simp [written,kept]
  | some value => simp [written,readMember,found,stored,prints,Except.map]

theorem read_primitive {gson : Gson} {α : Type} {name : String} {next : Json → Option α} {broken : Broken → Refusal}
    {set : α → LauncherSettings → LauncherSettings} {json : Json} {value : α}
    (found : (fields gson).lookup name = some (primitive next broken set))
    (converts : next json = some value) (nonnull : json ≠ .null) (settings : LauncherSettings) :
    readMember gson settings (name,json) = .ok (set value settings) := by
  have changes : (primitive next broken set).value json = .ok (set value) := by
    simp only [primitive]
    rw [parsed,converts]
    rfl
  simp [readMember,found,changes,Except.map]

/-- What is loaded after a save is what was saved, with the defaults in place of nulls. -/
theorem loadSettings_saved {gson : Gson} {settings : LauncherSettings} (converts : Converts gson settings) :
    loadSettings gson (.document (.object (toJson settings))) = .ok settings.reloaded := by
  have string (value : String) : nullable (parsed gson.nextString) (.string value) = .ok (some value) := by
    rw [nullable,parsed,converts.string]
    · rfl
    · nofun
  have list (value : List String) : nullable (nextStrings gson) (strings value) = .ok (some value) := by
    rw [nullable,nextStrings_strings converts.string]
    · rfl
    · nofun
  have hash := @read_written gson _ "lastUpdateHash" _ _ _ LauncherSettings.lastUpdateHash Json.string rfl string
    (fun _ => rfl)
  have scale := @read_written gson _ "scale" _ _ _ LauncherSettings.scale Json.number rfl (fun _ => rfl) (fun _ => rfl)
  have client := @read_written gson _ "clientArguments" _ _ _ LauncherSettings.clientArguments strings rfl list
    (fun _ => rfl)
  have jvm := @read_written gson _ "jvmArguments" _ _ _ LauncherSettings.jvmArguments strings rfl list (fun _ => rfl)
  have accelerated := @read_written gson _ "hardwareAccelerationMode" _ _ _ LauncherSettings.hardwareAccelerationMode
    (fun mode => .string (HardwareAccelerationMode.name mode)) rfl
    (fun mode => congrArg Except.ok (valueOf_name mode)) (fun _ => rfl)
  have launched := @read_written gson _ "launchMode" _ _ _ LauncherSettings.launchMode
    (fun mode => .string (LaunchMode.name mode)) rfl (fun mode => congrArg Except.ok (valueOf_launchName mode))
    (fun _ => rfl)
  have time := @read_primitive gson _ "lastUpdateAttemptTime" _ _ _ _ _ rfl converts.long nofun
  have count := @read_primitive gson _ "lastUpdateAttemptNum" _ _ _ _ _ rfl converts.int nofun
  have debug := @read_primitive gson _ "debug" _ _ _ _ _ rfl (converts.boolean settings.debug) nofun
  have nodiffs := @read_primitive gson _ "nodiffs" _ _ _ _ _ rfl (converts.boolean settings.nodiffs) nofun
  have insecure := @read_primitive gson _ "skipTlsVerification" _ _ _ _ _ rfl
    (converts.boolean settings.skipTlsVerification) nofun
  have noupdates := @read_primitive gson _ "noupdates" _ _ _ _ _ rfl (converts.boolean settings.noupdates) nofun
  have safemode := @read_primitive gson _ "safemode" _ _ _ _ _ rfl (converts.boolean settings.safemode) nofun
  have ipv4 := @read_primitive gson _ "ipv4" _ _ _ _ _ rfl (converts.boolean settings.ipv4) nofun
  have folded : (toJson settings).foldlM (readMember gson) {} = .ok settings.reloaded := by
    simp only [toJson,List.foldlM_append,List.foldlM_cons,List.foldlM_nil,hash,scale,client,jvm,accelerated,launched,
      time,count,debug,nodiffs,insecure,noupdates,safemode,ipv4,pure_ok,ok_bind,Option.or_none,Except.ok.injEq,
      LauncherSettings.reloaded]
    cases settings.clientArguments <;> cases settings.jvmArguments <;> cases settings.hardwareAccelerationMode <;>
      cases settings.launchMode <;> rfl
  simp [loadSettings,fromJson,folded,Except.map,caught]

end OpenRune.LoadedSettings
