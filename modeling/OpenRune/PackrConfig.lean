import OpenRune.Launchers

/-!
# The configuration of the native launcher

`config.json` as a map, the two changes that the launcher makes to it, and
`PackrConfig.patch`, which reads the file, applies a change and writes it back.
-/
namespace OpenRune.PackrConfig
open OpenRune.Java OpenRune.Beans OpenRune.Updates OpenRune.Settings OpenRune.Launchers

/-! ## Values -/

inductive Json
  | null
  | bool (value : Bool)
  | number (value : Double)
  | string (value : String)
  | array (elements : List Json)
  | object (members : List (String × Json))

mutual
/-- What is left of a value in print: members that are null are not printed. -/
def Json.printed : Json → Json
  | .array elements => .array (printedElements elements)
  | .object members => .object (printedMembers members)
  | value => value

def printedElements : List Json → List Json
  | [] => []
  | element :: rest => element.printed :: printedElements rest

def printedMembers : List (String × Json) → List (String × Json)
  | [] => []
  | (_,.null) :: rest => printedMembers rest
  | (key,value) :: rest => (key,value.printed) :: printedMembers rest
end

/-- The `Map` that stands for the file. -/
abbrev Config := AList fun _ : String => Json

/-- The printed value of a key. -/
def printedValue : Option Json → Option Json
  | none => none
  | some .null => none
  | some value => some value.printed

/-! ## Changes -/

abbrev Consumer := Config → Except Thrown Config

def preferIPv4Stack : String := "-Djava.net.preferIPv4Stack=true"

def isPreferIPv4Stack : Json → Bool
  | .string value => value == preferIPv4Stack
  | _ => false

/-- `add` or `remove`; only the first of equal elements is removed. -/
def addOrRemove (ipv4 : Bool) (vmArgs : List Json) : List Json :=
  if ipv4 then vmArgs ++ [.string preferIPv4Stack] else vmArgs.eraseP isPreferIPv4Stack

/-- The change by `ConfigurationFrame.save`. What is no list cannot be cast. -/
def ipv4Consumer (ipv4 : Bool) : Consumer := fun config =>
  match config.lookup "vmArgs" with
  | none => .ok (config.insert "vmArgs" (.array (addOrRemove ipv4 [])))
  | some .null => .ok (config.insert "vmArgs" (.array (addOrRemove ipv4 [])))
  | some (.array vmArgs) => .ok (config.insert "vmArgs" (.array (addOrRemove ipv4 vmArgs)))
  | some _ => .error .unchecked

/-- `PackrConfig.getArgsJvm17` and `PackrConfig.getArgsJvm11`. -/
def getArgsJvm17 (os : OSType) (bootstrap : Bootstrap) : Option (List String) :=
  match os with
  | .Windows => bootstrap.launcherJvm17WindowsArguments <|> bootstrap.launcherJvm17Arguments
  | .MacOS => bootstrap.launcherJvm17MacArguments <|> bootstrap.launcherJvm17Arguments
  | _ => bootstrap.launcherJvm17Arguments

def getArgsJvm11 (os : OSType) (bootstrap : Bootstrap) : Option (List String) :=
  match os with
  | .Windows => bootstrap.launcherJvm11WindowsArguments <|> bootstrap.launcherJvm11Arguments
  | .MacOS => bootstrap.launcherJvm11MacArguments <|> bootstrap.launcherJvm11Arguments
  | _ => bootstrap.launcherJvm11Arguments

/-- `PackrConfig.getVmArgs`. -/
def getVmArgs (host : Host) (bootstrap : Bootstrap) : Except Thrown (Option (List String)) := do
  if ← isJava17 host.javaVersion then return getArgsJvm17 (getOs host.machine) bootstrap
  return getArgsJvm11 (getOs host.machine) bootstrap

/-- `PackrConfig.getEnv`. -/
def getEnv (os : OSType) (bootstrap : Bootstrap) : Option (List (String × Option String)) :=
  match os with
  | .Windows => bootstrap.launcherWindowsEnv
  | .MacOS => bootstrap.launcherMacEnv
  | .Linux => bootstrap.launcherLinuxEnv
  | .Other => none

def envValue : Option (List (String × Option String)) → Json
  | none => .null
  | some env => .object (env.map fun entry => (entry.1,entry.2.elim .null .string))

def vmArgsConsumer (vmArgs : List String) (env : Option (List (String × Option String))) : Consumer := fun config =>
  .ok ((config.insert "vmArgs" (.array (vmArgs.map .string))).insert "env" (envValue env))

/-- The change by `PackrConfig.updateLauncherArgs`; none without arguments. -/
def launcherConsumer (host : Host) (bootstrap : Bootstrap) (settings : LauncherSettings) :
    Except Thrown (Option Consumer) := do
  match ← getVmArgs host bootstrap with
  | none => return none
  | some [] => return none
  | some bootstrapVmArgs =>
    let vmArgs := bootstrapVmArgs ++ if settings.ipv4 then [preferIPv4Stack] else []
    return some (vmArgsConsumer vmArgs (getEnv (getOs host.machine) bootstrap))

/-- Who calls `patch`. -/
inductive Caller
  | updateLauncherArgs (bootstrap : Bootstrap) (settings : LauncherSettings)
  | save (ipv4 : Bool)

def Caller.consumer (host : Host) : Caller → Except Thrown (Option Consumer)
  | .updateLauncherArgs bootstrap settings => launcherConsumer host bootstrap settings
  | .save ipv4 => .ok (some (ipv4Consumer ipv4))

/-- Only two keys are ever changed. -/
theorem consumer_others {host : Host} {caller : Caller} {consumer : Consumer} {config patched : Config} {key : String}
    (calls : caller.consumer host = .ok (some consumer)) (changed : consumer config = .ok patched)
    (notVmArgs : key ≠ "vmArgs") (notEnv : key ≠ "env") : patched.lookup key = config.lookup key := by
  cases caller with
  | updateLauncherArgs bootstrap settings =>
    simp only [Caller.consumer,launcherConsumer] at calls
    cases found : getVmArgs host bootstrap with
    | error thrown => simp [found] at calls
    | ok given =>
      simp only [found,ok_bind] at calls
      split at calls
      · cases calls
      · cases calls
      · cases calls
        cases changed
        rw [AList.lookup_insert_ne notEnv,AList.lookup_insert_ne notVmArgs]
  | save ipv4 =>
    cases calls
    unfold ipv4Consumer at changed
    split at changed <;> cases changed <;> rw [AList.lookup_insert_ne notVmArgs]

/-- What `patch` makes of the map. -/
def patchedConfig (host : Host) (consumer : Consumer) (config : Config) : Config :=
  if getOs host.machine ≠ .Windows ∧ getOs host.machine ≠ .MacOS then config else
  match consumer config with
  | .ok patched => patched
  | .error _ => config

/-! ## The file -/

/-- The two directions of Gson for maps. -/
structure Gson where
  fromJson : String → Except Thrown (Option Config)
  toJson : Config → Except Thrown String

/-- What is printed is read back. -/
def Gson.Faithful (gson : Gson) : Prop :=
  ∀ config text, gson.toJson config = .ok text →
    ∃ read, gson.fromJson text = .ok (some read) ∧ ∀ key, read.lookup key = printedValue (config.lookup key)

/-- What a patch depends on besides the file. A reader without a charset
    decodes with the default one. -/
structure Patcher where
  gson : Gson
  defaultCharset : ByteArray → String
  host : Host

/-- The part of `patch` between reading and writing, on the text of the file;
    none when it ends without writing. -/
def patchText (gson : Gson) (consumer : Consumer) (text : String) : Option String :=
  match gson.fromJson text with
  | .error _ => none
  | .ok none => none
  | .ok (some config) =>
    match consumer config with
    | .error _ => none
    | .ok patched =>
      match gson.toJson patched with
      | .error _ => none
      | .ok written => some written

/-- It is written exactly when reading, changing and printing all succeed. -/
theorem patchText_some {gson : Gson} {consumer : Consumer} {text written : String} :
    patchText gson consumer text = some written ↔ ∃ config patched, gson.fromJson text = .ok (some config) ∧
      consumer config = .ok patched ∧ gson.toJson patched = .ok written := by
  constructor
  · intro texts
    unfold patchText at texts
    cases read : gson.fromJson text with
    | error thrown => simp [read] at texts
    | ok found =>
      cases found with
      | none => simp [read] at texts
      | some config =>
        cases changed : consumer config with
        | error thrown => simp [read,changed] at texts
        | ok patched =>
          cases printed : gson.toJson patched with
          | error thrown => simp [read,changed,printed] at texts
          | ok written' =>
            simp only [read,changed,printed,Option.some.injEq] at texts
            exact ⟨config,patched,rfl,changed,texts ▸ printed⟩
  · rintro ⟨config,patched,read,changed,printed⟩
    simp only [patchText,read,changed,printed]

/-- `PackrConfig.patch` on the file, if there is one, when nothing fails while
    it is replaced. -/
def patch (patcher : Patcher) (canWrite : Bool) (consumer : Consumer) (configFile : Option ByteArray) :
    Option ByteArray :=
  if getOs patcher.host.machine ≠ .Windows ∧ getOs patcher.host.machine ≠ .MacOS then configFile else
  match configFile with
  | none => none
  | some bytes =>
    if !canWrite then some bytes else
    match patchText patcher.gson consumer (patcher.defaultCharset bytes) with
    | none => some bytes
    | some written => some written.toUTF8

/-- The text of the file. -/
def contents (gson : Gson) (configFile : Option ByteArray) : Option Config := do
  let text ← String.fromUTF8? (← configFile)
  match gson.fromJson text with
  | .ok (some config) => some config
  | _ => none

def value (gson : Gson) (configFile : Option ByteArray) (key : String) : Option Json := do
  (← contents gson configFile).lookup key

theorem contents_written {gson : Gson} {text : String} {config : Config} (read : gson.fromJson text = .ok (some config)) :
    contents gson (some text.toUTF8) = some config := by
  have decoded : String.fromUTF8? text.toUTF8 = some text := by
    simp [String.fromUTF8?,String.fromUTF8,text.isValidUTF8]
  change (String.fromUTF8? text.toUTF8).bind _ = _
  rw [decoded]
  simp only [Option.bind_some,read]

/-- On the file a patch does to the values that were read what it does to the
    map. -/
theorem patch_value {patcher : Patcher} (faithful : patcher.gson.Faithful) {consumer : Consumer} {bytes : ByteArray}
    {config patched : Config} {written : String}
    (os : getOs patcher.host.machine = .Windows ∨ getOs patcher.host.machine = .MacOS)
    (read : patcher.gson.fromJson (patcher.defaultCharset bytes) = .ok (some config))
    (changed : consumer config = .ok patched) (printed : patcher.gson.toJson patched = .ok written) (key : String) :
    value patcher.gson (patch patcher true consumer (some bytes)) key =
      printedValue ((patchedConfig patcher.host consumer config).lookup key) := by
  have runs : ¬ (getOs patcher.host.machine ≠ .Windows ∧ getOs patcher.host.machine ≠ .MacOS) := by tauto
  obtain ⟨again,reread,values⟩ := faithful patched written printed
  have text : patch patcher true consumer (some bytes) = some written.toUTF8 := by
    simp only [patch,if_neg runs,patchText_some.mpr ⟨config,patched,read,changed,printed⟩]
    rfl
  rw [text,value,contents_written reread,patchedConfig,if_neg runs,changed]
  exact values key

/-- A process on Windows, with Java 11. -/
def windowsHost : Host := { sampleHost with machine := ⟨some "Windows 10",some "amd64",some "10.0"⟩ }

end OpenRune.PackrConfig
