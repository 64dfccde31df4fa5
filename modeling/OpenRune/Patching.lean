import OpenRune.PackrConfig
import OpenRune.Runs

/-!
# Patching the rest away

What a patch leaves of the keys that it does not change. The file is read in the
default charset and written in UTF-8: a patch keeps the other values exactly
when both readings of the file agree on them.
-/
namespace OpenRune.Patching
open OpenRune.Java OpenRune.Beans OpenRune.Updates OpenRune.Settings OpenRune.Launchers OpenRune.PackrConfig OpenRune.Runs

/-! ## What the native launcher reads -/

def asString : Json → Option String
  | .string value => some value
  | _ => none

def asArray : Json → Option (List Json)
  | .array elements => some elements
  | _ => none

/-- The test for the extension: for a name of three bytes `rfind` fails with
    what the length minus four wraps around to. -/
def isText (classPathURL : String) : Bool :=
  ".txt".toList.isSuffixOf classPathURL.toList || classPathURL.utf8ByteSize == 3

/-- `extractClassPath`, given what the text files list. -/
def extractClassPath (listed : String → List String) (classPath : List String) : List String :=
  classPath.flatMap fun classPathURL => if isText classPathURL then listed classPathURL else [classPathURL]

/-- The main class and the class path of `loadConfiguration`, which otherwise
    ends the process. -/
def loadConfiguration (gson : Gson) (listed : String → List String) (configFile : Option ByteArray) :
    Option (String × List String) := do
  let mainClassName ← asString (← value gson configFile "mainClass")
  let jsonClassPath ← asArray (← value gson configFile "classPath")
  return (mainClassName,extractClassPath listed (← jsonClassPath.mapM asString))

/-! ## Patches -/

/-- A call of `patch`, and whether the file can be written then. -/
structure Call where
  caller : Caller
  canWrite : Bool

def Call.perform (patcher : Patcher) (configFile : Option ByteArray) (call : Call) : Option ByteArray :=
  match call.caller.consumer patcher.host with
  | .ok (some consumer) => patch patcher call.canWrite consumer configFile
  | _ => configFile

/-- The other keys have the values they had, and the native launcher reads the
    same. -/
structure Kept (gson : Gson) (listed : String → List String) (before after : Option ByteArray) : Prop where
  values : ∀ key, key ≠ "vmArgs" → key ≠ "env" → value gson after key = value gson before key
  launched : loadConfiguration gson listed after = loadConfiguration gson listed before

theorem kept_iff {gson : Gson} {listed : String → List String} {before after : Option ByteArray} :
    Kept gson listed before after ↔
      ∀ key, key ≠ "vmArgs" → key ≠ "env" → value gson after key = value gson before key := by
  refine ⟨Kept.values,fun values => ⟨values,?_⟩⟩
  unfold loadConfiguration
  rw [values "mainClass" (by decide) (by decide),values "classPath" (by decide) (by decide)]

/-- A call that has read this map goes on to write it. -/
def Writes (patcher : Patcher) (call : Call) (config : Config) : Prop :=
  (getOs patcher.host.machine = .Windows ∨ getOs patcher.host.machine = .MacOS) ∧ call.canWrite = true ∧
    ∃ consumer patched written, call.caller.consumer patcher.host = .ok (some consumer) ∧
      consumer config = .ok patched ∧ patcher.gson.toJson patched = .ok written

/-- If the call writes, it has read the values that the text of the file has. -/
def ReadsAlike (patcher : Patcher) (configFile : Option ByteArray) (call : Call) : Prop :=
  ∀ bytes config, configFile = some bytes →
    patcher.gson.fromJson (patcher.defaultCharset bytes) = .ok (some config) → Writes patcher call config →
    ∀ key, key ≠ "vmArgs" → key ≠ "env" → printedValue (config.lookup key) = value patcher.gson configFile key

section
variable {patcher : Patcher} {configFile : Option ByteArray} {call : Call}

/-- A call leaves the file alone, or writes what it has read with the change. -/
theorem perform_cases (patcher : Patcher) (configFile : Option ByteArray) (call : Call) :
    (call.perform patcher configFile = configFile ∧ ∀ bytes config, configFile = some bytes →
      patcher.gson.fromJson (patcher.defaultCharset bytes) = .ok (some config) → ¬ Writes patcher call config) ∨
    ∃ bytes config consumer patched written, configFile = some bytes ∧
      patcher.gson.fromJson (patcher.defaultCharset bytes) = .ok (some config) ∧ Writes patcher call config ∧
      call.caller.consumer patcher.host = .ok (some consumer) ∧ consumer config = .ok patched ∧
      patcher.gson.toJson patched = .ok written ∧ call.perform patcher configFile = some written.toUTF8 := by
  by_cases writes : ∃ bytes config, configFile = some bytes ∧
      patcher.gson.fromJson (patcher.defaultCharset bytes) = .ok (some config) ∧ Writes patcher call config
  · obtain ⟨bytes,config,rfl,read,writes⟩ := writes
    have ⟨os,canWrite,consumer,patched,written,calls,changed,printed⟩ := writes
    refine .inr ⟨bytes,config,consumer,patched,written,rfl,read,writes,calls,changed,printed,?_⟩
    have runs : ¬ (getOs patcher.host.machine ≠ .Windows ∧ getOs patcher.host.machine ≠ .MacOS) := by
      rcases os with windows | mac
      · simp [windows]
      · simp [mac]
    have text := patchText_some.mpr ⟨config,patched,read,changed,printed⟩
    simp only [Call.perform,calls,patch,if_neg runs,canWrite,text]
    rfl
  · refine .inl ⟨?_,fun bytes config here read written => writes ⟨bytes,config,here,read,written⟩⟩
    unfold Call.perform
    split
    case h_2 => rfl
    next consumer calls =>
      unfold patch
      by_cases runs : getOs patcher.host.machine ≠ .Windows ∧ getOs patcher.host.machine ≠ .MacOS
      · rw [if_pos runs]
      rw [if_neg runs]
      cases configFile with
      | none => rfl
      | some bytes =>
        cases canWrite : call.canWrite with
        | false => rfl
        | true =>
          have silent : patchText patcher.gson consumer (patcher.defaultCharset bytes) = none := by
            by_contra speaks
            obtain ⟨written,text⟩ := Option.ne_none_iff_exists'.mp speaks
            obtain ⟨config,patched,read,changed,printed⟩ := patchText_some.mp text
            have os : getOs patcher.host.machine = .Windows ∨ getOs patcher.host.machine = .MacOS := by tauto
            exact writes ⟨bytes,config,rfl,read,os,canWrite,consumer,patched,written,calls,changed,printed⟩
          simp only [Bool.not_true,Bool.false_eq_true,if_false,silent]

/-- One call keeps the other values exactly when it reads them right. -/
theorem perform_kept {listed : String → List String} {before : Option ByteArray} (faithful : patcher.gson.Faithful)
    (kept : Kept patcher.gson listed before configFile) :
    Kept patcher.gson listed before (call.perform patcher configFile) ↔ ReadsAlike patcher configFile call := by
  rcases perform_cases patcher configFile call with ⟨same,silent⟩ |
    ⟨bytes,config,consumer,patched,written,here,read,writes,calls,changed,printed,performed⟩
  · rw [same]
    exact iff_of_true kept fun bytes config here read writes => absurd writes (silent bytes config here read)
  · obtain ⟨again,reread,values⟩ := faithful patched written printed
    have after (key : String) (notVmArgs : key ≠ "vmArgs") (notEnv : key ≠ "env") :
        value patcher.gson (call.perform patcher configFile) key = printedValue (config.lookup key) := by
      rw [performed,value,contents_written reread,← consumer_others calls changed notVmArgs notEnv]
      exact values key
    rw [kept_iff]
    constructor
    · intro same bytes' config' here' read' _ key notVmArgs notEnv
      rw [here] at here'
      cases here'
      rw [read] at read'
      cases read'
      rw [← after key notVmArgs notEnv,same key notVmArgs notEnv,kept.values key notVmArgs notEnv]
    · intro alike key notVmArgs notEnv
      rw [after key notVmArgs notEnv,alike bytes config here read writes key notVmArgs notEnv,
        kept.values key notVmArgs notEnv]

end

/-- With UTF-8 as the default charset nothing is lost. -/
theorem utf8_kept {patcher : Patcher} {listed : String → List String} {text : String} {calls : List Call}
    (faithful : patcher.gson.Faithful) (utf8 : ∀ text : String, patcher.defaultCharset text.toUTF8 = text)
    (plain : ∀ key, key ≠ "vmArgs" → key ≠ "env" →
      printedValue (value patcher.gson (some text.toUTF8) key) = value patcher.gson (some text.toUTF8) key) :
    Always (Call.perform patcher) (Kept patcher.gson listed (some text.toUTF8)) (some text.toUTF8) calls := by
  let Good : Option ByteArray → Prop := fun now =>
    Kept patcher.gson listed (some text.toUTF8) now ∧ ∃ text : String, now = some text.toUTF8
  suffices preserved : ∀ now call, Good now → (Good (Call.perform patcher now call) ↔ True) by
    have good : Always (Call.perform patcher) Good (some text.toUTF8) calls :=
      (always_iff preserved ⟨⟨fun _ _ _ => rfl,rfl⟩,text,rfl⟩).mpr fun _ _ _ => trivial
    exact fun before taken => (good before taken).1
  rintro now call ⟨kept,nowText,rfl⟩
  refine iff_of_true ⟨(perform_kept faithful kept).mpr ?_,?_⟩ trivial
  · intro bytes config here read _ key notVmArgs notEnv
    cases here
    rw [utf8] at read
    have same := kept.values key notVmArgs notEnv
    have stands : value patcher.gson (some nowText.toUTF8) key = config.lookup key := by
      rw [value,contents_written read]
      rfl
    rw [← stands,same]
    exact plain key notVmArgs notEnv
  · rcases perform_cases patcher (some nowText.toUTF8) call with ⟨same,_⟩ | ⟨_,_,_,_,written,_,_,_,_,_,_,performed⟩
    · exact ⟨nowText,same⟩
    · exact ⟨written,performed⟩

/-- Any number of calls leaves the rest of the configuration alone, at every
    moment, exactly when each of them reads the rest as it is written. -/
theorem rest_kept {patcher : Patcher} (faithful : patcher.gson.Faithful) (listed : String → List String)
    (configFile : Option ByteArray) (calls : List Call) :
    Always (Call.perform patcher) (Kept patcher.gson listed configFile) configFile calls ↔
      Throughout (Call.perform patcher) (ReadsAlike patcher) configFile calls :=
  always_iff (fun _ _ kept => perform_kept faithful kept) ⟨fun _ _ _ => rfl,rfl⟩

/-! ## A class path that is garbled -/

private def original : Config :=
  (AList.insert "mainClass" (.string "M") ∅).insert "classPath" (.array [.string "\u00e9.jar"])

/-- What ISO-8859-1 makes of the two bytes of the letter. -/
private def misread : Config :=
  (AList.insert "mainClass" (.string "M") ∅).insert "classPath" (.array [.string "\u00c3\u00a9.jar"])

private def patched : Config := misread.insert "vmArgs" (.array [.string preferIPv4Stack])

private def originalText : String := "\x7b\"mainClass\":\"M\",\"classPath\":[\"\u00e9.jar\"]\x7d"

private def misreadText : String := "\x7b\"mainClass\":\"M\",\"classPath\":[\"\u00c3\u00a9.jar\"]\x7d"

/-- What is printed escapes the equals sign. -/
private def patchedText : String :=
  "\x7b\n  \"mainClass\": \"M\",\n  \"classPath\": [\n    \"\u00c3\u00a9.jar\"\n  ],\n  \"vmArgs\": [\n" ++
    "    \"-Djava.net.preferIPv4Stack\\u003dtrue\"\n  ]\n\x7d"

open Classical in
private noncomputable def sampleGson : Gson where
  fromJson text :=
    if text = originalText then .ok (some original)
    else if text = misreadText then .ok (some misread)
    else if text = patchedText then .ok (some patched)
    else .error .unchecked
  toJson config := if config = patched then .ok patchedText else .error .unchecked

/-- A Windows machine whose default charset is ISO-8859-1. -/
private noncomputable def latin1 : Patcher where
  gson := sampleGson
  defaultCharset bytes := String.ofList (bytes.data.toList.map fun byte => Char.ofNat byte.toNat)
  host := windowsHost

private theorem patched_printed (key : String) : patched.lookup key = printedValue (patched.lookup key) := by
  unfold patched misread
  by_cases vmArgs : key = "vmArgs"
  · rw [vmArgs,AList.lookup_insert]
    rfl
  · rw [AList.lookup_insert_ne vmArgs]
    by_cases classPath : key = "classPath"
    · rw [classPath,AList.lookup_insert]
      rfl
    · rw [AList.lookup_insert_ne classPath]
      by_cases mainClass : key = "mainClass"
      · rw [mainClass,AList.lookup_insert]
        rfl
      · rw [AList.lookup_insert_ne mainClass]
        rfl

private theorem sampleGson_faithful : latin1.gson.Faithful := by
  intro config text printed
  simp only [latin1,sampleGson] at printed
  split_ifs at printed with same
  cases printed
  have apart : patchedText ≠ originalText ∧ patchedText ≠ misreadText := by decide
  refine ⟨patched,?_,fun key => ?_⟩
  · simp [latin1,sampleGson,apart]
  · rw [same]
    exact patched_printed key

theorem rest_kept_sample :
    Always (Call.perform latin1) (Kept latin1.gson (fun _ => []) (some originalText.toUTF8))
        (some originalText.toUTF8) [⟨.save true,true⟩] ↔
      Throughout (Call.perform latin1) (ReadsAlike latin1) (some originalText.toUTF8) [⟨.save true,true⟩] :=
  rest_kept sampleGson_faithful (fun _ => []) _ _

private theorem patch_garbles :
    Call.perform latin1 (some originalText.toUTF8) ⟨.save true,true⟩ = some patchedText.toUTF8 := by
  have decoded : latin1.defaultCharset originalText.toUTF8 = misreadText := by decide
  have read : sampleGson.fromJson misreadText = .ok (some misread) := by
    have apart : misreadText ≠ originalText := by decide
    simp [sampleGson,apart]
  have changed : ipv4Consumer true misread = .ok patched := rfl
  have printed : sampleGson.toJson patched = .ok patchedText := by simp [sampleGson]
  have windows : getOs latin1.host.machine = .Windows := by decide
  simp only [Call.perform,Caller.consumer,patch,windows,patchText,decoded]
  rw [show latin1.gson = sampleGson from rfl,read]
  simp only [changed,printed]
  rfl

/-- A patch that adds the flag turns the letter of the class path into two. -/
theorem class_path_garbled :
    latin1.gson.Faithful ∧
      loadConfiguration sampleGson (fun _ => []) (some originalText.toUTF8) = some ("M",["\u00e9.jar"]) ∧
      loadConfiguration sampleGson (fun _ => []) (Call.perform latin1 (some originalText.toUTF8) ⟨.save true,true⟩) =
        some ("M",["\u00c3\u00a9.jar"]) := by
  have apart : patchedText ≠ originalText ∧ patchedText ≠ misreadText := by decide
  have before : contents sampleGson (some originalText.toUTF8) = some original :=
    contents_written (by simp [sampleGson])
  have after : contents sampleGson (some patchedText.toUTF8) = some patched :=
    contents_written (by simp [sampleGson,apart])
  refine ⟨sampleGson_faithful,?_,?_⟩
  · simp only [loadConfiguration,value,before]
    rfl
  · rw [patch_garbles]
    simp only [loadConfiguration,value,after]
    rfl

end OpenRune.Patching
