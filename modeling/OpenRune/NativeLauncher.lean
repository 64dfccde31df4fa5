import OpenRune.ClassPaths
import OpenRune.SajsonJson

/-!
# The native launcher

`loadConfiguration` reads the configuration as sajson has parsed it, and `launchJavaVM`
makes of it what the virtual machine is started with.
-/
namespace OpenRune.NativeLauncher
open OpenRune.CppStrings OpenRune.InputStreams OpenRune.JsonTexts OpenRune.Outcomes OpenRune.Sajson
open OpenRune.ClassPaths hiding ascii

/-! ## Values -/

section
variable (w : Width) (document : Document)

def hasJsonValue (jsonObject : Value) (key : Bytes) (expectedType : ElementType) : Except Fault Bool := do
  let index ← jsonObject.findObjectKey w document key
  if index = (← jsonObject.getLength document) then return false
  let value ← jsonObject.getObjectValue w document index
  return decide (value.valueType = expectedType)

def getJsonValue (jsonObject : Value) (key : Bytes) : Except Fault Value := do
  let index ← jsonObject.findObjectKey w document key
  jsonObject.getObjectValue w document index

/-- The loop over the elements of an array, which have to be strings. -/
def arrayStrings (array : Value) : Except Fault (List Bytes) := do
  let count ← array.getLength document
  (List.range count).mapM fun i => array.getArrayElement w document i >>= (·.asString document)

/-- The elements of an array where there is more to do before the next one is read. -/
def arrayEntries (array : Value) : Except Fault (List (Except Fault Bytes)) := do
  let count ← array.getLength document
  return (List.range count).map fun i => array.getArrayElement w document i >>= (·.asString document)

/-- The loop over `env`: what is passed to `packrSetEnv`. -/
def environment (env : Value) : Except Fault (List (Bytes × Bytes)) := do
  let count ← env.getLength document
  (List.range count).mapM fun i => do
    let key ← env.getObjectKey document i
    let element ← env.getObjectValue w document i
    let value ← element.asString document
    return (cStr 0 key,cStr 0 value)

end

/-! ## The configuration -/

/-- What ends the process before the virtual machine starts. -/
inductive Halt
  | exit (message : Bytes)
  | fault (fault : Fault)

def lift {α : Type} : Except Fault α → Except Halt α
  | .ok a => .ok a
  | .error fault => .error (.fault fault)

/-- What `loadConfiguration` leaves in the globals, with the entries of the class path or
    with what has been made of them. -/
structure Configuration (Paths : Type) where
  env : List (Bytes × Bytes)
  vmArgs : List Bytes
  mainClassName : Bytes
  classPath : Paths

abbrev Entries := List (Except Fault Bytes)

section
variable (w : Width) (document : Document)

/-- What is read of a member that is there and has the right type. -/
def readJsonValue {α : Type} (jsonObject : Value) (key : Bytes) (expectedType : ElementType) (otherwise : Except Halt α)
    (read : Value → Except Fault α) : Except Halt α := do
  if ← lift (hasJsonValue w document jsonObject key expectedType) then
    lift (getJsonValue w document jsonObject key >>= read)
  else otherwise

def noMainClass : Halt := .exit (ascii "Error: no 'mainClass' element found in config!")

def noClassPath : Halt := .exit (ascii "Error: no 'classPath' array found in config!")

/-- `loadConfiguration` on a document, up to the text files in the class path. -/
def loadSettings (vmArgs : List Bytes) : Except Halt (Configuration Entries) := do
  let jsonRoot := document.getRoot
  let env ← readJsonValue w document jsonRoot (ascii "env") .TYPE_OBJECT (pure []) (environment w document)
  let vmArgs ← (if !vmArgs.isEmpty then pure vmArgs else
    readJsonValue w document jsonRoot (ascii "vmArgs") .TYPE_ARRAY (pure []) (arrayStrings w document))
  let mainClassName ← readJsonValue w document jsonRoot (ascii "mainClass") .TYPE_STRING (throw noMainClass) (·.asString document)
  let classPath ← readJsonValue w document jsonRoot (ascii "classPath") .TYPE_ARRAY (throw noClassPath) (arrayEntries w document)
  return ⟨env,vmArgs,mainClassName,classPath⟩

end

/-- `readConfigurationFile`: what can be read of a file, up to the first zero. -/
def configurationText : File → Bytes
  | .content bytes => cStr 0 bytes
  | _ => []

/-- `extractClassPath` on entries that may turn out not to be strings. -/
def extractEntries (expands : Bytes → Option (List Bytes)) : Entries → Option (Except Fault (List Bytes))
  | [] => some (.ok [])
  | .error fault :: _ => some (.error fault)
  | .ok classPathURL :: entries => (expands classPathURL).bind fun paths =>
      (extractEntries expands entries).map fun outcome => outcome.map (paths ++ ·)

/-- The configuration with what its class path comes to, once all else is set. -/
def withClassPath (expands : Bytes → Option (List Bytes)) :
    Except Halt (Configuration Entries) → Option (Except Halt (Configuration (List Bytes)))
  | .error halt => some (.error halt)
  | .ok settings => (extractEntries expands settings.classPath).map fun outcome =>
      lift (outcome.map fun classPath => ⟨settings.env,settings.vmArgs,settings.mainClassName,classPath⟩)

section
variable {D : Type} (w : Width) (doubles : Doubles D) (sorting : Sorting) (delim : UInt8) (files : Bytes → File)

def loadConfiguration (fuel : Nat) (configurationPath : Bytes) (vmArgs : List Bytes) :
    Option (Except Halt (Configuration (List Bytes))) := do
  match ← parse w doubles sorting fuel (configurationText (files (cStr 0 configurationPath))) with
  | .error (.error _ _ _) => return .error (.exit (ascii "Error: failed to load configuration: " ++ configurationPath))
  | .error fault => return .error (.fault fault)
  | .ok document => withClassPath (expand delim w files fuel) (loadSettings w document vmArgs)

/-- What the Java interface answers in a run. -/
structure Jvm where
  loadJNIFunctions : Bool
  getDefaultJavaVMInitArgs : Int
  createJavaVM : Int
  findClass : Bool
  getStaticMethodID : Bool

/-- The options, the main class and the arguments that the virtual machine gets. -/
structure JavaLaunch where
  env : List (Bytes × Bytes)
  options : List Bytes
  mainClass : Bytes
  appArgs : List Bytes

/-- The paths with delimiters between them. -/
def joined : List Bytes → Bytes
  | [] => []
  | [path] => path
  | path :: rest => path ++ delim :: joined rest

def binaryClassName (mainClassName : Bytes) : Bytes := mainClassName.map fun c => if c = 0x2E then 0x2F else c

/-- What the virtual machine is given; every text ends at its first zero. -/
def javaLaunch (configuration : Configuration (List Bytes)) (cmdLineArgs : List Bytes) : JavaLaunch where
  env := configuration.env
  options := (cStr 0 (ascii "-Djava.class.path=" ++ joined delim configuration.classPath)) :: configuration.vmArgs.map (cStr 0)
  mainClass := cStr 0 (binaryClassName configuration.mainClassName)
  appArgs := cmdLineArgs.map (cStr 0)

variable (jvm : Jvm)

/-- `launchJavaVM` behind `loadConfiguration`, up to the call of `main`. -/
def callMain (cmdLineArgs : List Bytes) (configuration : Configuration (List Bytes)) : Except Halt JavaLaunch := do
  if !jvm.loadJNIFunctions then throw (.exit (ascii "Error: failed to load VM runtime library!"))
  if jvm.getDefaultJavaVMInitArgs < 0 then throw (.exit (ascii "Error: failed to load default Java VM arguments!"))
  if jvm.createJavaVM < 0 then throw (.exit (ascii "Error: failed to create Java VM!"))
  let mainClass := binaryClassName configuration.mainClassName
  if !jvm.findClass then throw (.exit (ascii "Error: failed to find main class " ++ mainClass))
  if !jvm.getStaticMethodID then throw (.exit (ascii "Error: failed to find main method in " ++ mainClass))
  return javaLaunch delim configuration cmdLineArgs

def launchJavaVM (fuel : Nat) (configurationPath : Bytes) (vmArgs cmdLineArgs : List Bytes) : Option (Except Halt JavaLaunch) :=
  (loadConfiguration w doubles sorting delim files fuel configurationPath vmArgs).map fun outcome =>
    outcome >>= callMain delim jvm cmdLineArgs

end

/-! ## What a configuration says -/

/-- The texts of strings; nothing else may be taken for one. -/
def asString : Json → Except Fault Bytes
  | .string value => .ok (utf8 value)
  | _ => .error .undefined

def entry : String × Json → Except Fault (Bytes × Bytes)
  | (key,json) => do return (cStr 0 (utf8 key),cStr 0 (← asString json))

def asObject : Json → Option (List (String × Json))
  | .object members => some members
  | _ => none

def asArray : Json → Option (List Json)
  | .array items => some items
  | _ => none

def asText : Json → Option String
  | .string value => some value
  | _ => none

section
variable (members : List (String × Json))

def envOf : Except Halt (List (Bytes × Bytes)) :=
  ((members.lookup "env").bind asObject).elim (pure []) fun env => lift (env.mapM entry)

def vmArgsOf : Except Halt (List Bytes) :=
  ((members.lookup "vmArgs").bind asArray).elim (pure []) fun items => lift (items.mapM asString)

def mainClassOf : Except Halt Bytes :=
  ((members.lookup "mainClass").bind asText).elim (throw noMainClass) fun text => pure (utf8 text)

def classPathOf : Except Halt Entries :=
  ((members.lookup "classPath").bind asArray).elim (throw noClassPath) fun items => pure (items.map asString)

/-- What the members of a configuration set, for the options that are given. -/
def settings (vmArgs : List Bytes) : Except Halt (Configuration Entries) := do
  let env ← envOf members
  let vmArgs ← (if !vmArgs.isEmpty then pure vmArgs else vmArgsOf members)
  let mainClassName ← mainClassOf members
  let classPath ← classPathOf members
  return ⟨env,vmArgs,mainClassName,classPath⟩

end

/-- Nothing but the order of `env` differs. -/
structure Agrees {Paths : Type} (c c' : Configuration Paths) : Prop where
  env : c.env.Perm c'.env
  vmArgs : c.vmArgs = c'.vmArgs
  mainClassName : c.mainClassName = c'.mainClassName
  classPath : c.classPath = c'.classPath

section
variable {D : Type} {w : Width} {document : Document} {doubles : Doubles D}

/-! ### Members -/

theorem utf8_injective : Function.Injective utf8 := by
  intro text text' same
  rw [← String.toByteArray_inj,← String.utf8Encode_toList,← String.utf8Encode_toList,List.utf8Encode,List.utf8Encode]
  exact congrArg List.toByteArray same

theorem treesOf_map (items : List Json) : treesOf doubles items = items.map (treeOf doubles) := by
  induction items with
  | nil => rfl
  | cons item items ih => rw [treesOf,ih,List.map_cons]

theorem namedOf_map (members : List (String × Json)) :
    namedOf doubles members = members.map fun member => (utf8 member.1,treeOf doubles member.2) := by
  induction members with
  | nil => rfl
  | cons member members ih => rw [namedOf,ih,List.map_cons]

theorem namedOf_distinct {members : List (String × Json)} (distinct : (members.map Prod.fst).Nodup) :
    ((namedOf doubles members).map Prod.fst).Nodup := by
  have names : (namedOf doubles members).map Prod.fst = (members.map Prod.fst).map utf8 := by
    rw [namedOf_map,List.map_map,List.map_map]
    rfl
  rw [names]
  exact distinct.map utf8_injective

theorem namedOf_lookup (members : List (String × Json)) (key : String) :
    (namedOf doubles members).lookup (utf8 key) = (members.lookup key).map (treeOf doubles) := by
  induction members with
  | nil => rfl
  | cons member members ih =>
    rw [namedOf,List.lookup_cons,List.lookup_cons]
    by_cases same : key = member.1
    · simp [same]
    · have same' : utf8 key ≠ utf8 member.1 := fun equal => same (utf8_injective equal)
      rw [beq_eq_false_iff_ne.mpr same,beq_eq_false_iff_ne.mpr same']
      exact ih

theorem asString_treeOf (json : Json) : (treeOf doubles json).asString = asString json := by
  cases json with
  | bool value => cases value <;> simp [treeOf,Tree.asString,asString]
  | number n =>
    simp only [treeOf,asString]
    cases numberOf doubles n <;> rfl
  | _ => simp [treeOf,Tree.asString,asString]

/-! ### Loops -/

theorem arrayEntries_shown {v : Value} {items : List Json} (shown : v.Shows w document doubles (treeOf doubles (.array items))) :
    arrayEntries w document v = .ok (items.map asString) := by
  rw [treeOf,treesOf_map] at shown
  obtain ⟨length,entries⟩ := shown_items shown (f := fun element => element.asString document) fun _ _ => shown_string
  rw [arrayEntries,length,ok_bind,entries,List.map_map]
  exact congrArg Except.ok (List.map_congr_left fun json _ => asString_treeOf json)

theorem arrayStrings_shown {v : Value} {items : List Json} (shown : v.Shows w document doubles (treeOf doubles (.array items))) :
    arrayStrings w document v = items.mapM asString := by
  have strings : arrayStrings w document v = arrayEntries w document v >>= List.mapM id := by
    simp only [arrayStrings,arrayEntries,bind_assoc,pure_bind,List.mapM_map]
    rfl
  rw [strings,arrayEntries_shown shown,ok_bind,List.mapM_map]
  rfl

theorem environment_shown {v : Value} {env : List (String × Json)}
    (shown : v.Shows w document doubles (treeOf doubles (.object env))) :
    Matches List.Perm (environment w document v) (env.mapM entry) := by
  rw [treeOf] at shown
  let named : List UInt8 × Sajson.Tree D → Except Fault (Bytes × Bytes) := fun member =>
    do return (cStr 0 member.1,cStr 0 (← member.2.asString))
  obtain ⟨members',order,loop⟩ := shown_members shown
    (f := fun key element => do return (cStr 0 key,cStr 0 (← element.asString document))) (g := named)
    fun element member shown => by simp only [named,shown_string shown]
  have only : ∀ member fault, named member = .error fault → fault = .undefined := by
    intro member fault fails
    cases read : member.2.asString with
    | error fault' =>
      obtain rfl : fault' = fault := by simpa [named,read] using fails
      exact error_only _ _ read
    | ok bytes => simp [named,read] at fails
  have reordered := mapM_perm only order
  rw [← loop,namedOf_map,List.mapM_map] at reordered
  have same : (named ∘ fun member : String × Json => (utf8 member.1,treeOf doubles member.2)) = entry := by
    funext ⟨key,json⟩
    simp only [named,Function.comp,asString_treeOf,entry]
  rwa [same] at reordered

/-! ### The root -/

/-- What `hasJsonValue` and `getJsonValue` come to. -/
theorem member_shown {root : Value} {members : List (String × Json)}
    (shown : root.Shows w document doubles (treeOf doubles (.object members))) (distinct : (members.map Prod.fst).Nodup)
    (key : String) (expectedType : ElementType) :
    (members.lookup key = none ∧ hasJsonValue w document root (utf8 key) expectedType = .ok false) ∨
      ∃ json element, members.lookup key = some json ∧ element.Shows w document doubles (treeOf doubles json) ∧
        hasJsonValue w document root (utf8 key) expectedType =
          .ok (decide ((treeOf doubles json).elementType = expectedType)) ∧
        getJsonValue w document root (utf8 key) = .ok element := by
  rw [treeOf] at shown
  obtain ⟨length,searched⟩ := shown_lookup shown (namedOf_distinct distinct) (utf8 key)
  rw [namedOf_lookup] at searched
  rcases searched with ⟨absent,finds⟩ | ⟨i,element,tree,present,finds,inside,read,shown'⟩
  · refine .inl ⟨Option.map_eq_none_iff.mp absent,?_⟩
    simp only [hasJsonValue,finds,length,ok_bind,if_true]
    rfl
  · obtain ⟨json,found,rfl⟩ := Option.map_eq_some_iff.mp present
    refine .inr ⟨json,element,found,shown',?_,?_⟩
    · simp only [hasJsonValue,finds,length,read,ok_bind,if_neg inside,shown_type shown']
      rfl
    · simp only [getJsonValue,finds,read,ok_bind]

theorem matches_lift {α β : Type} {R : α → β → Prop} {x : Except Fault α} {y : Except Fault β} (same : Matches R x y) :
    Matches R (lift x) (lift y) := by
  cases x with
  | error fault =>
    cases y with
    | error fault' => exact congrArg Halt.fault same
    | ok b => exact same.elim
  | ok a =>
    cases y with
    | error fault' => exact same.elim
    | ok b => exact same

/-- A member is read when the selection takes it, and only then. -/
theorem readJsonValue_shown {α β γ : Type} {R : α → β → Prop} {root : Value} {members : List (String × Json)}
    (shown : root.Shows w document doubles (treeOf doubles (.object members))) (distinct : (members.map Prod.fst).Nodup)
    (key : String) {expectedType : ElementType} {read : Value → Except Fault α} {select : Json → Option γ}
    {read' : γ → Except Halt β} {otherwise : Except Halt α} {otherwise' : Except Halt β}
    (typed : ∀ json, (treeOf doubles json).elementType = expectedType ↔ (select json).isSome)
    (reads : ∀ json element selected, element.Shows w document doubles (treeOf doubles json) → select json = some selected →
      Matches R (lift (read element)) (read' selected))
    (others : Matches R otherwise otherwise') :
    Matches R (readJsonValue w document root (utf8 key) expectedType otherwise read)
      (((members.lookup key).bind select).elim otherwise' read') := by
  rcases member_shown shown distinct key expectedType with ⟨absent,has⟩ | ⟨json,element,present,shown',has,get⟩
  · rw [readJsonValue,has,absent]
    exact others
  · rw [readJsonValue,has,get,present,Option.bind_some]
    cases selected : select json with
    | none =>
      rw [decide_eq_false (by simp [typed,selected])]
      exact others
    | some chosen =>
      rw [decide_eq_true ((typed json).mpr (by simp [selected]))]
      exact reads json element chosen shown' selected

theorem elementType_object (json : Json) : (treeOf doubles json).elementType = .TYPE_OBJECT ↔ (asObject json).isSome := by
  cases json with
  | bool value => cases value <;> simp [treeOf,Tree.elementType,asObject]
  | number n =>
    simp only [treeOf,asObject]
    cases numberOf doubles n <;> simp [Number.tree,Tree.elementType]
  | _ => simp [treeOf,Tree.elementType,asObject]

theorem elementType_array (json : Json) : (treeOf doubles json).elementType = .TYPE_ARRAY ↔ (asArray json).isSome := by
  cases json with
  | bool value => cases value <;> simp [treeOf,Tree.elementType,asArray]
  | number n =>
    simp only [treeOf,asArray]
    cases numberOf doubles n <;> simp [Number.tree,Tree.elementType]
  | _ => simp [treeOf,Tree.elementType,asArray]

theorem elementType_string (json : Json) : (treeOf doubles json).elementType = .TYPE_STRING ↔ (asText json).isSome := by
  cases json with
  | bool value => cases value <;> simp [treeOf,Tree.elementType,asText]
  | number n =>
    simp only [treeOf,asText]
    cases numberOf doubles n <;> simp [Number.tree,Tree.elementType]
  | _ => simp [treeOf,Tree.elementType,asText]

theorem matches_rfl {ε α : Type} (x : Except ε α) : Matches Eq x x := by
  cases x <;> rfl

/-- The document of a configuration sets what its members say. -/
theorem loadSettings_shown {members : List (String × Json)}
    (shown : document.getRoot.Shows w document doubles (treeOf doubles (.object members)))
    (distinct : (members.map Prod.fst).Nodup) (vmArgs : List Bytes) :
    Matches Agrees (loadSettings w document vmArgs) (settings members vmArgs) := by
  have env : Matches List.Perm (readJsonValue w document document.getRoot (ascii "env") .TYPE_OBJECT (pure [])
      (environment w document)) (envOf members) := by
    refine readJsonValue_shown shown distinct "env" elementType_object (fun json element env shown selected => ?_)
      (List.Perm.refl [])
    cases json <;> cases selected
    exact matches_lift (environment_shown shown)
  have mainClass : Matches Eq (readJsonValue w document document.getRoot (ascii "mainClass") .TYPE_STRING (throw noMainClass)
      (·.asString document)) (mainClassOf members) := by
    refine readJsonValue_shown shown distinct "mainClass" elementType_string (fun json element text shown selected => ?_) rfl
    cases json <;> cases selected
    rw [shown_string shown,treeOf]
    rfl
  have options : Matches Eq (readJsonValue w document document.getRoot (ascii "vmArgs") .TYPE_ARRAY (pure [])
      (arrayStrings w document)) (vmArgsOf members) := by
    refine readJsonValue_shown shown distinct "vmArgs" elementType_array (fun json element items shown selected => ?_) rfl
    cases json <;> cases selected
    rw [arrayStrings_shown shown]
    exact matches_rfl _
  have entries : Matches Eq (readJsonValue w document document.getRoot (ascii "classPath") .TYPE_ARRAY (throw noClassPath)
      (arrayEntries w document)) (classPathOf members) := by
    refine readJsonValue_shown shown distinct "classPath" elementType_array (fun json element items shown selected => ?_) rfl
    cases json <;> cases selected
    rw [arrayEntries_shown shown]
    rfl
  unfold loadSettings settings
  refine matches_bind env fun env env' order => ?_
  refine matches_bind (R := Eq) ?_ ?_
  · split
    · exact rfl
    · exact options
  · rintro vmArgs _ rfl
    refine matches_bind mainClass ?_
    rintro mainClassName _ rfl
    refine matches_bind entries ?_
    rintro classPath _ rfl
    exact ⟨order,rfl,rfl,rfl⟩

end

/-! ## Class paths -/

section
variable {w : Width} {delim : UInt8} {files : Bytes → File}

theorem extractEntries_stable (entries : Entries) : Stable fun fuel => extractEntries (expand delim w files fuel) entries := by
  induction entries with
  | nil => exact fun _ _ done => done
  | cons entry entries ih =>
    cases entry with
    | error fault => exact fun _ _ done => done
    | ok classPathURL => exact stable_bind (expand_stable classPathURL) fun paths => stable_map ih _

/-- The loops over the text files end as their contents say, or not at all. -/
theorem extractEntries_comes (entries : Entries) :
    ComesTo (fun fuel => extractEntries (expand delim w files fuel) entries) (extractEntries (added delim w files) entries) := by
  induction entries with
  | nil => exact ⟨0,rfl⟩
  | cons entry entries ih =>
    cases entry with
    | error fault => exact ⟨0,rfl⟩
    | ok classPathURL =>
      exact comesTo_bind (expand_stable classPathURL) (fun paths => stable_map (extractEntries_stable entries) _)
        (expand_comes classPathURL) fun paths _ => comesTo_map ih _

theorem withClassPath_stable (settings : Except Halt (Configuration Entries)) :
    Stable fun fuel => withClassPath (expand delim w files fuel) settings := by
  cases settings with
  | error halt => exact fun _ _ done => done
  | ok settings => exact stable_map (extractEntries_stable settings.classPath) _

theorem withClassPath_comes (settings : Except Halt (Configuration Entries)) :
    ComesTo (fun fuel => withClassPath (expand delim w files fuel) settings) (withClassPath (added delim w files) settings) := by
  cases settings with
  | error halt => exact ⟨0,rfl⟩
  | ok settings => exact comesTo_map (extractEntries_comes settings.classPath) _

theorem withClassPath_agrees {expands : Bytes → Option (List Bytes)} {x y : Except Halt (Configuration Entries)}
    (agrees : Matches Agrees x y) : Option.Rel (Matches Agrees) (withClassPath expands x) (withClassPath expands y) := by
  cases x with
  | error halt =>
    cases y with
    | error halt' => exact .some agrees
    | ok c' => exact agrees.elim
  | ok c =>
    cases y with
    | error halt' => exact agrees.elim
    | ok c' =>
      have same : c.classPath = c'.classPath := Agrees.classPath agrees
      rw [withClassPath,withClassPath,same]
      cases extractEntries expands c'.classPath with
      | none => exact .none
      | some outcome =>
        refine .some ?_
        cases outcome with
        | error fault => rfl
        | ok classPath => exact ⟨agrees.env,agrees.vmArgs,agrees.mainClassName,rfl⟩

end

/-! ## Whole configurations -/

section
variable {D : Type} {w : Width} {doubles : Doubles D} {sorting : Sorting} {delim : UInt8} {files : Bytes → File}

theorem parseLoop_stable (length : Nat) (s : Parser) (frame : Frame) :
    Stable fun fuel => parseLoop w doubles sorting length fuel s frame := by
  intro fuel
  induction fuel generalizing s frame with
  | zero => exact fun _ done => by cases done
  | succ fuel ih =>
    intro outcome done
    simp only at done ⊢
    rw [parseLoop] at done ⊢
    cases ran : parseTurn w doubles sorting length s frame with
    | error fault => rwa [ran] at done
    | ok turn =>
      rw [ran] at done
      cases turn with
      | done s rootType => exact done
      | next s frame => exact ih s frame outcome done

theorem parse_stable (input : Bytes) : Stable fun fuel => parse w doubles sorting fuel input := by
  unfold parse
  cases openRoot ⟨[],input⟩ with
  | error fault => exact fun _ _ done => done
  | ok root =>
    cases pushed : Parser.push input.length ⟨root.2,fun _ => none,0,input.length⟩ (makeElement w root.1 (rootMarker w)) with
    | error fault =>
      simp only [pushed]
      exact fun _ _ done => done
    | ok s =>
      simp only [pushed]
      exact stable_map (parseLoop_stable input.length s ⟨0,root.1⟩) _

theorem document_loads {fuel : Nat} {configurationPath input : Bytes} {document : Document}
    (file : files (cStr 0 configurationPath) = .content input) (solid : (0 : UInt8) ∉ input)
    (parses : parse w doubles sorting fuel input = some (.ok document)) (vmArgs : List Bytes) :
    loadConfiguration w doubles sorting delim files fuel configurationPath vmArgs =
      withClassPath (expand delim w files fuel) (loadSettings w document vmArgs) := by
  rw [loadConfiguration,file,configurationText,cStr_whole solid,parses]
  rfl

/-- From a JSON text the launcher takes just what its members say, however they are
    written down and wherever the parser and its sort have put them. -/
theorem loadConfiguration_text {fuel : Nat} {configurationPath input : Bytes} {members : List (String × Json)}
    (file : files (cStr 0 configurationPath) = .content input) (isText : IsText Moderate input (.object members))
    (distinct : (members.map Prod.fst).Nodup) (allocated : Allocated w input.length) (enough : input.length ≤ fuel)
    (vmArgs : List Bytes) :
    Option.Rel (Matches Agrees) (loadConfiguration w doubles sorting delim files fuel configurationPath vmArgs)
      (withClassPath (expand delim w files fuel) (settings members vmArgs)) := by
  obtain ⟨text,reads⟩ := read_text doubles isText rfl enough
  obtain ⟨document,parses,shown⟩ := @document_shown D doubles w sorting _ _ _ _ allocated enough reads
  rw [document_loads file (isText_solid isText) parses]
  exact withClassPath_agrees (loadSettings_shown shown distinct vmArgs)

theorem loadConfiguration_stable (configurationPath : Bytes) (vmArgs : List Bytes) :
    Stable fun fuel => loadConfiguration w doubles sorting delim files fuel configurationPath vmArgs := by
  unfold loadConfiguration
  refine stable_bind (parse_stable _) fun outcome => ?_
  cases outcome with
  | ok document => exact withClassPath_stable _
  | error fault => cases fault <;> exact fun _ _ done => done

end

/-! ## Launches -/

/-- Nothing but the order of `env` differs. -/
structure SameLaunch (launch launch' : JavaLaunch) : Prop where
  env : launch.env.Perm launch'.env
  options : launch.options = launch'.options
  mainClass : launch.mainClass = launch'.mainClass
  appArgs : launch.appArgs = launch'.appArgs

theorem callMain_agrees {delim : UInt8} {jvm : Jvm} {c c' : Configuration (List Bytes)} (agrees : Agrees c c')
    (cmdLineArgs : List Bytes) : Matches SameLaunch (callMain delim jvm cmdLineArgs c) (callMain delim jvm cmdLineArgs c') := by
  obtain ⟨env,vmArgs,mainClassName,classPath⟩ := agrees
  have same : SameLaunch (javaLaunch delim c cmdLineArgs) (javaLaunch delim c' cmdLineArgs) := by
    refine ⟨env,?_,?_,rfl⟩
    · simp only [javaLaunch,vmArgs,classPath]
    · simp only [javaLaunch,mainClassName]
  simp only [callMain,mainClassName]
  split
  · rfl
  · split
    · rfl
    · split
      · rfl
      · split
        · rfl
        · split
          · rfl
          · exact same

/-- What the members of a configuration start, or nothing where a text file that the
    class path comes to cannot be read. -/
def started (w : Width) (delim : UInt8) (files : Bytes → File) (jvm : Jvm) (members : List (String × Json))
    (vmArgs cmdLineArgs : List Bytes) : Option (Except Halt JavaLaunch) :=
  (withClassPath (added delim w files) (settings members vmArgs)).map fun outcome => outcome >>= callMain delim jvm cmdLineArgs

section
variable {D : Type} {w : Width} {doubles : Doubles D} {sorting : Sorting} {delim : UInt8} {files : Bytes → File} {jvm : Jvm}

/-- From a JSON text `main` is called with just what the members of the configuration
    say, or the launcher ends as they say; it hangs where they start nothing. -/
theorem launchJavaVM_text {configurationPath input : Bytes} {members : List (String × Json)}
    (file : files (cStr 0 configurationPath) = .content input) (isText : IsText Moderate input (.object members))
    (distinct : (members.map Prod.fst).Nodup) (allocated : Allocated w input.length) (vmArgs cmdLineArgs : List Bytes) :
    match started w delim files jvm members vmArgs cmdLineArgs with
    | some expected => ∃ outcome, Matches SameLaunch outcome expected ∧
        Terminates (fun fuel => launchJavaVM w doubles sorting delim files jvm fuel configurationPath vmArgs cmdLineArgs) outcome
    | none => ∀ fuel, launchJavaVM w doubles sorting delim files jvm fuel configurationPath vmArgs cmdLineArgs = none := by
  have loads (fuel : Nat) (enough : input.length ≤ fuel) := @loadConfiguration_text D w doubles sorting delim files fuel
    configurationPath input members file isText distinct allocated enough vmArgs
  obtain ⟨loaded,agrees,comes⟩ := comesTo_rel (loadConfiguration_stable configurationPath vmArgs)
    (withClassPath_stable (settings members vmArgs)) loads (withClassPath_comes (settings members vmArgs))
  have launches := comesTo_map comes fun outcome => outcome >>= callMain delim jvm cmdLineArgs
  rw [started]
  revert agrees launches
  generalize withClassPath (added delim w files) (settings members vmArgs) = expected
  intro agrees launches
  cases agrees with
  | none => exact launches
  | some agrees => exact ⟨_,matches_bind agrees fun c c' same => callMain_agrees same cmdLineArgs,launches⟩

end

def smallMembers : List (String × Json) := [("mainClass",.string "a.B"),("classPath",.array [.string "a.jar"])]

def smallText : Bytes := ascii "\x7b\"mainClass\":\"a.B\",\"classPath\":[\"a.jar\"]\x7d"

/-- A small configuration in a file. -/
def smallFiles (name : Bytes) : File := if name = ascii "config.json" then .content smallText else .missing

theorem smallText_members : IsText Moderate smallText (.object smallMembers) := by
  have none : Spaces [] := by simp [Spaces]
  have spelled : Spells (utf8 "a.jar") "a.jar".toList := spells_plain _ (by simp)
  have items : Writes Moderate (.value (.array [.string "a.jar"])) (ascii "[\"a.jar\"]") :=
    .array (@Writes.firstItem _ _ _ [] (ascii "\"a.jar\"") [] none (.string "a.jar" spelled) (.lastItem none))
  have key : Spells (utf8 "classPath") "classPath".toList := spells_plain _ (by simp)
  have later : Writes Moderate (.members [("classPath",.array [.string "a.jar"])]) (ascii ",\"classPath\":[\"a.jar\"]") :=
    @Writes.nextMember _ "classPath" _ [] [] [] _ [] [] _ [] none none key none none items (.lastMember none)
  have key' : Spells (utf8 "mainClass") "mainClass".toList := spells_plain _ (by simp)
  have name : Spells (utf8 "a.B") "a.B".toList := spells_plain _ (by simp)
  refine ⟨[],smallText,[],by simp,none,none,?_⟩
  exact .object (@Writes.firstMember _ "mainClass" _ _ [] _ [] [] _ _ none key' none none (.string "a.B" name) later)

theorem launchJavaVM_text_small : ∃ outcome,
    Matches SameLaunch outcome (.ok ⟨[],[ascii "-Djava.class.path=a.jar"],ascii "a/B",[]⟩) ∧
      Terminates (fun fuel => launchJavaVM .x64 floatDoubles stableSorting 0x3A smallFiles ⟨true,0,0,true,true⟩ fuel
        (ascii "config.json") [] []) outcome :=
  @launchJavaVM_text Float .x64 floatDoubles stableSorting 0x3A smallFiles ⟨true,0,0,true,true⟩ (ascii "config.json") smallText
    smallMembers (by decide) smallText_members (by decide) (by decide) [] []

end OpenRune.NativeLauncher
