import OpenRune.Programs
import OpenRune.Settings

/-!
# The operations of the launcher

What the launcher does to its surroundings, one operation at a time, the replies
it can get, and the effect on the files below the repository directory. Files are
found through `locate`, which takes a name that is resolved in the directory to
the file that it denotes, so that two names may denote one file.
-/
namespace OpenRune.Operations
open OpenRune.Java OpenRune.Beans OpenRune.Settings OpenRune.Programs

abbrev Bytes := List UInt8

/-- What a path of the repository directory can lead to, besides nothing. The
    content of a damaged file cannot be read. -/
inductive Node
  | file (content : Bytes)
  | directory
  | damaged
  deriving DecidableEq, Repr

/-- How a server answers: no connection at all, a stream of error text, or a body
    that comes in several reads and may be cut off by an `IOException`. -/
inductive Connection
  | refused (thrown : Thrown)
  | errorStream
  | stream (reads : List Bytes) (cut : Bool)
  deriving DecidableEq, Repr

/-- What the delta applier does: the pieces it writes, and the exception that
    stops it, if any. -/
structure Delta where
  writes : List Bytes
  stopped : Option Thrown
  deriving DecidableEq, Repr

/-- The end of a stage of `main` that is looked at from outside only: how many
    error dialogs it has constructed, and how it returned. -/
structure Stage (α : Type) where
  dialogs : Nat := 0
  result : Except Thrown α

/-- A client that is started: the launch mode, the files of the class path, and
    the command line of the process, or the client's arguments when the client
    runs in the same process. -/
structure Launch where
  mode : LaunchMode
  classpath : List String
  command : List String
  deriving DecidableEq, Repr

inductive Op
  | listFiles
  | isFile (name : String)
  | delete (name : String)
  | hash (name : String)
  | newOutputStream (name : String)
  | write (name : String) (position : Nat) (buffer : Bytes)
  | isCompatible
  | connect (url : Option String)
  | gunzip (bytes : Bytes)
  | applyDelta (old : String) (patch : Bytes)
  | stage (done total : Int)
  | sendGet (url : String)
  | loadSettings
  | setupTrustManager (insecure : Bool)
  | splashScreen
  | checkPermissions
  | initJava
  | makeRepoDir
  | update (bootstrap : Bootstrap) (settings : LauncherSettings) (args : List String)
  | updateLauncherArgs (bootstrap : Bootstrap) (settings : LauncherSettings)
  | fatalErrorDialog
  | getJava
  | startClient (launch : Launch)

def Reply : Op → Type
  | .listFiles => Option (List String)
  | .isFile _ => Bool
  | .delete _ => Bool
  | .hash _ => Except Thrown String
  | .newOutputStream _ => Except Thrown Unit
  | .write _ _ _ => Except Thrown Unit
  | .isCompatible => Bool
  | .connect _ => Connection
  | .gunzip _ => Except Thrown Unit
  | .applyDelta _ _ => Delta
  | .stage _ _ => Unit
  | .sendGet _ => Except Thrown Bytes
  | .loadSettings => LauncherSettings
  | .setupTrustManager _ => Except Thrown Unit
  | .splashScreen => Except Thrown Unit
  | .checkPermissions => Stage Bool
  | .initJava => Stage Unit
  | .makeRepoDir => Bool
  | .update _ _ _ => Stage Unit
  | .updateLauncherArgs _ _ => Except Thrown Unit
  | .fatalErrorDialog => Unit
  | .getJava => Except Thrown String
  | .startClient _ => Except Thrown Unit

abbrev launcher : Signature := ⟨Op,Reply⟩

/-- Methods of the launcher. -/
abbrev Method (α : Type) := Program launcher Thrown α

def ask (op : Op) : Method (Reply op) := @perform launcher Thrown op

/-! ## Effects -/

/-- The files, and a record of what was requested, shown and answered. -/
structure World where
  files : String → Option Node
  requests : List (Option String) := []
  stages : List (Int × Int) := []
  served : List (String × Bytes) := []
  dialogs : Nat := 0

/-- A file whose bytes from a position on are replaced; a gap reads as zeros. -/
def overwrite (content : Bytes) (position : Nat) (buffer : Bytes) : Bytes :=
  (content ++ List.replicate (position - content.length) 0).take position ++ buffer ++
    content.drop (position + buffer.length)

def Node.overwrite (position : Nat) (buffer : Bytes) : Option Node → Option Node
  | some (.file content) => some (.file (Operations.overwrite content position buffer))
  | other => other

def Node.isFile : Option Node → Bool
  | some (.file _) => true
  | some .damaged => true
  | _ => false

/-- `Launcher.hash`, apart from passing failures. -/
def Node.hash (sha256 : Bytes → String) : Option Node → Except Thrown String
  | some (.file content) => .ok (sha256 content)
  | some .damaged => .error .io
  | _ => .error .fileNotFound

def World.set (w : World) (path : String) (node : Option Node) : World :=
  { w with files := Function.update w.files path node }

/-- What any surroundings may do. Reading may fail at any time, opening and
    writing may fail, servers and the delta applier answer as they like, and the
    stages of `main` before the bootstrap may change the files. -/
def Reacts (sha256 : Bytes → String) (locate : String → String) : Environment launcher World
  | .listFiles, w, _, w' => w' = w
  | .isFile name, w, reply, w' => w' = w ∧ reply = Node.isFile (w.files (locate name))
  | .delete name, w, (reply : Bool), w' => w' = if reply = true then w.set (locate name) none else w
  | .hash name, w, reply, w' => w' = w ∧ (reply = Node.hash sha256 (w.files (locate name)) ∨ reply = .error .io)
  | .newOutputStream name, w, reply, w' =>
    (reply = .ok () ∧ w.files (locate name) ≠ some .directory ∧ w' = w.set (locate name) (some (.file []))) ∨
      ((∃ thrown, reply = .error thrown) ∧ w' = w)
  | .write name position buffer, w, reply, w' =>
    (reply = .ok () ∧ w' = w.set (locate name) (Node.overwrite position buffer (w.files (locate name)))) ∨
      ((∃ thrown, reply = .error thrown) ∧
        ∃ n, w' = w.set (locate name) (Node.overwrite position (buffer.take n) (w.files (locate name))))
  | .isCompatible, w, _, w' => w' = w
  | .connect url, w, _, w' => w' = { w with requests := w.requests ++ [url] }
  | .gunzip _, w, _, w' => w' = w
  | .applyDelta _ _, w, _, w' => w' = w
  | .stage done total, w, _, w' => w' = { w with stages := w.stages ++ [(done,total)] }
  | .sendGet url, w, reply, w' => w' = match reply with
    | .ok body => { w with served := w.served ++ [(url,body)] }
    | .error _ => w
  | .loadSettings, w, _, w' => w' = w
  | .setupTrustManager _, w, _, w' => w' = w
  | .splashScreen, w, _, w' => w' = w
  | .checkPermissions, w, reply, w' => w' = { w with dialogs := w.dialogs + reply.dialogs }
  | .initJava, w, reply, w' => ∃ files, w' = { w with files := files, dialogs := w.dialogs + reply.dialogs }
  | .makeRepoDir, w, _, w' => w' = w
  | .update _ _ _, w, reply, w' => ∃ files, w' = { w with files := files, dialogs := w.dialogs + reply.dialogs }
  | .updateLauncherArgs _ _, w, _, w' => ∃ files, w' = { w with files := files }
  | .fatalErrorDialog, w, _, w' => w' = { w with dialogs := w.dialogs + 1 }
  | .getJava, w, _, w' => w' = w
  | .startClient _, w, _, w' => w' = w

/-- The operations by which the repository directory is brought up to date, among
    those that change files only the ones on the given name. -/
def Op.touches (name : String) : Op → Prop
  | .delete other | .newOutputStream other | .write other _ _ => other = name
  | .listFiles | .isFile _ | .hash _ | .isCompatible | .connect _ | .gunzip _ | .applyDelta _ _ | .stage _ _ => True
  | _ => False

def Op.syncs (op : Op) : Prop := ∃ name, Op.touches name op

/-! ## Small facts about the effects -/

theorem only_ask {allowed : Op → Prop} {op : Op} (ok : allowed op) :
    @Only launcher Thrown _ allowed (ask op) := only_perform ok

@[simp] theorem set_files (w : World) (path : String) (node : Option Node) :
    (w.set path node).files = Function.update w.files path node := rfl

/-- Writing at the end appends. -/
theorem overwrite_end (content buffer : Bytes) : overwrite content content.length buffer = content ++ buffer := by
  simp [overwrite]

theorem overwrite_directory {position : Nat} {buffer : Bytes} {node : Option Node}
    (directory : Node.overwrite position buffer node = some .directory) : node = some .directory := by
  match node with
  | none => exact directory
  | some (.file content) => cases directory
  | some .directory => rfl
  | some .damaged => exact directory

/-- The dialogs that are opened while an operation is performed. -/
def opened : (op : Op) → Reply op → Nat
  | .checkPermissions, reply => reply.dialogs
  | .initJava, reply => reply.dialogs
  | .update _ _ _, reply => reply.dialogs
  | .fatalErrorDialog, _ => 1
  | _, _ => 0

/-- The operations that change one file. -/
def Op.sets (name : String) : Op → Prop
  | .delete other | .newOutputStream other | .write other _ _ => other = name
  | _ => False

/-- The stages of `main` that may change any file. -/
def Op.installs : Op → Prop
  | .initJava | .update _ _ _ | .updateLauncherArgs _ _ => True
  | _ => False

/-- What one operation does: to the dialogs, to the answers on record, and to the
    files, of which it makes none a directory that was none. -/
structure Effect (locate : String → String) (op : Op) (reply : Reply op) (w w' : World) : Prop where
  dialogs : w'.dialogs = w.dialogs + opened op reply
  served : ∃ new, w'.served = w.served ++ new
  files : w'.files = w.files ∨
    (∃ name node, Op.sets name op ∧ w'.files = Function.update w.files (locate name) node ∧
      (node = some .directory → w.files (locate name) = some .directory)) ∨
    Op.installs op

section
variable {sha256 : Bytes → String} {locate : String → String} {op : Op} {w w' : World} {reply : Reply op}

theorem effect_same (silent : opened op reply = 0) : Effect locate op reply w w :=
  ⟨by rw [silent,Nat.add_zero],⟨[],(List.append_nil _).symm⟩,.inl rfl⟩

theorem effect_set {name : String} {node : Option Node} (silent : opened op reply = 0) (sets : Op.sets name op)
    (plain : node = some .directory → w.files (locate name) = some .directory) :
    Effect locate op reply w (w.set (locate name) node) :=
  ⟨by rw [silent]; rfl,⟨[],(List.append_nil _).symm⟩,.inr (.inl ⟨name,node,sets,rfl,plain⟩)⟩

theorem reacts_effect (reacts : Reacts sha256 locate op w reply w') : Effect locate op reply w w' := by
  cases op with
  | delete name =>
    obtain ⟨gone,rfl⟩ : ∃ gone : Bool, w' = if gone = true then w.set (locate name) none else w := ⟨reply,reacts⟩
    split
    · exact effect_set rfl rfl nofun
    · exact effect_same rfl
  | newOutputStream name =>
    rcases reacts with ⟨-,-,rfl⟩ | ⟨-,rfl⟩
    · exact effect_set rfl rfl nofun
    · exact effect_same rfl
  | write name position buffer =>
    rcases reacts with ⟨-,rfl⟩ | ⟨-,n,rfl⟩
    · exact effect_set rfl rfl overwrite_directory
    · exact effect_set rfl rfl overwrite_directory
  | sendGet url =>
    cases reply with
    | ok body =>
      have recorded : w' = { w with served := w.served ++ [(url,body)] } := reacts
      rw [recorded]
      exact ⟨rfl,⟨_,rfl⟩,.inl rfl⟩
    | error thrown =>
      obtain rfl : w' = w := reacts
      exact effect_same rfl
  | isFile name | hash name =>
    obtain rfl : w' = w := reacts.1
    exact effect_same rfl
  | connect url =>
    obtain rfl : w' = { w with requests := w.requests ++ [url] } := reacts
    exact ⟨rfl,⟨[],(List.append_nil _).symm⟩,.inl rfl⟩
  | stage done total =>
    obtain rfl : w' = { w with stages := w.stages ++ [(done,total)] } := reacts
    exact ⟨rfl,⟨[],(List.append_nil _).symm⟩,.inl rfl⟩
  | checkPermissions =>
    obtain rfl : w' = { w with dialogs := w.dialogs + reply.dialogs } := reacts
    exact ⟨rfl,⟨[],(List.append_nil _).symm⟩,.inl rfl⟩
  | fatalErrorDialog =>
    obtain rfl : w' = { w with dialogs := w.dialogs + 1 } := reacts
    exact ⟨rfl,⟨[],(List.append_nil _).symm⟩,.inl rfl⟩
  | initJava | update bootstrap settings args | updateLauncherArgs bootstrap settings =>
    obtain ⟨files,rfl⟩ := reacts
    exact ⟨rfl,⟨[],(List.append_nil _).symm⟩,.inr (.inr trivial)⟩
  | _ =>
    obtain rfl : w' = w := reacts
    exact effect_same rfl

/-- What was answered to a request for the bootstrap stays on record. -/
theorem reacts_served (reacts : Reacts sha256 locate op w reply w') {answer : String × Bytes}
    (answered : answer ∈ w.served) : answer ∈ w'.served := by
  obtain ⟨new,served⟩ := (reacts_effect reacts).served
  rw [served]
  exact List.mem_append_left _ answered

private theorem touches_sets {name other : String} (touches : Op.touches name op) (sets : Op.sets other op) : other = name := by
  cases op <;> first | exact sets.elim | exact sets.symm.trans touches

private theorem touches_installs {name : String} (touches : Op.touches name op) : ¬ Op.installs op := by
  cases op <;> first | exact id | exact touches.elim

/-- Only the file of the name changes. -/
theorem reacts_frame (reacts : Reacts sha256 locate op w reply w') {name : String} (touches : Op.touches name op)
    {path : String} (other : path ≠ locate name) : w'.files path = w.files path := by
  rcases (reacts_effect reacts).files with same | ⟨set,node,sets,same,-⟩ | installs
  · rw [same]
  · rw [same,touches_sets touches sets,Function.update_of_ne other]
  · exact absurd installs (touches_installs touches)

/-- Synchronising makes no directory. -/
theorem reacts_plain (reacts : Reacts sha256 locate op w reply w') (syncs : Op.syncs op) {path : String}
    (plain : w.files path ≠ some .directory) : w'.files path ≠ some .directory := by
  obtain ⟨name,touches⟩ := syncs
  rcases (reacts_effect reacts).files with same | ⟨set,node,-,same,kept⟩ | installs
  · rwa [same]
  · rw [same]
    by_cases here : path = locate set
    · subst here
      rw [Function.update_self]
      exact mt kept plain
    · rwa [Function.update_of_ne here]
  · exact absurd installs (touches_installs touches)

end

/-! ## An executable environment -/

/-- Surroundings in which every operation succeeds that can: `serve` answers the
    requests, names are files, and of these the ones in `names` are listed. -/
def calm (sha256 : Bytes → String) (serve : Option String → Bytes) (names : List String) : Handler launcher World
  | .listFiles, w => (some (names.filter fun name => (w.files name).isSome),w)
  | .isFile name, w => (Node.isFile (w.files name),w)
  | .delete name, w => (true,w.set name none)
  | .hash name, w => (Node.hash sha256 (w.files name),w)
  | .newOutputStream name, w =>
    if w.files name = some .directory then (.error .io,w) else (.ok (),w.set name (some (.file [])))
  | .write name position buffer, w => (.ok (),w.set name (Node.overwrite position buffer (w.files name)))
  | .isCompatible, w => (true,w)
  | .connect url, w => (.stream [serve url] false,{ w with requests := w.requests ++ [url] })
  | .gunzip _, w => (.ok (),w)
  | .applyDelta _ _, w => (⟨[],none⟩,w)
  | .stage done total, w => ((),{ w with stages := w.stages ++ [(done,total)] })
  | .sendGet url, w => (.ok (serve (some url)),{ w with served := w.served ++ [(url,serve (some url))] })
  | .loadSettings, w => ({},w)
  | .setupTrustManager _, w => (.ok (),w)
  | .splashScreen, w => (.ok (),w)
  | .checkPermissions, w => ({ result := .ok false },w)
  | .initJava, w => ({ result := .ok () },w)
  | .makeRepoDir, w => (true,w)
  | .update _ _ _, w => ({ result := .ok () },w)
  | .updateLauncherArgs _ _, w => (.ok (),w)
  | .fatalErrorDialog, w => ((),{ w with dialogs := w.dialogs + 1 })
  | .getJava, w => (.ok "java",w)
  | .startClient _, w => (.ok (),w)

theorem calm_reacts (sha256 : Bytes → String) (serve : Option String → Bytes) (names : List String) (op : Op)
    (w : World) : Reacts sha256 id op w (calm sha256 serve names op w).1 (calm sha256 serve names op w).2 := by
  cases op with
  | isFile name => exact ⟨rfl,rfl⟩
  | hash name => exact ⟨rfl,.inl rfl⟩
  | newOutputStream name =>
    by_cases directory : w.files name = some .directory
    · simp only [calm,directory,if_true]
      exact .inr ⟨⟨_,rfl⟩,rfl⟩
    · simp only [calm,directory,if_false]
      exact .inl ⟨rfl,directory,rfl⟩
  | write name position buffer => exact .inl ⟨rfl,rfl⟩
  | initJava => exact ⟨w.files,rfl⟩
  | update bootstrap settings args => exact ⟨w.files,rfl⟩
  | updateLauncherArgs bootstrap settings => exact ⟨w.files,rfl⟩
  | _ => exact rfl

end OpenRune.Operations
