import OpenRune.Operations

/-!
# The Java installer

`JavaInstaller.init` keeps three things in one directory: the archive `java.zip`,
the files that it has unpacked from it, and `java_hash.txt`, which holds the
checksum of the last archive that was installed. Any run can be cut off between
two operations, so the operations are as small as the steps in which files change.
-/
namespace OpenRune.JavaInstaller
open OpenRune.Java OpenRune.Programs
open OpenRune.Operations (Bytes)

/-! ## The version to install -/

/-- The keys of `java_versions.properties` for one platform. -/
structure Keys where
  version : String
  checksum : String
  downloadLink : String
  deriving DecidableEq, Repr

def keysOf (platform : String) : Keys := ⟨platform ++ "_VERSION",platform ++ "_CHKSUM",platform ++ "_LINK"⟩

/-- The choice at the start of `init`; an architecture without 64 in its name
    counts as the other one. -/
def selectKeys (os arch : String) : Option Keys :=
  let os := toLowerCase os.toList
  let is64 := contains (toLowerCase arch.toList) "64".toList
  if contains os "win".toList then some (keysOf (if is64 then "WIN64" else "WIN32"))
  else if contains os "mac".toList then some (keysOf (if is64 then "MAC_AMD64" else "MAC_AARCH64"))
  else if contains os "linux".toList then some (keysOf (if is64 then "LINUX_AMD64" else "LINUX_AARCH64"))
  else none

/-- `getValue`: what follows the first `=` of the first line that begins with the key. -/
def getValue (lines : List String) (key : String) : Except Thrown (Option String) :=
  match lines.find? fun line => key.toList.isPrefixOf line.toList with
  | none => .ok none
  | some line =>
    match (split (· == '=') line.toList)[1]? with
    | none => .error .unchecked
    | some value => .ok (some (String.ofList (trim (String.ofList value))))

/-! ## Operations -/

/-- One entry of an archive as it is read: a file comes in pieces, and reading it
    may end with an exception. -/
inductive Entry
  | directory (name : String)
  | file (name : String) (reads : List Bytes) (cut : Option Thrown)
  deriving DecidableEq, Repr

/-- What a `ZipInputStream` delivers: the entries it comes to, and the exception
    that looking for the next one ends with. -/
structure Archive where
  entries : List Entry
  stopped : Option Thrown
  deriving DecidableEq, Repr

/-- The answer of a server: a failure before the body, or a status and a body. -/
inductive Connection
  | failed (thrown : Thrown)
  | answered (responseCode contentLength : Int) (reads : List Bytes) (cut : Bool)
  deriving DecidableEq, Repr

/-- Files are named relative to the directory `SAVE_LOC`, which is the name "". -/
inductive Op
  | showWindow (message : String)
  | forceJava (file : String)
  | mkdirs (file : String)
  | createDirectories (file : String)
  | fileExists (file : String)
  | readLine (file : String)
  | digest (file : String)
  | stage (percent : Int) (actionText subActionText : String)
  | connect (url : String)
  | newFileOutputStream (file : String)
  | newFileWriter (file : String)
  | write (file : String) (buffer : Bytes)
  | delete (file : String)
  | renameTo (file target : String)
  | length (file : String)
  | newZipInputStream (file : String)
  | walkFileTree (file : String)

def Reply : Op → Type
  | .showWindow _ => Unit
  | .forceJava _ => Unit
  | .mkdirs _ => Unit
  | .createDirectories _ => Except Thrown Unit
  | .fileExists _ => Bool
  | .readLine _ => Except Thrown (Option String)
  | .digest _ => Except Thrown String
  | .stage _ _ _ => Unit
  | .connect _ => Connection
  | .newFileOutputStream _ => Except Thrown Unit
  | .newFileWriter _ => Except Thrown Unit
  | .write _ _ => Except Thrown Unit
  | .delete _ => Bool
  | .renameTo _ _ => Bool
  | .length _ => Nat
  | .newZipInputStream _ => Except Thrown Archive
  | .walkFileTree _ => Except Thrown Unit

abbrev installer : Signature := ⟨Op,Reply⟩

abbrev Installing (α : Type) := Program installer Thrown α

def ask (op : Op) : Installing (Reply op) := @perform installer Thrown op

/-! ## Reading and verifying -/

/-- `File(SAVE_LOC,"java.zip")`. -/
def javaZip : String := "java.zip"

/-- `LOCAL_HASH_FILE`. -/
def localHashFile : String := "java_hash.txt"

def readLocalHash : Installing (Option String) := do
  match ← ask (.readLine localHashFile) with
  | .ok line => return line
  | .error thrown => if thrown.isIOException then return none else throw thrown

/-- Both checksums are compared in lower case. -/
def sameChecksum (actual expected : String) : Bool := decide (toLowerCase actual.toList = toLowerCase expected.toList)

/-- The `catch` takes every `Exception`, that of a missing expectation included. -/
def verifyChecksum (file : String) (expectedChecksum : Option String) : Installing Bool := do
  match ← ask (.digest file) with
  | .ok actual => return (expectedChecksum.map (sameChecksum actual)).getD false
  | .error thrown => if thrown.isException then return false else throw thrown

/-- The condition under which `init` leaves everything as it is. -/
def isInstalled (javaChecksum localHash : Option String) : Installing Bool := do
  let present : Bool ← ask (.fileExists javaZip)
  if present then
    let expected ← ofOutcome (deref javaChecksum)
    if some expected = localHash then verifyChecksum javaZip (some expected) else return false
  else return false

/-! ## Downloading -/

/-- `stage` with a progress in percent. -/
def showProgress (progress : Int) (subActionText : String) : Installing Unit :=
  ask (.stage progress (toString progress ++ "%") subActionText)

/-- The progress in the loop of `downloadFile`; a content length of 0 divides by zero. -/
def downloadPercent (contentLength totalBytesRead : Int) : Except Thrown Int :=
  if contentLength = 0 then .error .unchecked
  else .ok (int32 ((int64 (totalBytesRead * 100)).tdiv contentLength))

/-- One turn of the loop of `downloadFile`. -/
def downloadBuffer (contentLength totalBytesRead : Int) (buffer : Bytes) : Installing Int := do
  ofOutcome (← ask (.write javaZip buffer))
  let totalBytesRead := int64 (totalBytesRead + buffer.length)
  let progress ← ofOutcome (downloadPercent contentLength totalBytesRead)
  showProgress progress "Downloading Java"
  return totalBytesRead

/-- The end of `downloadFile`; the file that was written is already `java.zip`. -/
def acceptDownload (expectedChecksum : Option String) : Installing String := do
  let verified ← verifyChecksum javaZip expectedChecksum
  if verified then
    let _ ← ask (.renameTo javaZip javaZip)
    return javaZip
  else
    ask (.stage 0 "Checksum verification failed." "Deleting the downloaded file.")
    let _ ← ask (.delete javaZip)
    ask (.showWindow "Checksum verification failed.")
    throw .io

def downloadFile (fileURL expectedChecksum : Option String) : Installing String := do
  match fileURL with
  | none => throw .io
  | some url =>
    match ← ask (.connect url) with
    | .failed thrown => throw thrown
    | .answered responseCode contentLength reads cut =>
      if responseCode = 200 then
        ofOutcome (← ask (.newFileOutputStream javaZip))
        let _ ← reads.foldlM (downloadBuffer contentLength) 0
        if cut then throw .io else acceptDownload expectedChecksum
      else
        ask (.showWindow ("Failed to download file. HTTP error code: " ++ toString responseCode))
        throw .io

/-! ## Unpacking -/

/-- The surroundings of the installer: `locate` takes a name below `SAVE_LOC` to the
    file it denotes, `contents` lists the file entries of an archive in order. -/
structure Surroundings where
  sha256 : Bytes → String
  contents : Bytes → List (String × Bytes)
  encode : String → Bytes
  firstLine : Bytes → Option String
  getParentFile : String → String
  locate : String → String
  distinct : locate javaZip ≠ locate localHashFile

theorem javaZip_ne : javaZip ≠ localHashFile := by decide

/-- The progress in the inner loop of `unzip`. -/
def unzipPercent (totalSize : Nat) (extractedSize : Int) : Except Thrown Int :=
  if totalSize = 0 then .error .unchecked
  else .ok (int32 (min 100 ((int64 (extractedSize * 100)).tdiv totalSize)))

/-- One turn of the inner loop of `unzip`. -/
def unzipBuffer (totalSize : Nat) (name : String) (extractedSize : Int) (buffer : Bytes) : Installing Int := do
  ofOutcome (← ask (.write name buffer))
  let extractedSize := int64 (extractedSize + buffer.length)
  let progress ← ofOutcome (unzipPercent totalSize extractedSize)
  showProgress progress "Unzipping Java"
  return extractedSize

def makeParent (host : Surroundings) (name : String) : Installing Unit := do
  let present : Bool ← ask (.fileExists (host.getParentFile name))
  if present then return () else ask (.mkdirs (host.getParentFile name))

def unzipEntry (host : Surroundings) (totalSize : Nat) (extractedSize : Int) : Entry → Installing Int
  | .directory name => do
    ask (.mkdirs name)
    return extractedSize
  | .file name reads cut => do
    makeParent host name
    ofOutcome (← ask (.newFileOutputStream name))
    let extractedSize ← reads.foldlM (unzipBuffer totalSize name) extractedSize
    match cut with
    | some thrown => throw thrown
    | none => return extractedSize

def unzip (host : Surroundings) (zipFile : String) : Installing Unit := do
  let archive : Archive ← ofOutcome (← ask (.newZipInputStream zipFile))
  let totalSize : Nat ← ask (.length zipFile)
  let _ ← archive.entries.foldlM (unzipEntry host totalSize) 0
  match archive.stopped with
  | some thrown => throw thrown
  | none => return ()

/-! ## Installing -/

/-- The visitor does nothing, so only the walk itself can fail. -/
def processFiles : Installing Unit := do
  ofOutcome (← ask (.walkFileTree ""))

/-- `storeLocalHash` before its `catch`; a missing checksum is noticed by `write`. -/
def writeLocalHash (host : Surroundings) (hash : Option String) : Installing Unit := do
  ofOutcome (← ask (.newFileWriter localHashFile))
  let text ← ofOutcome (deref hash)
  ofOutcome (← ask (.write localHashFile (host.encode text)))

def storeLocalHash (host : Surroundings) (hash : Option String) : Installing Unit :=
  tryCatch (writeLocalHash host hash) fun thrown => if thrown.isIOException then return () else throw thrown

def install (host : Surroundings) (javaChecksum javaDownloadLink : Option String) : Installing Unit := do
  let javaFile ← downloadFile javaDownloadLink javaChecksum
  ofOutcome (← ask (.createDirectories ""))
  unzip host javaFile
  processFiles
  storeLocalHash host javaChecksum
  ask (.stage 0 "" "Finished Downloading Java")

/-- What a launch brings to `init`: the system properties, and the lines of
    `java_versions.properties` in its launcher. -/
structure Launch where
  os : String
  arch : String
  lines : List String

/-- How `init` has ended; `failed` after an `IOException` that it has printed. -/
inductive Ending
  | unsupported
  | skipped
  | installed
  | failed
  deriving DecidableEq, Repr

/-- The body of the `try` of `init`. -/
def ensureInstalled (host : Surroundings) (lines : List String) (keys : Keys) : Installing Ending := do
  let version ← ofOutcome (getValue lines keys.version)
  ask (.forceJava ("jdk-" ++ version.getD "null" ++ "-jre"))
  ask (.mkdirs "")
  let javaChecksum ← ofOutcome (getValue lines keys.checksum)
  let javaDownloadLink ← ofOutcome (getValue lines keys.downloadLink)
  let localHash ← readLocalHash
  ask (.stage 20 "" "Verifying Java")
  let current ← isInstalled javaChecksum localHash
  if current then return .skipped
  else
    install host javaChecksum javaDownloadLink
    return .installed

/-- `JavaInstaller.init`, which returns nothing; the branch it takes is given here. -/
def init (host : Surroundings) (launch : Launch) : Installing Ending :=
  match selectKeys launch.os launch.arch with
  | none => do
    ask (.showWindow "Unsupported OS")
    return .unsupported
  | some keys =>
    tryCatch (ensureInstalled host launch.lines keys) fun thrown =>
      if thrown.isIOException then return .failed else throw thrown

/-! ## Effects -/

/-- The files, and what a run has done so far: the archive that it is unpacking, and
    whether it has come to open `java_hash.txt`; `installed` is the archive that was
    unpacked last, unless the unpacking has not come to its end. -/
structure World where
  files : String → Option Bytes
  unpacking : Option Bytes := none
  installed : Option Bytes := none
  marked : Bool := false

def World.set (w : World) (path : String) (content : Option Bytes) : World :=
  { w with files := Function.update w.files path content }

@[simp] theorem World.set_files (w : World) (path : String) (content : Option Bytes) :
    (w.set path content).files = Function.update w.files path content := rfl

/-- A run begins. -/
def World.begin (w : World) : World := { w with unpacking := none, marked := false }

/-- The archive was read to its end. -/
def Archive.complete (archive : Archive) : Prop :=
  archive.stopped = none ∧ ∀ name reads cut, .file name reads cut ∈ archive.entries → cut = none

/-- The file entry with its whole content. -/
def Entry.content : Entry → Option (String × Bytes)
  | .directory _ => none
  | .file name reads _ => some (name,reads.flatten)

/-- What any surroundings may do, where nobody else touches the directory. -/
def Reacts (host : Surroundings) : Environment installer World
  | .showWindow _, w, _, w' => w' = w
  | .forceJava _, w, _, w' => w' = w
  | .mkdirs _, w, _, w' => w' = w
  | .createDirectories _, w, _, w' => w' = w
  | .fileExists file, w, (reply : Bool), w' => w' = w ∧ ((w.files (host.locate file)).isSome = true → reply = true)
  | .readLine file, w, reply, w' => w' = w ∧
    ((∃ content, w.files (host.locate file) = some content ∧ reply = .ok (host.firstLine content)) ∨
      ∃ thrown, reply = .error thrown)
  | .digest file, w, reply, w' => w' = w ∧
    ((∃ content, w.files (host.locate file) = some content ∧ reply = .ok (host.sha256 content)) ∨
      ∃ thrown, reply = .error thrown)
  | .stage _ _ _, w, _, w' => w' = w
  | .connect _, w, _, w' => w' = w
  | .newFileOutputStream file, w, reply, w' =>
    (reply = .ok () ∧ w' = w.set (host.locate file) (some [])) ∨ ((∃ thrown, reply = .error thrown) ∧ w' = w)
  | .newFileWriter file, w, reply, w' =>
    (reply = .ok () ∧ w' = { w.set (host.locate file) (some []) with marked := true }) ∨
      ((∃ thrown, reply = .error thrown) ∧ w' = { w with marked := true })
  | .write file buffer, w, reply, w' =>
    (reply = .ok () ∧ w' = w.set (host.locate file) ((w.files (host.locate file)).map (· ++ buffer))) ∨
      ((∃ thrown, reply = .error thrown) ∧
        ∃ n, w' = w.set (host.locate file) ((w.files (host.locate file)).map (· ++ buffer.take n)))
  | .delete file, w, (reply : Bool), w' => w' = if reply = true then w.set (host.locate file) none else w
  | .renameTo file target, w, (reply : Bool), w' => w' = if reply = true ∧ host.locate file ≠ host.locate target then
      (w.set (host.locate target) (w.files (host.locate file))).set (host.locate file) none else w
  | .length file, w, reply, w' => w' = w ∧ reply = ((w.files (host.locate file)).map List.length).getD 0
  | .newZipInputStream file, w, reply, w' => w' = { w with unpacking := w.files (host.locate file), installed := none } ∧
    match reply with
    | .ok archive => ∃ content, w.files (host.locate file) = some content ∧
      (archive.complete → archive.entries.filterMap Entry.content = host.contents content)
    | .error _ => True
  | .walkFileTree _, w, _, w' => w' = { w with installed := w.unpacking }

/-- The whole archive at once. -/
def archiveOf (host : Surroundings) (content : Bytes) : Archive :=
  ⟨(host.contents content).map fun file => .file file.1 [file.2] none,none⟩

/-- Surroundings in which every operation succeeds that can. -/
def calm (host : Surroundings) (serve : String → Bytes) : Handler installer World
  | .showWindow _, w => ((),w)
  | .forceJava _, w => ((),w)
  | .mkdirs _, w => ((),w)
  | .createDirectories _, w => (.ok (),w)
  | .fileExists file, w => ((w.files (host.locate file)).isSome,w)
  | .readLine file, w => match w.files (host.locate file) with
    | some content => (.ok (host.firstLine content),w)
    | none => (.error .fileNotFound,w)
  | .digest file, w => match w.files (host.locate file) with
    | some content => (.ok (host.sha256 content),w)
    | none => (.error .fileNotFound,w)
  | .stage _ _ _, w => ((),w)
  | .connect url, w => (.answered 200 (serve url).length [serve url] false,w)
  | .newFileOutputStream file, w => (.ok (),w.set (host.locate file) (some []))
  | .newFileWriter file, w => (.ok (),{ w.set (host.locate file) (some []) with marked := true })
  | .write file buffer, w => (.ok (),w.set (host.locate file) ((w.files (host.locate file)).map (· ++ buffer)))
  | .delete file, w => (true,w.set (host.locate file) none)
  | .renameTo _ _, w => (false,w)
  | .length file, w => (((w.files (host.locate file)).map List.length).getD 0,w)
  | .newZipInputStream file, w => match w.files (host.locate file) with
    | some content => (.ok (archiveOf host content),{ w with unpacking := some content, installed := none })
    | none => (.error .fileNotFound,{ w with unpacking := none, installed := none })
  | .walkFileTree _, w => (.ok (),{ w with installed := w.unpacking })

theorem calm_reacts (host : Surroundings) (serve : String → Bytes) (op : Op) (w : World) :
    Reacts host op w (calm host serve op w).1 (calm host serve op w).2 := by
  cases op with
  | fileExists file => exact ⟨rfl,id⟩
  | readLine file | digest file =>
    cases found : w.files (host.locate file) with
    | none =>
      simp only [calm,found]
      exact ⟨rfl,.inr ⟨_,rfl⟩⟩
    | some content =>
      simp only [calm,found]
      exact ⟨rfl,.inl ⟨content,found,rfl⟩⟩
  | newFileOutputStream file | newFileWriter file | write file buffer => exact .inl ⟨rfl,rfl⟩
  | length file => exact ⟨rfl,rfl⟩
  | newZipInputStream file =>
    cases found : w.files (host.locate file) with
    | none =>
      simp only [calm,found]
      exact ⟨by rw [found],trivial⟩
    | some content =>
      simp only [calm,found]
      refine ⟨by rw [found],content,found,fun _ => ?_⟩
      simp [archiveOf,List.filterMap_map,Function.comp_def,Entry.content]
  | _ => exact rfl

end OpenRune.JavaInstaller
