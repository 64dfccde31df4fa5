import OpenRune.DotSegments
import OpenRune.JavaInstaller

/-!
# Where an archive is extracted

`JavaInstaller.unzip` puts every entry below the destination by its name, and a
name can lead out of it. What is created then depends on which entries it comes to:
a file can not be opened in the place of a directory, or below another file.
-/
namespace OpenRune.Extraction
open OpenRune.Java OpenRune.Programs OpenRune.JavaInstaller OpenRune.DotSegments

inductive Kind
  | directory
  | file
  deriving DecidableEq, Repr

/-- What exists, and the paths that were created or overwritten. -/
structure Disk where
  kind : List String → Option Kind
  touched : List (List String) := []

namespace Disk

/-- `mkdirs`: the missing directories on the way, unless a file is in the way. -/
def makeDirectories (disk : Disk) (path : List String) : Disk :=
  if ∀ place ∈ path.inits, disk.kind place ≠ some .file then
    { kind := fun place => if disk.kind place = none ∧ place <+: path then some .directory else disk.kind place
      touched := disk.touched ++ path.inits.filter fun place => decide (disk.kind place = none) }
  else disk

/-- A file can be opened where a directory is above it and none in its place. -/
def CanOpen (disk : Disk) (path : List String) : Prop :=
  path ≠ [] ∧ disk.kind path.dropLast = some .directory ∧ disk.kind path ≠ some .directory

def openFile (disk : Disk) (path : List String) : Disk where
  kind := Function.update disk.kind path (some .file)
  touched := disk.touched ++ [path]

@[simp] theorem openFile_kind (disk : Disk) (path : List String) :
    (disk.openFile path).kind = Function.update disk.kind path (some .file) := rfl

end Disk

/-- The separators of the system; `/` is one of them everywhere. -/
structure Separators where
  separates : Char → Bool
  slash : separates '/' = true
  dot : separates '.' = false

section
variable (separators : Separators) (destDir : List String)

/-- `new File(destDir,name)`, resolved. -/
def locate (name : String) : List String := resolve destDir (segments separators.separates name)

/-- `getParentFile`, as a name below the destination again. -/
def getParentFile (name : String) : String :=
  match segments separators.separates name with
  | [] => ".."
  | parts => "/".intercalate parts.dropLast

/-- What any file system may do, where nobody else touches it. -/
def Extracts (archive : Archive) : Environment installer Disk
  | .fileExists name, disk, (reply : Bool), disk' =>
    disk' = disk ∧ reply = (disk.kind (locate separators destDir name)).isSome
  | .mkdirs name, disk, _, disk' =>
    disk' = disk ∨ ∃ n, disk' = disk.makeDirectories ((locate separators destDir name).take n)
  | .newFileOutputStream name, disk, reply, disk' => ((∃ thrown, reply = .error thrown) ∧ disk' = disk) ∨
    (reply = .ok () ∧ disk.CanOpen (locate separators destDir name) ∧
      disk' = disk.openFile (locate separators destDir name))
  | .newZipInputStream _, disk, reply, disk' => disk' = disk ∧ (reply = .ok archive ∨ ∃ thrown, reply = .error thrown)
  | .length _, disk, (reply : Nat), disk' => disk' = disk ∧ reply ≠ 0
  | _, disk, _, disk' => disk' = disk

/-- The destination and the directories above it exist, and every place that
    exists is in a directory. -/
structure Ready (disk : Disk) : Prop where
  above : ∀ place, place <+: destDir → disk.kind place = some .directory
  rooted : ∀ place name, disk.kind (place ++ [name]) ≠ none → disk.kind place = some .directory

/-- Nothing was created or overwritten but below the destination. -/
def Beneath (disk : Disk) : Prop := ∀ path ∈ disk.touched, destDir <+: path

/-! ## The condition -/

/-- A file that can be opened where these were: it is no directory above, and
    neither below another nor above it. -/
def Opens (opened : List (List String)) (path : List String) : Prop :=
  ¬ path <+: destDir ∧ ∀ other ∈ opened, Near other path → other = path

/-- No entry that the extraction comes to is anywhere but below the destination,
    or where a directory already is; nor is the directory of a file. -/
def Confined (opened : List (List String)) : List Entry → Prop
  | [] => True
  | .directory name :: rest => Near destDir (locate separators destDir name) ∧ Confined opened rest
  | .file name _ cut :: rest =>
    Near destDir (locate separators destDir (getParentFile separators name)) ∧
      Near destDir (locate separators destDir name) ∧
      (cut = none → Opens destDir opened (locate separators destDir name) →
        Confined (locate separators destDir name :: opened) rest)

end

/-! ## Names without `..` -/

section
variable {separators : Separators} {destDir : List String}

/-- The parent of a name is the name without its last segment. -/
theorem locate_parent (name : String) : locate separators destDir (getParentFile separators name) =
    if segments separators.separates name = [] then destDir.dropLast
    else resolve destDir (segments separators.separates name).dropLast := by
  unfold locate getParentFile
  have whole := segments_whole separators.separates name
  cases parts : segments separators.separates name with
  | nil =>
    have dots : segments separators.separates ".." = [".."] := by
      refine segments_single (by decide) fun c member => ?_
      obtain rfl : c = '.' := by simpa using member
      exact separators.dot
    rw [if_pos rfl,dots]
    rfl
  | cons part rest =>
    rw [parts] at whole
    have joined : segments separators.separates ("/".intercalate (part :: rest).dropLast) = (part :: rest).dropLast :=
      segments_intercalate separators.slash fun other member => whole other (List.dropLast_subset _ member)
    rw [if_neg (by simp),joined]

def nameOf : Entry → String
  | .directory name => name
  | .file name _ _ => name

/-- An archive without `..` in its names is confined, whatever else they are. -/
theorem confined_plain {entries : List Entry}
    (plain : ∀ entry ∈ entries, ".." ∉ segments separators.separates (nameOf entry)) (opened : List (List String)) :
    Confined separators destDir opened entries := by
  have inside : ∀ {parts : List String}, ".." ∉ parts → Near destDir (resolve destDir parts) := fun absent =>
    .inl (resolve_below destDir absent)
  induction entries generalizing opened with
  | nil => trivial
  | cons entry rest ih =>
    have later := ih fun other member => plain other (List.mem_cons_of_mem entry member)
    have absent := plain entry List.mem_cons_self
    cases entry with
    | directory name => exact ⟨inside absent,later opened⟩
    | file name reads cut =>
      refine ⟨?_,inside absent,fun _ _ => later _⟩
      rw [locate_parent]
      split
      · exact .inr (List.dropLast_prefix destDir)
      · exact inside fun member => absent (List.dropLast_subset _ member)

end

/-! ## Confined entries stay below -/

section
variable {separators : Separators} {destDir : List String} {disk : Disk}

theorem makeDirectories_file {path place : List String} (file : disk.kind place = some .file) :
    (disk.makeDirectories path).kind place = some .file := by
  unfold Disk.makeDirectories
  split
  · simp [file]
  · exact file

theorem makeDirectories_ready (ready : Ready destDir disk) (path : List String) :
    Ready destDir (disk.makeDirectories path) := by
  unfold Disk.makeDirectories
  split
  · next free =>
    refine ⟨fun place above => by simp [ready.above place above],?_⟩
    intro place name found
    by_cases made : disk.kind (place ++ [name]) = none ∧ place ++ [name] <+: path
    · have onTheWay : place <+: path := (List.prefix_append place [name]).trans made.2
      have noFile := free place ((List.mem_inits _ _).mpr onTheWay)
      cases there : disk.kind place with
      | none => simp [there,onTheWay]
      | some kind =>
        cases kind with
        | directory => simp [there]
        | file => exact absurd there noFile
    · simp only [if_neg made] at found
      simp [ready.rooted place name found]
  · exact ready

theorem makeDirectories_beneath (ready : Ready destDir disk) (beneath : Beneath destDir disk) {path : List String}
    (near : Near destDir path) : Beneath destDir (disk.makeDirectories path) := by
  unfold Disk.makeDirectories
  split
  · intro place member
    rcases List.mem_append.mp member with before | made
    · exact beneath place before
    · obtain ⟨onTheWay,missing⟩ := List.mem_filter.mp made
      rcases near_between near ((List.mem_inits _ _).mp onTheWay) with below | above
      · exact below
      · rw [ready.above place above] at missing
        simp at missing
  · exact beneath

theorem openFile_ready (ready : Ready destDir disk) {path : List String} (can : disk.CanOpen path) :
    Ready destDir (disk.openFile path) := by
  obtain ⟨filled,within,free⟩ := can
  constructor
  · intro place above
    have other : place ≠ path := fun same => free (same ▸ ready.above place above)
    rw [Disk.openFile_kind,Function.update_of_ne other]
    exact ready.above place above
  · intro place name found
    have there : disk.kind place = some .directory := by
      by_cases same : place ++ [name] = path
      · rw [← same,List.dropLast_concat] at within
        exact within
      · rw [Disk.openFile_kind,Function.update_of_ne same] at found
        exact ready.rooted place name found
    have other : place ≠ path := fun same => free (same ▸ there)
    rw [Disk.openFile_kind,Function.update_of_ne other]
    exact there

theorem openFile_beneath (ready : Ready destDir disk) (beneath : Beneath destDir disk) {path : List String}
    (can : disk.CanOpen path) (near : Near destDir path) : Beneath destDir (disk.openFile path) := by
  intro place member
  rcases List.mem_append.mp member with before | opened
  · exact beneath place before
  · obtain rfl := List.mem_singleton.mp opened
    exact near.resolve_right fun above => can.2.2 (ready.above place above)

/-- Above what exists there are directories only. -/
theorem ready_above (ready : Ready destDir disk) {place path : List String} (above : place <+: path)
    (other : place ≠ path) (found : disk.kind path ≠ none) : disk.kind place = some .directory := by
  obtain ⟨rest,rfl⟩ := above
  induction rest using List.reverseRecOn with
  | nil => simp at other
  | append_singleton rest name ih =>
    rw [← List.append_assoc] at found
    have within := ready.rooted _ _ found
    by_cases last : rest = []
    · subst last
      simpa using within
    · exact ih (by simpa using last) (by rw [within]; simp)

/-- What holds between two entries: the opened files are still there. -/
structure Extracted (separators : Separators) (destDir : List String) (opened : List (List String)) (disk : Disk) : Prop where
  ready : Ready destDir disk
  beneath : Beneath destDir disk
  files : ∀ path ∈ opened, disk.kind path = some .file

variable {archive : Archive} {opened : List (List String)}

theorem extracted_directory (extracted : Extracted separators destDir opened disk) {name : String}
    (near : Near destDir (locate separators destDir name)) {reply : Unit} {disk' : Disk}
    (reacts : Extracts separators destDir archive (.mkdirs name) disk reply disk') :
    Extracted separators destDir opened disk' := by
  rcases reacts with rfl | ⟨n,rfl⟩
  · exact extracted
  · obtain ⟨ready,beneath,files⟩ := extracted
    exact ⟨makeDirectories_ready ready _,
      makeDirectories_beneath ready beneath (near_between near (List.take_prefix n _)),
      fun path member => makeDirectories_file (files path member)⟩

/-- A file that was opened was one that can be. -/
theorem extracted_file (extracted : Extracted separators destDir opened disk) {path : List String}
    (near : Near destDir path) (can : disk.CanOpen path) :
    Opens destDir opened path ∧ Extracted separators destDir (path :: opened) (disk.openFile path) := by
  obtain ⟨ready,beneath,files⟩ := extracted
  have apart : ∀ other ∈ opened, Near other path → other = path := by
    intro other member close
    by_contra different
    rcases close with above | below
    · -- a file is above the directory of the path
      obtain ⟨rest,rfl⟩ := above
      have some : rest ≠ [] := by
        rintro rfl
        simp at different
      have within := can.2.1
      rw [List.dropLast_append_of_ne_nil some] at within
      have file := files other member
      by_cases direct : rest.dropLast = []
      · rw [direct,List.append_nil,file] at within
        cases within
      · have directory := ready_above ready (List.prefix_append other rest.dropLast) (by simpa using Ne.symm direct)
          (by rw [within]; simp)
        rw [file] at directory
        cases directory
    · exact can.2.2 (ready_above ready below (Ne.symm different) (by rw [files other member]; simp))
  refine ⟨⟨fun above => can.2.2 (ready.above path above),apart⟩,openFile_ready ready can,
    openFile_beneath ready beneath can near,?_⟩
  intro other member
  rcases List.mem_cons.mp member with rfl | later
  · simp
  · by_cases same : other = path
    · simp [same]
    · rw [Disk.openFile_kind,Function.update_of_ne same]
      exact files other later

/-- The surroundings with the parents of this file system. -/
def placed (separators : Separators) (host : Surroundings) : Surroundings :=
  { host with getParentFile := getParentFile separators }

/-- An operation that only changes what is in an open file. -/
def Op.inner : Op → Prop
  | .write _ _ => True
  | .stage _ _ _ => True
  | _ => False

theorem reading_inner (totalSize : Nat) (name : String) (reads : List Operations.Bytes) (extractedSize : Int) :
    Only Op.inner (reads.foldlM (unzipBuffer totalSize name) extractedSize) := by
  refine only_foldlM (fun size buffer => ?_) reads extractedSize
  refine only_bind (only_perform trivial) fun _ => only_bind (only_ofOutcome _) fun _ => ?_
  exact only_bind (only_ofOutcome _) fun _ => only_bind (only_perform trivial) fun _ => trivial

theorem reading_spec (extracted : Extracted separators destDir opened disk) (totalSize : Nat) (name : String)
    (reads : List Operations.Bytes) (extractedSize : Int) :
    Ensures (Extracts separators destDir archive) (fun _ t => Beneath destDir t)
      (reads.foldlM (unzipBuffer totalSize name) extractedSize) (fun _ t => t = disk) disk := by
  refine ensures_only (reading_inner totalSize name reads extractedSize) rfl ?_ ?_
  · rintro op t - rfl
    exact extracted.beneath
  · rintro op t reply u inner rfl reacts
    cases op with
    | write file buffer | stage percent action sub => exact reacts
    | _ => exact inner.elim

/-- One entry: afterwards the rest is confined as well. -/
theorem unzipEntry_spec (host : Surroundings) (extracted : Extracted separators destDir opened disk) {entry : Entry}
    {rest : List Entry} (confined : Confined separators destDir opened (entry :: rest)) (totalSize : Nat)
    (extractedSize : Int) :
    Ensures (Extracts separators destDir archive) (fun _ t => Beneath destDir t)
      (unzipEntry (placed separators host) totalSize extractedSize entry) (fun outcome t => match outcome with
        | .ok _ => ∃ opened', Extracted separators destDir opened' t ∧ Confined separators destDir opened' rest
        | .error _ => Beneath destDir t) disk := by
  cases entry with
  | directory name =>
    refine ensures_perform extracted.beneath ?_
    intro reply disk' reacts
    exact ⟨opened,extracted_directory extracted confined.1 reacts,confined.2⟩
  | file name reads cut =>
    obtain ⟨parentNear,near,later⟩ := confined
    have written (finish : Int → Installing Int)
        (finishes : ∀ size, (∃ thrown, finish size = throw thrown) ∨ cut = none ∧ finish size = pure size) (made : Disk)
        (there : Extracted separators destDir opened made) :
        Ensures (Extracts separators destDir archive) (fun _ t => Beneath destDir t) (do
          ofOutcome (← ask (.newFileOutputStream name))
          let extractedSize ← reads.foldlM (unzipBuffer totalSize name) extractedSize
          finish extractedSize) (fun outcome t => match outcome with
        | .ok _ => ∃ opened', Extracted separators destDir opened' t ∧ Confined separators destDir opened' rest
        | .error _ => Beneath destDir t) made := by
      refine ensures_perform there.beneath ?_
      rintro reply disk' (⟨⟨thrown,rfl⟩,rfl⟩ | ⟨rfl,can,rfl⟩)
      · exact there.beneath
      · obtain ⟨opens,file⟩ := extracted_file there near can
        refine ensures_outcome (fun _ _ => ?_) fun _ failed => by cases failed
        refine ensures_bind (ensures_mono (reading_spec file totalSize name reads extractedSize) ?_)
        rintro (thrown | size) disk' rfl
        · exact file.beneath
        · rcases finishes size with ⟨thrown,fails⟩ | ⟨uncut,ends⟩
          · simp only [fails]
            exact file.beneath
          · simp only [ends]
            exact ⟨_,file,later uncut opens⟩
    refine ensures_bind (ensures_perform extracted.beneath ?_)
    rintro (present : Bool) disk' ⟨rfl,-⟩
    cases present with
    | true =>
      refine written _ (fun size => ?_) disk' extracted
      cases cut with
      | some thrown => exact .inl ⟨thrown,rfl⟩
      | none => exact .inr ⟨rfl,rfl⟩
    | false =>
      refine ⟨extracted.beneath,fun reply made reacts => written _ (fun size => ?_) made ?_⟩
      · cases cut with
        | some thrown => exact .inl ⟨thrown,rfl⟩
        | none => exact .inr ⟨rfl,rfl⟩
      · exact extracted_directory extracted parentNear reacts

/-- With confined entries nothing is ever touched but below the destination. -/
theorem unzip_beneath (host : Surroundings) (ready : Ready destDir disk) (untouched : disk.touched = [])
    (confined : Confined separators destDir [] archive.entries) (zipFile : String) :
    Ensures (Extracts separators destDir archive) (fun _ t => Beneath destDir t)
      (unzip (placed separators host) zipFile) (fun _ t => Beneath destDir t) disk := by
  have beneath : Beneath destDir disk := by simp [Beneath,untouched]
  refine ensures_perform beneath ?_
  rintro reply disk' ⟨rfl,rfl | ⟨thrown,rfl⟩⟩
  · refine ensures_perform beneath ?_
    rintro (totalSize : Nat) disk' ⟨rfl,-⟩
    let Between : List Entry → Int → Disk → Prop := fun rest _ t => ∃ opened,
      Extracted separators destDir opened t ∧ Confined separators destDir opened rest
    have start : Between archive.entries 0 disk' := ⟨[],⟨ready,beneath,by simp⟩,confined⟩
    refine ensures_bind (ensures_foldlM start ?_ ?_)
    · rintro entry rest size t ⟨opened,extracted,confined⟩
      refine ensures_mono (unzipEntry_spec host extracted confined totalSize size) ?_
      rintro (thrown | size) u after
      · exact after
      · exact after
    · rintro size t ⟨opened,extracted,-⟩
      cases archive.stopped with
      | none => exact extracted.beneath
      | some thrown => exact extracted.beneath
  · exact beneath

/-! ## Others do not -/

section
variable (destDir : List String)

/-- Files, and the directories above them and the destination. -/
def planted (files : List (List String)) : List String → Option Kind := fun place =>
  if place ∈ files then some .file
  else if place <+: destDir ∨ ∃ file ∈ files, place <+: file then some .directory
  else none

/-- The files can all be there at once. -/
structure Together (files : List (List String)) : Prop where
  below : ∀ file ∈ files, ¬ file <+: destDir
  apart : ∀ file ∈ files, ∀ other ∈ files, file <+: other → file = other

end

theorem planted_ready {files : List (List String)} (together : Together destDir files) :
    Ready destDir { kind := planted destDir files } := by
  constructor
  · intro place above
    have notFile : place ∉ files := fun member => together.below place member above
    simp [planted,notFile,above]
  · intro place name found
    have onTheWay : place <+: destDir ∨ ∃ file ∈ files, place <+: file := by
      have longer : place <+: place ++ [name] := List.prefix_append _ _
      by_cases isFile : place ++ [name] ∈ files
      · exact .inr ⟨_,isFile,longer⟩
      · by_cases directory : place ++ [name] <+: destDir ∨ ∃ file ∈ files, place ++ [name] <+: file
        · rcases directory with above | ⟨file,member,above⟩
          · exact .inl (longer.trans above)
          · exact .inr ⟨file,member,longer.trans above⟩
        · simp [planted,isFile,directory] at found
    have notFile : place ∉ files := by
      intro member
      by_cases isFile : place ++ [name] ∈ files
      · have same := together.apart place member _ isFile (List.prefix_append _ _)
        simpa using congrArg List.length same
      · by_cases directory : place ++ [name] <+: destDir ∨ ∃ file ∈ files, place ++ [name] <+: file
        · rcases directory with above | ⟨file,listed,above⟩
          · exact together.below place member ((List.prefix_append _ _).trans above)
          · obtain rfl := together.apart place member file listed ((List.prefix_append _ _).trans above)
            simpa using above.length_le
        · simp [planted,isFile,directory] at found
    simp [planted,notFile,onTheWay]

/-- A planted file can be opened, and that changes nothing but what was touched. -/
theorem planted_open {files : List (List String)} (together : Together destDir files) {disk : Disk}
    (same : disk.kind = planted destDir files) {path : List String} (member : path ∈ files) :
    disk.CanOpen path ∧ (disk.openFile path).kind = disk.kind := by
  have file : disk.kind path = some .file := by simp [same,planted,member]
  have filled : path ≠ [] := by
    rintro rfl
    exact together.below [] member List.nil_prefix
  have notFile : path.dropLast ∉ files := by
    intro other
    have equal := together.apart _ other path member (List.dropLast_prefix path)
    have lengths := congrArg List.length equal
    have some := List.length_pos_of_ne_nil filled
    simp at lengths
    omega
  refine ⟨⟨filled,?_,by rw [file]; simp⟩,?_⟩
  · rw [same]
    have above : ∃ file ∈ files, path.dropLast <+: file := ⟨path,member,List.dropLast_prefix path⟩
    simp [planted,notFile,above]
  · rw [Disk.openFile_kind,← file,Function.update_eq_self]

/-- What is not near the destination is missing. -/
theorem planted_missing {files : List (List String)} (below : ∀ file ∈ files, destDir <+: file) {place : List String}
    (outside : ¬ Near destDir place) : planted destDir files place = none := by
  have notFile : place ∉ files := fun member => outside (.inl (below place member))
  have notAbove : ¬ (place <+: destDir ∨ ∃ file ∈ files, place <+: file) := by
    rintro (above | ⟨file,member,above⟩)
    · exact outside (.inr above)
    · exact outside (near_between (.inl (below file member)) above)
  simp [planted,notFile,notAbove]

theorem makeDirectories_touches {path : List String} (missing : disk.kind path = none)
    (free : ∀ place, place <+: path → disk.kind place ≠ some .file) : path ∈ (disk.makeDirectories path).touched := by
  have clear : ∀ place ∈ path.inits, disk.kind place ≠ some .file := fun place member =>
    free place ((List.mem_inits _ _).mp member)
  rw [Disk.makeDirectories,if_pos clear]
  refine List.mem_append_right _ (List.mem_filter.mpr ⟨(List.mem_inits _ _).mpr (List.prefix_refl path),?_⟩)
  simpa using missing

/-- A directory outside is made when it is asked for. -/
theorem mkdirs_escapes {files : List (List String)} (below : ∀ file ∈ files, destDir <+: file)
    (same : disk.kind = planted destDir files) {name : String}
    (outside : ¬ Near destDir (locate separators destDir name)) :
    ∃ disk', Extracts separators destDir archive (.mkdirs name) disk () disk' ∧ ¬ Beneath destDir disk' := by
  refine ⟨_,.inr ⟨(locate separators destDir name).length,rfl⟩,fun beneath => outside (.inl ?_)⟩
  rw [List.take_length] at beneath
  refine beneath _ (makeDirectories_touches (by rw [same,planted_missing below outside]) ?_)
  intro place onTheWay file
  rw [same] at file
  have member : place ∈ files := by
    by_contra notFile
    by_cases directory : place <+: destDir ∨ ∃ file ∈ files, place <+: file
    · simp [planted,notFile,directory] at file
    · simp [planted,notFile,directory] at file
  exact outside (.inl ((below place member).trans onTheWay))

variable {host : Surroundings} {totalSize : Nat}

theorem reading_quiet (filled : totalSize ≠ 0) (name : String) (reads : List Operations.Bytes) (extractedSize : Int) :
    ∃ size, Steps (Extracts separators destDir archive) (reads.foldlM (unzipBuffer totalSize name) extractedSize) disk
      (.done size) disk := by
  induction reads generalizing extractedSize with
  | nil => exact ⟨extractedSize,.refl⟩
  | cons buffer rest ih =>
    obtain ⟨size,later⟩ := ih (int64 (extractedSize + buffer.length))
    refine ⟨size,?_⟩
    rw [List.foldlM_cons]
    refine steps_after ?_ later
    have written : Extracts separators destDir archive (.write name buffer) disk (.ok ()) disk := rfl
    refine steps_cons written ?_
    simp only [ofOutcome,unzipPercent,if_neg filled]
    have shown : ∀ percent action sub, Extracts separators destDir archive (.stage percent action sub) disk () disk :=
      fun _ _ _ => rfl
    exact steps_cons (shown _ _ _) .refl

theorem makeParent_quiet (name : String) : Steps (Extracts separators destDir archive)
    (makeParent (placed separators host) name) disk (.done ()) disk := by
  cases present : (disk.kind (locate separators destDir (getParentFile separators name))).isSome with
  | true =>
    have found : Extracts separators destDir archive (.fileExists (getParentFile separators name)) disk true disk :=
      ⟨rfl,present.symm⟩
    exact steps_cons found .refl
  | false =>
    have missing : Extracts separators destDir archive (.fileExists (getParentFile separators name)) disk false disk :=
      ⟨rfl,present.symm⟩
    have failed : Extracts separators destDir archive (.mkdirs (getParentFile separators name)) disk () disk := .inl rfl
    exact steps_cons missing (steps_cons failed .refl)

theorem file_quiet (filled : totalSize ≠ 0) {name : String} (can : disk.CanOpen (locate separators destDir name))
    (reads : List Operations.Bytes) (extractedSize : Int) : ∃ size, Steps (Extracts separators destDir archive)
      (unzipEntry (placed separators host) totalSize extractedSize (.file name reads none)) disk (.done size)
        (disk.openFile (locate separators destDir name)) := by
  obtain ⟨size,read⟩ := @reading_quiet separators destDir (disk.openFile (locate separators destDir name)) archive
    totalSize filled name reads extractedSize
  refine ⟨size,steps_after (makeParent_quiet name) ?_⟩
  have opened : Extracts separators destDir archive (.newFileOutputStream name) disk (.ok ())
      (disk.openFile (locate separators destDir name)) := .inr ⟨rfl,can,rfl⟩
  refine steps_cons opened ?_
  change Steps _ (reads.foldlM (unzipBuffer totalSize name) extractedSize >>= fun size => .done size) _ _ _
  exact steps_after read .refl

theorem together_cons {opened : List (List String)} (together : Together destDir opened) {path : List String}
    (opens : Opens destDir opened path) : Together destDir (path :: opened) := by
  constructor
  · exact List.forall_mem_cons.mpr ⟨opens.1,together.below⟩
  · intro file member other listed above
    rcases List.mem_cons.mp member with rfl | earlier <;> rcases List.mem_cons.mp listed with rfl | before
    · rfl
    · exact (opens.2 other before (.inr above)).symm
    · exact opens.2 file earlier (.inl above)
    · exact together.apart file earlier other before above

/-- From some disk the entries lead to where something outside was touched. -/
theorem entries_escape (filled : totalSize ≠ 0) (entries : List Entry) {opened : List (List String)}
    (below : ∀ path ∈ opened, destDir <+: path) (together : Together destDir opened)
    (unconfined : ¬ Confined separators destDir opened entries) :
    ∃ files, (∀ path ∈ opened, path ∈ files) ∧ Together destDir files ∧ ∀ (disk : Disk) (size : Int),
      disk.kind = planted destDir files → ∃ rest t, Steps (Extracts separators destDir archive)
        (entries.foldlM (unzipEntry (placed separators host) totalSize) size) disk rest t ∧ ¬ Beneath destDir t := by
  induction entries generalizing opened with
  | nil => exact absurd trivial unconfined
  | cons entry rest ih =>
    cases entry with
    | directory name =>
      by_cases near : Near destDir (locate separators destDir name)
      · obtain ⟨files,kept,fits,escapes⟩ := ih below together fun confined => unconfined ⟨near,confined⟩
        refine ⟨files,kept,fits,fun disk size same => ?_⟩
        obtain ⟨program,t,steps,outside⟩ := escapes disk size same
        have failed : Extracts separators destDir archive (.mkdirs name) disk () disk := .inl rfl
        rw [List.foldlM_cons]
        exact ⟨program,t,steps_cons failed steps,outside⟩
      · refine ⟨opened,fun _ => id,together,fun disk size same => ?_⟩
        obtain ⟨disk',made,outside⟩ := @mkdirs_escapes separators destDir disk archive opened below same name near
        rw [List.foldlM_cons]
        exact ⟨_,disk',steps_cons made .refl,outside⟩
    | file name reads cut =>
      by_cases parentNear : Near destDir (locate separators destDir (getParentFile separators name))
      · by_cases near : Near destDir (locate separators destDir name)
        · obtain ⟨rfl,opens,later⟩ : cut = none ∧ Opens destDir opened (locate separators destDir name) ∧
              ¬ Confined separators destDir (locate separators destDir name :: opened) rest := by
            by_contra other
            refine unconfined ⟨parentNear,near,fun whole opens => ?_⟩
            by_contra confined
            exact other ⟨whole,opens,confined⟩
          have inside : destDir <+: locate separators destDir name := near.resolve_right opens.1
          obtain ⟨files,kept,fits,escapes⟩ := ih (List.forall_mem_cons.mpr ⟨inside,below⟩)
            (together_cons together opens) later
          refine ⟨files,fun path member => kept path (List.mem_cons_of_mem _ member),fits,fun disk size same => ?_⟩
          obtain ⟨can,unchanged⟩ := planted_open fits same (kept _ List.mem_cons_self)
          obtain ⟨size',quiet⟩ := @file_quiet separators destDir disk archive host totalSize filled name can reads size
          obtain ⟨program,t,steps,outside⟩ := escapes (disk.openFile (locate separators destDir name)) size'
            (unchanged.trans same)
          rw [List.foldlM_cons]
          exact ⟨program,t,steps_after quiet steps,outside⟩
        · have opens : Opens destDir opened (locate separators destDir name) := by
            refine ⟨fun above => near (.inr above),fun other member close => absurd ?_ near⟩
            rcases close with longer | shorter
            · exact .inl ((below other member).trans longer)
            · exact near_between (.inl (below other member)) shorter
          have fits := together_cons together opens
          refine ⟨_,fun path member => List.mem_cons_of_mem _ member,fits,fun disk size same => ?_⟩
          obtain ⟨can,-⟩ := planted_open fits same List.mem_cons_self
          have opened : Extracts separators destDir archive (.newFileOutputStream name) disk (.ok ())
              (disk.openFile (locate separators destDir name)) := .inr ⟨rfl,can,rfl⟩
          rw [List.foldlM_cons]
          refine ⟨_,_,steps_bind (steps_after (makeParent_quiet name) (steps_cons opened .refl)) _,fun beneath => ?_⟩
          exact near (.inl (beneath _ (List.mem_append_right _ List.mem_cons_self)))
      · refine ⟨opened,fun _ => id,together,fun disk size same => ?_⟩
        obtain ⟨disk',made,outside⟩ := @mkdirs_escapes separators destDir disk archive opened below same _ parentNear
        have missing : Extracts separators destDir archive (.fileExists (getParentFile separators name)) disk false disk :=
          ⟨rfl,by rw [same,planted_missing below parentNear]; rfl⟩
        rw [List.foldlM_cons]
        exact ⟨_,disk',steps_cons missing (steps_cons made .refl),outside⟩

/-- An archive that is not confined escapes from some disk. -/
theorem unconfined_escapes (host : Surroundings) (zipFile : String)
    (unconfined : ¬ Confined separators destDir [] archive.entries) :
    ∃ disk : Disk, Ready destDir disk ∧ disk.touched = [] ∧ ∃ rest t, Steps (Extracts separators destDir archive)
      (unzip (placed separators host) zipFile) disk rest t ∧ ¬ Beneath destDir t := by
  have one : (1 : Nat) ≠ 0 := by decide
  obtain ⟨files,-,fits,escapes⟩ := @entries_escape separators destDir archive host 1 one archive.entries []
    (by simp) ⟨by simp,by simp⟩ unconfined
  obtain ⟨program,t,steps,outside⟩ := escapes { kind := planted destDir files } 0 rfl
  have found : Extracts separators destDir archive (.newZipInputStream zipFile) { kind := planted destDir files }
      (.ok archive) { kind := planted destDir files } := ⟨rfl,.inl rfl⟩
  have sized : Extracts separators destDir archive (.length zipFile) { kind := planted destDir files } (1 : Nat)
      { kind := planted destDir files } := ⟨rfl,one⟩
  exact ⟨_,planted_ready fits,rfl,_,t,steps_cons found (steps_cons sized (steps_bind steps _)),outside⟩

/-- Whatever an archive is extracted to, and however far, nothing is created or
    overwritten but below the destination exactly when its entries are confined. -/
theorem extraction_confined (separators : Separators) (host : Surroundings) (destDir : List String) (archive : Archive)
    (zipFile : String) :
    (∀ disk : Disk, Ready destDir disk → disk.touched = [] → ∀ rest t, Steps (Extracts separators destDir archive)
      (unzip (placed separators host) zipFile) disk rest t → Beneath destDir t) ↔
        Confined separators destDir [] archive.entries := by
  constructor
  · intro beneath
    by_contra unconfined
    obtain ⟨disk,ready,untouched,rest,t,steps,outside⟩ := unconfined_escapes host zipFile unconfined
    exact outside (beneath disk ready untouched rest t steps)
  · intro confined disk ready untouched rest t steps
    exact ensures_reached (unzip_beneath host ready untouched confined zipFile) steps

/-- A system where `/` is the only separator. -/
private def slashes : Separators := ⟨fun c => decide (c = '/'),rfl,rfl⟩

private def plainHost : Surroundings where
  sha256 _ := ""
  contents _ := []
  encode _ := []
  firstLine _ := none
  getParentFile := id
  locate := id
  distinct := javaZip_ne

/-- An archive whose only entry leads out of the destination. -/
private def slip : Archive := ⟨[.file "../.bashrc" [] none],none⟩

theorem extraction_slips : ¬ ∀ (separators : Separators) (host : Surroundings) (destDir : List String) (archive : Archive)
    (zipFile : String) (disk : Disk), Ready destDir disk → disk.touched = [] → ∀ rest t,
      Steps (Extracts separators destDir archive) (unzip (placed separators host) zipFile) disk rest t →
        Beneath destDir t := by
  intro beneath
  have outside : ¬ Near ["home","user","OpenRune"] (locate slashes ["home","user","OpenRune"] "../.bashrc") := by decide
  obtain ⟨disk,ready,untouched,rest,t,steps,escapes⟩ := @unconfined_escapes slashes ["home","user","OpenRune"] slip
    plainHost "java.zip" fun confined => outside confined.2.1
  exact escapes (beneath slashes plainHost _ slip _ disk ready untouched rest t steps)

end
end OpenRune.Extraction
