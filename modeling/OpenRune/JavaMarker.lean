import OpenRune.JavaInstaller

/-!
# The marker of the Java installation

When `init` finds `java.zip` with the checksum of `java_hash.txt` it unpacks
nothing. What the archive holds is then in place, over any series of runs, unless
a run was cut off after its download had already made the archive agree with an
older marker.
-/
namespace OpenRune.JavaMarker
open OpenRune.Java OpenRune.Programs OpenRune.JavaInstaller
open OpenRune.Operations (Bytes)

section
variable {host : Surroundings} {α : Type} {start w t : World} {archive : Bytes}

/-- Every file entry of the archive is in place, with its full content. -/
def Present (host : Surroundings) (archive : Bytes) (w : World) : Prop :=
  ∀ file ∈ host.contents archive, w.files (host.locate file.1) = some file.2

/-- The two files of the installer itself. -/
def Reserved (host : Surroundings) (path : String) : Prop :=
  path = host.locate javaZip ∨ path = host.locate localHashFile

/-- The file entries keep off the files of the installer and of each other. -/
def Consistent (host : Surroundings) (archive : Bytes) : Prop :=
  ∀ file ∈ host.contents archive, ¬ Reserved host (host.locate file.1) ∧
    ∀ other ∈ host.contents archive, host.locate other.1 = host.locate file.1 → other.2 = file.2

/-- `java.zip` has the checksum that `java_hash.txt` tells. -/
def Matches (host : Surroundings) (w : World) : Prop :=
  ∃ archive text line, w.files (host.locate javaZip) = some archive ∧ w.files (host.locate localHashFile) = some text ∧
    host.firstLine text = some line ∧ sameChecksum (host.sha256 archive) line = true

theorem present_set {path : String} (reserved : Reserved host path) (consistent : Consistent host archive)
    (present : Present host archive w) (content : Option Bytes) : Present host archive (w.set path content) := by
  intro file member
  have other : host.locate file.1 ≠ path := fun same => (consistent file member).1 (same ▸ reserved)
  rw [World.set_files,Function.update_of_ne other]
  exact present file member

/-! ## What the operations touch -/

/-- The operation changes no file but the one of the given name. -/
def Op.touches (name : String) : Op → Prop
  | .newFileOutputStream file | .write file _ | .delete file => file = name
  | .renameTo file target => file = name ∧ target = name
  | .newFileWriter _ | .newZipInputStream _ | .walkFileTree _ => False
  | _ => True

/-- The operation changes nothing. -/
def Op.quiet : Op → Prop
  | .newFileOutputStream _ | .write _ _ | .delete _ | .renameTo _ _ | .newFileWriter _ | .newZipInputStream _
    | .walkFileTree _ => False
  | _ => True

theorem quiet_same {op : Op} {reply : Reply op} (quiet : Op.quiet op) (reacts : Reacts host op w reply t) : t = w := by
  cases op with
  | fileExists file | readLine file | digest file | length file => exact reacts.1
  | newFileOutputStream file | write file buffer | delete file | renameTo file target | newFileWriter file
    | newZipInputStream file | walkFileTree file => exact quiet.elim
  | _ => exact reacts

theorem quiet_touches {op : Op} (quiet : Op.quiet op) (name : String) : Op.touches name op := by
  cases op <;> first | exact trivial | exact quiet.elim

private theorem set_self (w : World) (path : String) : w = w.set path (w.files path) := by
  simp [World.set]

theorem touches_set {name : String} {op : Op} {reply : Reply op} (touches : Op.touches name op)
    (reacts : Reacts host op w reply t) : ∃ content, t = w.set (host.locate name) content := by
  have unchanged (same : t = w) : ∃ content, t = w.set (host.locate name) content := ⟨_,same.trans (set_self w _)⟩
  by_cases quiet : Op.quiet op
  · exact unchanged (quiet_same quiet reacts)
  cases op with
  | newFileOutputStream file =>
    cases touches
    rcases reacts with ⟨-,done⟩ | ⟨-,same⟩
    · exact ⟨_,done⟩
    · exact unchanged same
  | write file buffer =>
    cases touches
    rcases reacts with ⟨-,done⟩ | ⟨-,n,done⟩ <;> exact ⟨_,done⟩
  | delete file =>
    cases touches
    obtain ⟨gone,deleted⟩ : ∃ gone : Bool, t = if gone = true then w.set (host.locate name) none else w := ⟨reply,reacts⟩
    split at deleted
    · exact ⟨none,deleted⟩
    · exact unchanged deleted
  | renameTo file target =>
    obtain ⟨rfl,rfl⟩ := touches
    refine unchanged (reacts.trans (if_neg ?_))
    exact fun moved => moved.2 rfl
  | newFileWriter file | newZipInputStream file | walkFileTree file => exact touches.elim
  | _ => exact absurd trivial quiet

theorem touches_run {name : String} {p : Installing α} {guard : Op → World → Prop} (only : Only (Op.touches name) p)
    (met : ∀ op content, guard op (w.set (host.locate name) content)) :
    Ensures (Reacts host) guard p (fun _ t => ∃ content, t = w.set (host.locate name) content) w := by
  refine ensures_only only ⟨_,set_self w _⟩ ?_ ?_
  · rintro op t - ⟨content,rfl⟩
    exact met op content
  · rintro op t reply u touches ⟨content,rfl⟩ reacts
    obtain ⟨content',rfl⟩ := touches_set touches reacts
    exact ⟨content',by simp [World.set]⟩

theorem quiet_run {p : Installing α} {guard : Op → World → Prop} (only : Only Op.quiet p) (met : ∀ op, guard op w) :
    Ensures (Reacts host) guard p (fun _ t => t = w) w := by
  refine ensures_only only rfl ?_ ?_
  · rintro op t - rfl
    exact met op
  · rintro op t reply u quiet rfl reacts
    exact quiet_same quiet reacts

/-! ## Reading -/

theorem readLocalHash_quiet : Only Op.quiet readLocalHash := by
  refine only_bind (only_perform trivial) ?_
  rintro (thrown | line)
  · dsimp only
    split <;> exact trivial
  · exact trivial

theorem verifyChecksum_quiet (file : String) (expectedChecksum : Option String) :
    Only Op.quiet (verifyChecksum file expectedChecksum) := by
  refine only_bind (only_perform trivial) ?_
  rintro (thrown | actual)
  · dsimp only
    split <;> exact trivial
  · exact trivial

theorem isInstalled_quiet (javaChecksum localHash : Option String) : Only Op.quiet (isInstalled javaChecksum localHash) := by
  refine only_bind (only_perform trivial) ?_
  intro present
  split
  · refine only_bind (only_ofOutcome _) ?_
    intro expected
    split
    · exact verifyChecksum_quiet _ _
    · exact trivial
  · exact trivial

/-- A line that was read is the first one of `java_hash.txt`. -/
theorem readLocalHash_spec : Ends (Reacts host) readLocalHash (fun outcome _ => ∀ line, outcome = .ok (some line) →
    ∃ text, w.files (host.locate localHashFile) = some text ∧ host.firstLine text = some line) w := by
  refine ensures_perform trivial ?_
  rintro (thrown | read) t ⟨-,told⟩
  · dsimp only
    split <;> exact nofun
  · rcases told with ⟨text,found,same⟩ | ⟨thrown,failed⟩
    · cases same
      intro line ended
      exact ⟨text,found,Except.ok.inj ended⟩
    · cases failed

theorem verifyChecksum_spec (file expected : String) :
    Ends (Reacts host) (verifyChecksum file (some expected)) (fun outcome _ => outcome = .ok true →
      ∃ content, w.files (host.locate file) = some content ∧ sameChecksum (host.sha256 content) expected = true) w := by
  refine ensures_perform trivial ?_
  rintro (thrown | actual) t ⟨-,told⟩
  · dsimp only
    split <;> exact nofun
  · rcases told with ⟨content,found,same⟩ | ⟨thrown,failed⟩
    · cases same
      intro ended
      exact ⟨content,found,Except.ok.inj ended⟩
    · cases failed

/-- The installation counts as current when the archive has the checksum read from
    `java_hash.txt`, which is also the one that is wanted. -/
theorem isInstalled_spec (javaChecksum localHash : Option String) :
    Ends (Reacts host) (isInstalled javaChecksum localHash) (fun outcome _ => outcome = .ok true →
      ∃ line content, localHash = some line ∧ w.files (host.locate javaZip) = some content ∧
        sameChecksum (host.sha256 content) line = true) w := by
  refine ensures_perform trivial ?_
  rintro present t ⟨same,-⟩
  rw [same]
  split
  · refine ensures_outcome ?_ fun _ _ => nofun
    intro expected given
    split
    · rename_i line
      refine ensures_mono (verifyChecksum_spec javaZip expected) ?_
      intro outcome u verified ended
      obtain ⟨content,found,hashed⟩ := verified ended
      exact ⟨expected,content,line.symm,found,hashed⟩
    · exact nofun
  · exact nofun

/-! ## What a run keeps -/

/-- What holds at every moment of a run that has begun at `start`: the archive that
    was unpacked last is in place, and `java_hash.txt` is opened for nothing else. -/
structure Sound (host : Surroundings) (start w : World) : Prop where
  present : ∀ archive, w.installed = some archive → Consistent host archive → Present host archive w
  origin : ∀ archive, w.installed = some archive → start.installed = some archive ∨ w.unpacking = some archive
  marked : w.marked = true → ∃ archive, w.unpacking = some archive ∧ w.installed = some archive ∧
    (Consistent host archive → w.files (host.locate javaZip) = some archive)

/-- Before the archive is marked as installed, its files come and go as they like. -/
theorem sound_download (sound : Sound host start w) (unmarked : w.marked = false) (content : Option Bytes) :
    Sound host start (w.set (host.locate javaZip) content) where
  present archive installed consistent := present_set (.inl rfl) consistent (sound.present archive installed consistent) _
  origin := sound.origin
  marked marked := absurd marked (by simp [World.set,unmarked])

/-! ## Downloading -/

theorem downloadFile_touches (fileURL expectedChecksum : Option String) :
    Only (Op.touches javaZip) (downloadFile fileURL expectedChecksum) := by
  cases fileURL with
  | none => exact trivial
  | some url =>
    refine only_bind (only_perform trivial) ?_
    rintro (thrown | ⟨responseCode,contentLength,reads,cut⟩)
    · exact trivial
    dsimp only
    split
    · refine only_bind (only_perform rfl) fun opened => only_bind (only_ofOutcome _) fun _ => ?_
      refine only_bind (only_foldlM ?_ reads 0) fun _ => ?_
      · intro totalBytesRead buffer
        refine only_bind (only_perform rfl) fun written => only_bind (only_ofOutcome _) fun _ => ?_
        exact only_bind (only_ofOutcome _) fun progress => only_bind (only_perform trivial) fun _ => trivial
      · split
        · exact trivial
        · refine only_bind (only_mono (verifyChecksum_quiet _ _) fun op quiet => quiet_touches quiet _) ?_
          intro verified
          split
          · exact only_bind (only_perform ⟨rfl,rfl⟩) fun _ => trivial
          · refine only_bind (only_perform trivial) fun _ => only_bind (only_perform rfl) fun _ => ?_
            exact only_bind (only_perform trivial) fun _ => trivial
    · exact only_bind (only_perform trivial) fun _ => trivial

private theorem acceptDownload_file (expectedChecksum : Option String) : Ends (Reacts host) (acceptDownload expectedChecksum)
    (fun outcome _ => ∀ file, outcome = .ok file → file = javaZip) w := by
  refine ends_after (fun verified t => ?_) fun _ _ => nofun
  split
  · refine ends_after (fun _ u => ?_) fun _ _ => nofun
    rintro file ⟨⟩
    rfl
  · refine ends_after (fun _ u => ends_after (fun _ v => ?_) fun _ _ => nofun) fun _ _ => nofun
    exact ends_after (fun _ _ => nofun) fun _ _ => nofun

/-- The file that is downloaded is `java.zip`. -/
theorem downloadFile_file (fileURL expectedChecksum : Option String) :
    Ends (Reacts host) (downloadFile fileURL expectedChecksum) (fun outcome _ => ∀ file, outcome = .ok file → file = javaZip) w := by
  cases fileURL with
  | none => exact nofun
  | some url =>
    refine ends_after (fun connection t => ?_) fun _ _ => nofun
    rcases connection with thrown | ⟨responseCode,contentLength,reads,cut⟩
    · exact nofun
    dsimp only
    split
    · refine ends_after (fun opened u => ends_after (fun _ v => ?_) fun _ _ => nofun) fun _ _ => nofun
      refine ends_after (fun _ x => ?_) fun _ _ => nofun
      split
      · exact nofun
      · exact acceptDownload_file expectedChecksum
    · exact ends_after (fun _ _ => nofun) fun _ _ => nofun

theorem downloadFile_sound (sound : Sound host start w) (unmarked : w.marked = false) (fileURL expectedChecksum : Option String) :
    Ensures (Reacts host) (fun _ t => Sound host start t) (downloadFile fileURL expectedChecksum)
      (fun outcome t => (∀ file, outcome = .ok file → file = javaZip) ∧
        ∃ content, t = w.set (host.locate javaZip) content) w :=
  ensures_and (downloadFile_file fileURL expectedChecksum)
    (touches_run (downloadFile_touches fileURL expectedChecksum) fun _ content => sound_download sound unmarked content)

/-! ## Unpacking -/

/-- The files after the file entries were written, one after the other. -/
def extract (host : Surroundings) (entries : List (String × Bytes)) (files : String → Option Bytes) : String → Option Bytes :=
  entries.foldl (fun files file => Function.update files (host.locate file.1) (some file.2)) files

theorem extract_other {entries : List (String × Bytes)} {path : String}
    (other : ∀ file ∈ entries, host.locate file.1 ≠ path) (files : String → Option Bytes) :
    extract host entries files path = files path := by
  induction entries generalizing files with
  | nil => rfl
  | cons file rest ih =>
    have first := other file List.mem_cons_self
    exact (ih (fun later member => other later (List.mem_cons_of_mem _ member)) _).trans
      (Function.update_of_ne first.symm _ _)

/-- The last entry of a path decides, and where all agree it is any of them. -/
theorem extract_entry {entries : List (String × Bytes)} {path : String} {content : Bytes}
    (found : ∃ file ∈ entries, host.locate file.1 = path)
    (agrees : ∀ file ∈ entries, host.locate file.1 = path → file.2 = content) (files : String → Option Bytes) :
    extract host entries files path = some content := by
  induction entries generalizing files with
  | nil =>
    obtain ⟨file,member,-⟩ := found
    exact absurd member List.not_mem_nil
  | cons first rest ih =>
    by_cases later : ∃ file ∈ rest, host.locate file.1 = path
    · exact ih later (fun file member => agrees file (List.mem_cons_of_mem _ member)) _
    · have here : host.locate first.1 = path := by
        obtain ⟨file,member,same⟩ := found
        rcases List.mem_cons.mp member with rfl | member
        · exact same
        · exact absurd ⟨file,member,same⟩ later
      refine (extract_other (fun file member same => later ⟨file,member,same⟩) _).trans ?_
      rw [← agrees first List.mem_cons_self here,← here]
      exact Function.update_self _ _ _

theorem unzipEntry_touches (totalSize : Nat) (extractedSize : Int) (entry : Entry) :
    Only (fun op => ∃ name, Op.touches name op) (unzipEntry host totalSize extractedSize entry) := by
  cases entry with
  | directory name => exact only_bind (only_perform ⟨name,trivial⟩) fun _ => trivial
  | file name reads cut =>
    refine only_bind (only_bind (only_perform ⟨name,trivial⟩) ?_) fun _ => ?_
    · rintro (absent | present)
      · exact only_perform ⟨name,trivial⟩
      · exact trivial
    refine only_bind (only_perform ⟨name,rfl⟩) fun opened => only_bind (only_ofOutcome _) fun _ => ?_
    refine only_bind (only_foldlM ?_ reads _) fun _ => ?_
    · intro extractedSize buffer
      refine only_bind (only_perform ⟨name,rfl⟩) fun written => only_bind (only_ofOutcome _) fun _ => ?_
      exact only_bind (only_ofOutcome _) fun progress => only_bind (only_perform ⟨name,trivial⟩) fun _ => trivial
    · split <;> exact trivial

private theorem makeParent_same (name : String) : Ends (Reacts host) (makeParent host name) (fun _ t => t = w) w := by
  refine ensures_perform trivial ?_
  rintro (absent | present) t ⟨rfl,-⟩
  · exact ⟨trivial,fun reply u same => same⟩
  · exact rfl

/-- A turn of the inner loop adds its buffer to the file. -/
private theorem unzipBuffer_spec {name : String} {sofar : Bytes} (inPlace : w.files (host.locate name) = some sofar)
    (totalSize : Nat) (extractedSize : Int) (buffer : Bytes) :
    Ends (Reacts host) (unzipBuffer totalSize name extractedSize buffer) (fun outcome t => ∀ size, outcome = .ok size →
      t.files = Function.update w.files (host.locate name) (some (sofar ++ buffer))) w := by
  refine ensures_perform trivial ?_
  rintro (thrown | done) t (⟨ok,rfl⟩ | ⟨⟨thrown',failed⟩,-⟩)
  · cases ok
  · exact nofun
  · have written : (w.set (host.locate name) ((w.files (host.locate name)).map (· ++ buffer))).files =
        Function.update w.files (host.locate name) (some (sofar ++ buffer)) := by simp [inPlace]
    refine ensures_outcome (fun done _ => ?_) fun _ _ => nofun
    refine ensures_outcome (fun progress _ => ?_) fun _ _ => nofun
    refine ensures_perform trivial ?_
    rintro shown u rfl size -
    exact written
  · cases failed

/-- A file entry that was unpacked without an exception has its whole content. -/
private theorem unzipFile_spec (name : String) (reads : List Bytes) (cut : Option Thrown) (totalSize : Nat)
    (extractedSize : Int) : Ends (Reacts host) (unzipEntry host totalSize extractedSize (.file name reads cut))
      (fun outcome t => ∀ size, outcome = .ok size →
        cut = none ∧ t.files = Function.update w.files (host.locate name) (some reads.flatten)) w := by
  refine ensures_bind (ensures_mono (makeParent_same name) ?_)
  rintro (thrown | done) t rfl
  · exact nofun
  refine ensures_perform trivial ?_
  rintro (thrown | opened) u (⟨ok,rfl⟩ | ⟨⟨thrown',failed⟩,-⟩)
  · cases ok
  · exact nofun
  · refine ensures_outcome ?_ fun _ _ => nofun
    intro _ _
    refine ensures_bind (@ensures_foldlM _ _ _ _ _ _ _ _ (fun rest _ v => ∃ sofar, sofar ++ rest.flatten = reads.flatten ∧
      v.files = Function.update t.files (host.locate name) (some sofar)) _ _ _ _ ⟨[],rfl,rfl⟩ ?_ ?_)
    · rintro buffer rest size v ⟨sofar,whole,files⟩
      refine ensures_mono (unzipBuffer_spec (by rw [files,Function.update_self]) totalSize size buffer) ?_
      rintro (thrown | size') x written
      · exact nofun
      · exact ⟨sofar ++ buffer,by simpa using whole,by rw [written _ rfl,files,Function.update_idem]⟩
    · rintro size v ⟨sofar,whole,files⟩
      dsimp only
      cases cut with
      | some thrown => exact nofun
      | none =>
        rw [← whole,List.flatten_nil,List.append_nil]
        exact fun _ _ => ⟨rfl,files⟩
  · cases failed

private theorem unzipEntries_spec (totalSize : Nat) (entries : List Entry) (extractedSize : Int) :
    Ends (Reacts host) (entries.foldlM (unzipEntry host totalSize) extractedSize) (fun outcome t => ∀ size, outcome = .ok size →
      (∀ name reads cut, .file name reads cut ∈ entries → cut = none) ∧
        t.files = extract host (entries.filterMap Entry.content) w.files) w := by
  refine @ensures_foldlM _ _ _ _ _ _ _ _ (fun rest _ t =>
    ((∀ name reads cut, .file name reads cut ∈ rest → cut = none) →
      ∀ name reads cut, .file name reads cut ∈ entries → cut = none) ∧
    extract host (rest.filterMap Entry.content) t.files = extract host (entries.filterMap Entry.content) w.files)
    _ _ _ _ ⟨id,rfl⟩ ?_ ?_
  · rintro (name | ⟨name,reads,cut⟩) rest size t ⟨uncut,files⟩
    · refine ensures_perform trivial ?_
      rintro reply u rfl
      refine ⟨fun later => uncut fun name' reads cut member => ?_,files⟩
      rcases List.mem_cons.mp member with same | member
      · cases same
      · exact later name' reads cut member
    · refine ensures_mono (unzipFile_spec name reads cut totalSize size) ?_
      rintro (thrown | size') u unpacked
      · exact nofun
      obtain ⟨here,written⟩ := unpacked _ rfl
      refine ⟨fun later => uncut fun name' reads' cut' member => ?_,?_⟩
      · rcases List.mem_cons.mp member with same | member
        · cases same
          exact here
        · exact later name' reads' cut' member
      · rw [written]
        exact files
  · rintro size t ⟨uncut,files⟩ size' -
    exact ⟨uncut fun _ _ _ none => absurd none List.not_mem_nil,files⟩

/-- A normal end of `unzip` means that all file entries were written. -/
theorem unzip_spec : Ends (Reacts host) (unzip host javaZip) (fun outcome t => outcome = .ok () → ∃ archive,
    w.files (host.locate javaZip) = some archive ∧ t.files = extract host (host.contents archive) w.files) w := by
  refine ensures_perform trivial ?_
  rintro (thrown | delivered) t ⟨rfl,read⟩
  · exact nofun
  obtain ⟨archive,found,whole⟩ := read
  refine ensures_perform trivial ?_
  rintro totalSize u ⟨rfl,-⟩
  refine ensures_bind (ensures_mono (unzipEntries_spec totalSize delivered.entries 0) ?_)
  rintro (thrown | size) v unpacked
  · exact nofun
  obtain ⟨uncut,files⟩ := unpacked size rfl
  dsimp only
  cases stopped : delivered.stopped with
  | some thrown => exact nofun
  | none =>
    intro _
    exact ⟨archive,found,by rw [files,whole ⟨stopped,uncut⟩]⟩

/-- While an archive is being unpacked none counts as installed. -/
private theorem sound_unpacking (installed : w.installed = none) (unmarked : w.marked = false) : Sound host start w where
  present _ same := absurd same (by simp [installed])
  origin _ same := absurd same (by simp [installed])
  marked marked := absurd marked (by simp [unmarked])

theorem unzip_unpacks (sound : Sound host start w) (unmarked : w.marked = false) :
    Ensures (Reacts host) (fun _ t => Sound host start t) (unzip host javaZip) (fun _ t =>
      t.installed = none ∧ t.marked = false ∧ t.unpacking = w.files (host.locate javaZip)) w := by
  refine ensures_perform sound ?_
  rintro reply t ⟨rfl,-⟩
  refine ensures_only (?only : Only (fun op => ∃ name, Op.touches name op) _) ⟨rfl,unmarked,rfl⟩
    (fun op t _ ghosts => sound_unpacking ghosts.1 ghosts.2.1) ?_
  case only =>
    refine only_outcome fun archive _ => only_bind (only_perform ⟨javaZip,trivial⟩) fun totalSize => ?_
    refine only_bind (only_foldlM (fun size entry => unzipEntry_touches _ size entry) _ _) fun _ => ?_
    dsimp only
    split <;> exact trivial
  rintro op t reply u ⟨name,touches⟩ ghosts reacts
  obtain ⟨content,rfl⟩ := touches_set touches reacts
  exact ghosts

/-- What `unzip` leaves behind when it returns. -/
theorem unzip_sound (sound : Sound host start w) (unmarked : w.marked = false) :
    Ensures (Reacts host) (fun _ t => Sound host start t) (unzip host javaZip) (fun outcome t => Sound host start t ∧
      (outcome = .ok () → t.marked = false ∧ ∃ archive, t.unpacking = some archive ∧ (Consistent host archive →
        Present host archive t ∧ t.files (host.locate javaZip) = some archive))) w := by
  refine ensures_mono (ensures_and unzip_spec (unzip_unpacks sound unmarked)) ?_
  rintro outcome t ⟨spec,installed,unmarked,unpacking⟩
  refine ⟨sound_unpacking installed unmarked,fun ended => ⟨unmarked,?_⟩⟩
  obtain ⟨archive,found,files⟩ := spec ended
  refine ⟨archive,unpacking.trans found,fun consistent => ⟨?_,?_⟩⟩
  · intro file member
    rw [files]
    exact extract_entry ⟨file,member,rfl⟩ (consistent file member).2 _
  · rw [files,extract_other (fun file member same => (consistent file member).1 (.inl same)),found]

/-! ## Installing -/

/-- The archive has been unpacked to its end in this run. -/
structure Unpacked (host : Surroundings) (archive : Bytes) (w : World) : Prop where
  unpacking : w.unpacking = some archive
  installed : w.installed = some archive
  inPlace : Consistent host archive → Present host archive w ∧ w.files (host.locate javaZip) = some archive

theorem Unpacked.sound (unpacked : Unpacked host archive w) : Sound host start w where
  present other installed consistent := by
    cases unpacked.installed.symm.trans installed
    exact (unpacked.inPlace consistent).1
  origin other installed := .inr (unpacked.unpacking.trans (unpacked.installed.symm.trans installed))
  marked _ := ⟨archive,unpacked.unpacking,unpacked.installed,fun consistent => (unpacked.inPlace consistent).2⟩

theorem Unpacked.mark (unpacked : Unpacked host archive w) (content : Option Bytes) (marked : Bool) :
    Unpacked host archive { w.set (host.locate localHashFile) content with marked := marked } where
  unpacking := unpacked.unpacking
  installed := unpacked.installed
  inPlace consistent := by
    obtain ⟨present,inPlace⟩ := unpacked.inPlace consistent
    exact ⟨present_set (.inr rfl) consistent present content,(Function.update_of_ne host.distinct _ _).trans inPlace⟩

private theorem storeLocalHash_only (hash : Option String) :
    Only (fun op : Op => op = .newFileWriter localHashFile ∨ Op.touches localHashFile op) (storeLocalHash host hash) := by
  refine only_handle (only_bind (only_perform (.inl rfl)) fun opened => only_bind (only_ofOutcome _) fun _ => ?_) ?_
  · exact only_outcome fun text _ => only_bind (only_perform (.inr rfl)) fun written => only_ofOutcome _
  · intro thrown
    split <;> exact trivial

theorem storeLocalHash_unpacked (unpacked : Unpacked host archive w) (hash : Option String) :
    Ensures (Reacts host) (fun _ t => Sound host start t) (storeLocalHash host hash)
      (fun _ t => Unpacked host archive t) w := by
  refine ensures_only (storeLocalHash_only hash) unpacked (fun _ _ _ still => still.sound) ?_
  rintro op t reply u (rfl | touches) still reacts
  · rcases reacts with ⟨-,rfl⟩ | ⟨-,rfl⟩
    · exact still.mark _ _
    · have same := still.mark (t.files (host.locate localHashFile)) true
      rwa [← set_self] at same
  · obtain ⟨content,rfl⟩ := touches_set touches reacts
    exact still.mark content t.marked

theorem install_sound (sound : Sound host start w) (unmarked : w.marked = false) (javaChecksum javaDownloadLink : Option String) :
    Ensures (Reacts host) (fun _ t => Sound host start t) (install host javaChecksum javaDownloadLink)
      (fun _ t => Sound host start t) w := by
  refine ensures_bind (ensures_mono (downloadFile_sound sound unmarked javaDownloadLink javaChecksum) ?_)
  rintro outcome t ⟨file,content,rfl⟩
  have downloaded := sound_download sound unmarked content
  rcases outcome with thrown | javaFile
  · exact downloaded
  rw [file javaFile rfl]
  refine ensures_perform downloaded ?_
  rintro created t rfl
  refine ensures_outcome (fun _ _ => ?_) fun _ _ => downloaded
  refine ensures_bind (ensures_mono (unzip_sound downloaded unmarked) ?_)
  rintro (thrown | done) t ⟨still,unpacks⟩
  · exact still
  obtain ⟨-,archive,unpacking,inPlace⟩ := unpacks rfl
  refine ensures_bind (ensures_perform still ?_)
  rintro walked u rfl
  have unpacked : Unpacked host archive { t with installed := t.unpacking } := ⟨unpacking,unpacking,inPlace⟩
  refine ensures_ofOutcome ?_
  rcases walked with thrown | done
  · exact unpacked.sound
  refine ensures_bind (ensures_mono (storeLocalHash_unpacked unpacked javaChecksum) ?_)
  rintro (thrown | done) v stored
  · exact stored.sound
  refine ⟨stored.sound,?_⟩
  rintro shown x rfl
  exact stored.sound

/-- A run that reports an installation as current has found the archive as the
    marker tells, and has changed nothing. -/
def Skips (host : Surroundings) (start : World) (outcome : Except Thrown Ending) (t : World) : Prop :=
  outcome = .ok .skipped → t.files = start.files ∧ Matches host start

theorem ensureInstalled_sound (sound : Sound host w w) (unmarked : w.marked = false) (lines : List String) (keys : Keys) :
    Ensures (Reacts host) (fun _ t => Sound host w t) (ensureInstalled host lines keys)
      (fun outcome t => Sound host w t ∧ Skips host w outcome t) w := by
  refine ensures_outcome (fun version _ => ?_) fun _ _ => ⟨sound,nofun⟩
  refine ensures_perform sound ?_
  rintro forced t rfl
  refine ensures_perform sound ?_
  rintro made t rfl
  refine ensures_outcome (fun javaChecksum _ => ?_) fun _ _ => ⟨sound,nofun⟩
  refine ensures_outcome (fun javaDownloadLink _ => ?_) fun _ _ => ⟨sound,nofun⟩
  refine ensures_bind (ensures_mono (ensures_and readLocalHash_spec (quiet_run readLocalHash_quiet fun _ => sound)) ?_)
  rintro (thrown | localHash) t ⟨marker,rfl⟩
  · exact ⟨sound,nofun⟩
  refine ensures_perform sound ?_
  rintro shown t rfl
  refine ensures_bind (ensures_mono (ensures_and (isInstalled_spec javaChecksum localHash)
    (quiet_run (isInstalled_quiet javaChecksum localHash) fun _ => sound)) ?_)
  rintro (thrown | current) t ⟨found,rfl⟩
  · exact ⟨sound,nofun⟩
  cases current with
  | false =>
    refine ensures_bind (ensures_mono (install_sound sound unmarked javaChecksum javaDownloadLink) ?_)
    rintro (thrown | done) u still
    · exact ⟨still,nofun⟩
    · exact ⟨still,nofun⟩
  | true =>
    obtain ⟨line,archive,rfl,inPlace,same⟩ := found rfl
    obtain ⟨text,stored,read⟩ := marker line rfl
    exact ⟨sound,fun _ => ⟨rfl,archive,text,line,inPlace,stored,read,same⟩⟩

/-- The run lemma: every moment of a run of `init` is sound. -/
theorem init_sound (sound : Sound host w w) (unmarked : w.marked = false) (launch : Launch) :
    Ensures (Reacts host) (fun _ t => Sound host w t) (init host launch)
      (fun outcome t => Sound host w t ∧ Skips host w outcome t) w := by
  unfold init
  split
  · refine ensures_perform sound ?_
    rintro shown t rfl
    exact ⟨sound,nofun⟩
  · refine ensures_handle (ensures_mono (ensureInstalled_sound sound unmarked _ _) ?_)
    rintro (thrown | ending) t ⟨still,skips⟩
    · dsimp only
      split <;> exact ⟨still,nofun⟩
    · exact ⟨still,skips⟩

/-! ## Series of runs -/

/-- Runs of `init` over one directory, one after the other, each of them going any
    way, which includes to be cut off anywhere; `java.zip` may be removed in between.
    `allowed` may exclude some runs by what they start from and leave behind. -/
inductive History (host : Surroundings) (allowed : World → World → Prop) : World → Prop
  | fresh {w : World} (noArchive : w.files (host.locate javaZip) = none) (nothing : w.installed = none) :
    History host allowed w
  | run {w t : World} {rest : Installing Ending} (launch : Launch) (before : History host allowed w)
      (steps : Steps (Reacts host) (init host launch) w.begin rest t) (ok : allowed w t) : History host allowed t
  | removed {w : World} (before : History host allowed w) : History host allowed (w.set (host.locate javaZip) none)

/-- The archive that the run has unpacked keeps to its own files. And a run that has
    not come to `java_hash.txt` has changed nothing, or has left an archive that
    `java_hash.txt` does not vouch for, or the archive that was unpacked last. -/
def Clean (host : Surroundings) (w t : World) : Prop :=
  (∀ archive, t.unpacking = some archive → Consistent host archive) ∧
    (t.marked = true ∨ t.files = w.files ∨ (Matches host t → t.files (host.locate javaZip) = t.installed))

/-- What holds between the runs. -/
structure Vouched (host : Surroundings) (w : World) : Prop where
  installed : ∀ archive, w.installed = some archive → Consistent host archive ∧ Present host archive w
  marked : Matches host w → ∀ archive, w.files (host.locate javaZip) = some archive → Present host archive w

theorem matches_files (same : t.files = w.files) (found : Matches host t) : Matches host w := by
  rwa [Matches,same] at found

theorem present_files (same : t.files = w.files) (present : Present host archive w) : Present host archive t := by
  rwa [Present,same]

theorem vouched_begin (vouched : Vouched host w) : Sound host w.begin w.begin where
  present archive installed _ := (vouched.installed archive installed).2
  origin _ installed := .inl installed
  marked := nofun

theorem vouched_run (vouched : Vouched host w) (sound : Sound host w.begin t) (clean : Clean host w t) : Vouched host t := by
  obtain ⟨consistent,unmarked⟩ := clean
  have installed (archive : Bytes) (same : t.installed = some archive) : Consistent host archive ∧ Present host archive t := by
    have keeps : Consistent host archive := by
      rcases sound.origin archive same with before | here
      · exact (vouched.installed archive before).1
      · exact consistent archive here
    exact ⟨keeps,sound.present archive same keeps⟩
  refine ⟨installed,fun found archive inPlace => ?_⟩
  rcases unmarked with marked | files | last
  · obtain ⟨other,unpacking,same,still⟩ := sound.marked marked
    have whole : some other = some archive := (still (consistent other unpacking)).symm.trans inPlace
    cases whole
    exact (installed archive same).2
  · refine present_files files (vouched.marked (matches_files files found) archive ?_)
    rwa [← files]
  · exact (installed archive ((last found).symm.trans inPlace)).2

theorem history_vouched (history : History host (Clean host) w) : Vouched host w := by
  induction history with
  | fresh noArchive nothing =>
    refine ⟨fun archive same => ?_,fun _ archive found => ?_⟩
    · rw [nothing] at same
      cases same
    · rw [noArchive] at found
      cases found
  | run launch before steps ok vouched =>
    have reached : Ensures (Reacts host) _ (init host launch) (fun _ t => Sound host _ t) _ :=
      ensures_mono (init_sound (vouched_begin vouched) rfl launch) fun _ _ holds => holds.1
    exact vouched_run vouched (ensures_reached reached steps) ok
  | removed before vouched =>
    refine ⟨fun archive same => ?_,fun found => ?_⟩
    · obtain ⟨consistent,present⟩ := vouched.installed archive same
      exact ⟨consistent,present_set (.inl rfl) consistent present none⟩
    · obtain ⟨archive,-,-,inPlace,-⟩ := found
      simp at inPlace

/-- Whenever a run skips the installation, every file entry of `java.zip` is in place
    with its full content. -/
theorem skipped_installation {launch : Launch} (history : History host (Clean host) w)
    (skips : Runs (Reacts host) (init host launch) w.begin (.ok .skipped) t) :
    ∃ archive, t.files (host.locate javaZip) = some archive ∧ Present host archive t := by
  have vouched := history_vouched history
  obtain ⟨-,same⟩ := ensures_runs (init_sound (vouched_begin vouched) rfl launch) skips
  obtain ⟨files,found⟩ := same rfl
  obtain ⟨archive,-,-,inPlace,-⟩ := id found
  exact ⟨archive,(congrFun files _).trans inPlace,present_files files (vouched.marked found archive inPlace)⟩

end

/-! ## A run that is cut off -/

/-- One archive, with one file. -/
private def sampleHost : Surroundings where
  sha256 content := if content = [0x50] then "ab12" else "cd34"
  contents content := if content = [0x50] then [("bin/java",[0x7f])] else []
  encode text := text.toList.map fun c => c.toNat.toUInt8
  firstLine content := if content = [] then none else some (String.ofList (content.map fun byte => Char.ofNat byte.toNat))
  getParentFile _ := "bin"
  locate := id
  distinct := javaZip_ne

private def sampleLaunch : Launch where
  os := "Linux"
  arch := "amd64"
  lines := ["LINUX_AMD64_VERSION=11.0.27+6","LINUX_AMD64_CHKSUM=AB12","LINUX_AMD64_LINK=https://host/jre.zip"]

private def sampleHandler : Handler installer World := calm sampleHost fun _ => [0x50]

private def sampleRun (w : World) : Except Thrown Ending × World := execute sampleHandler (init sampleHost sampleLaunch) w.begin

private def installed : World := (sampleRun ⟨fun _ => none,none,none,false⟩).2

private theorem sampleRun_runs (w : World) :
    Runs (Reacts sampleHost) (init sampleHost sampleLaunch) w.begin (sampleRun w).1 (sampleRun w).2 :=
  execute_runs (calm_reacts _ _) _ _

private theorem sample_consistent : Consistent sampleHost [0x50] := by
  have only : sampleHost.contents [0x50] = [("bin/java",[0x7f])] := rfl
  intro file member
  rw [only] at member ⊢
  cases List.mem_singleton.mp member
  refine ⟨by rintro (same | same) <;> exact absurd same (by decide),fun other listed _ => ?_⟩
  rw [List.mem_singleton.mp listed]

private theorem installed_history {allowed : World → World → Prop} (ok : allowed ⟨fun _ => none,none,none,false⟩ installed) :
    History sampleHost allowed installed :=
  .run sampleLaunch (.fresh rfl rfl) (sampleRun_runs _) ok

theorem skipped_installation_sample : Present sampleHost [0x50] (sampleRun installed).2 := by
  have clean : Clean sampleHost ⟨fun _ => none,none,none,false⟩ installed := by
    refine ⟨?_,.inl rfl⟩
    rintro archive same
    cases show [0x50] = archive from Option.some.inj same
    exact sample_consistent
  obtain ⟨archive,inPlace,present⟩ := skipped_installation (installed_history clean) (sampleRun_runs installed)
  cases show [0x50] = archive from Option.some.inj inPlace
  exact present

/-- The archive is gone, is downloaded again, and the run is cut off as it has opened
    the first file to unpack. -/
private def cutOff : World := (advance sampleHandler 17 (init sampleHost sampleLaunch) (installed.set "java.zip" none).begin).2

/-- The marker of the earlier installation vouches for an empty file. -/
theorem marker_outlives : ∃ w t archive, History sampleHost (fun _ _ => True) w ∧
    Runs (Reacts sampleHost) (init sampleHost sampleLaunch) w.begin (.ok .skipped) t ∧
    t.files (sampleHost.locate javaZip) = some archive ∧ Consistent sampleHost archive ∧
    ¬ Present sampleHost archive t := by
  have history : History sampleHost (fun _ _ => True) cutOff :=
    .run sampleLaunch (.removed (installed_history trivial)) (advance_steps (calm_reacts _ _) 17 _ _) trivial
  refine ⟨cutOff,(sampleRun cutOff).2,[0x50],history,sampleRun_runs cutOff,rfl,sample_consistent,fun present => ?_⟩
  have emptied : (sampleRun cutOff).2.files "bin/java" = some [] := rfl
  have whole : (sampleRun cutOff).2.files "bin/java" = some [0x7f] := present ("bin/java",[0x7f]) List.mem_cons_self
  rw [emptied] at whole
  cases whole

end OpenRune.JavaMarker
