import OpenRune.JavaInstaller

/-!
# The dialogs of the Java installer

`JavaInstaller.init` opens an error dialog on an unsupported system, when the server
answers with an error, and when the download does not have its checksum. Otherwise
it opens none.
-/
namespace OpenRune.InstallerDialogs
open OpenRune.Java OpenRune.Programs OpenRune.JavaInstaller
open OpenRune.Operations (Bytes)

/-- `FatalErrorDialog.showWindow`. -/
def isWindow : Op → Bool
  | .showWindow _ => true
  | _ => false

/-- The system is supported, the server answers with the archive that is wanted, and
    what is there can be read. -/
structure Obtainable (java : Surroundings) (launch : Launch) (env : Environment installer World) : Prop where
  supported : (selectKeys launch.os launch.arch).isSome
  answers : ∀ url w responseCode contentLength reads cut w',
    env (.connect url) w (.answered responseCode contentLength reads cut) w' → responseCode = 200
  intact : ∀ keys, selectKeys launch.os launch.arch = some keys → ∀ url w responseCode contentLength reads w',
    env (.connect url) w (.answered responseCode contentLength reads false) w' →
      ∃ checksum, getValue launch.lines keys.checksum = .ok (some checksum) ∧
        sameChecksum (java.sha256 reads.flatten) checksum = true
  readable : ∀ file w thrown w', env (.digest file) w (.error thrown) w' → w.files (java.locate file) = none

/-- Every operation but the window. -/
def Op.silent (op : Op) : Prop := isWindow op = false

private theorem only_ask {op : Op} (silent : Op.silent op) : Only Op.silent (ask op) := only_perform silent

private theorem verifyChecksum_silent (file : String) (expectedChecksum : Option String) :
    Only Op.silent (verifyChecksum file expectedChecksum) := by
  refine only_bind (only_ask rfl) ?_
  rintro (thrown | actual)
  · dsimp only
    split <;> exact trivial
  · exact trivial

private theorem isInstalled_silent (javaChecksum localHash : Option String) :
    Only Op.silent (isInstalled javaChecksum localHash) := by
  refine only_bind (only_ask rfl) fun present => ?_
  split
  · refine only_bind (only_ofOutcome _) fun expected => ?_
    split
    · exact verifyChecksum_silent _ _
    · exact trivial
  · exact trivial

private theorem readLocalHash_silent : Only Op.silent readLocalHash := by
  refine only_bind (only_ask rfl) ?_
  rintro (thrown | line)
  · dsimp only
    split <;> exact trivial
  · exact trivial

private theorem unzipEntry_silent (java : Surroundings) (totalSize : Nat) (extractedSize : Int) (entry : Entry) :
    Only Op.silent (unzipEntry java totalSize extractedSize entry) := by
  cases entry with
  | directory name => exact only_bind (only_ask rfl) fun _ => trivial
  | file name reads cut =>
    refine only_bind (only_bind (only_ask rfl) fun (present : Bool) => ?_) fun _ => ?_
    · cases present with
      | true => exact trivial
      | false => exact only_ask rfl
    refine only_bind (only_ask rfl) fun opened => only_bind (only_ofOutcome _) fun _ => ?_
    refine only_bind (only_foldlM ?_ reads extractedSize) fun _ => ?_
    · intro extractedSize buffer
      refine only_bind (only_ask rfl) fun written => only_bind (only_ofOutcome _) fun _ => ?_
      exact only_bind (only_ofOutcome _) fun progress => only_bind (only_ask rfl) fun _ => trivial
    · split <;> exact trivial

private theorem unzip_silent (java : Surroundings) (zipFile : String) : Only Op.silent (unzip java zipFile) := by
  refine only_bind (only_ask rfl) fun opened => only_bind (only_ofOutcome _) fun archive => ?_
  refine only_bind (only_ask rfl) fun totalSize => only_bind (only_foldlM ?_ _ _) fun _ => ?_
  · exact unzipEntry_silent java totalSize
  · split <;> exact trivial

private theorem storeLocalHash_silent (java : Surroundings) (hash : Option String) :
    Only Op.silent (storeLocalHash java hash) := by
  refine only_handle ?_ fun thrown => by split <;> exact trivial
  refine only_bind (only_ask rfl) fun _ => only_bind (only_ofOutcome _) fun _ => only_bind (only_ofOutcome _) fun _ => ?_
  exact only_bind (only_ask rfl) fun _ => only_ofOutcome _

section
variable {java : Surroundings} {launch : Launch} {env : Environment installer World} {w : World}

/-- What never opens a window does not in any environment. -/
private theorem silent_run {α : Type} {p : Installing α} (silent : Only Op.silent p) :
    Ensures env (fun op _ => isWindow op = false) p (fun _ _ => True) w :=
  ensures_only silent trivial (fun _ _ silent _ => silent) fun _ _ _ _ _ _ _ => trivial

variable (reacts : ∀ op w reply w', env op w reply w' → Reacts java op w reply w')
include reacts

/-- The loop of `downloadFile` leaves what was read in the archive. -/
private theorem downloadBuffer_run {contentLength total : Int} {sofar : Bytes} (buffer : Bytes)
    (inPlace : w.files (java.locate javaZip) = some sofar) :
    Ensures env (fun op _ => isWindow op = false) (downloadBuffer contentLength total buffer)
      (fun outcome t => outcome.isOk → t.files (java.locate javaZip) = some (sofar ++ buffer)) w := by
  refine ensures_perform rfl ?_
  intro reply t written
  refine ensures_outcome ?_ fun thrown _ => nofun
  rintro done rfl
  have appended : t.files (java.locate javaZip) = some (sofar ++ buffer) := by
    rcases reacts _ _ _ _ written with ⟨-,rfl⟩ | ⟨⟨thrown,failed⟩,-⟩
    · simp [inPlace]
    · cases failed
  refine ensures_outcome (fun progress _ => ?_) fun thrown _ => nofun
  refine ensures_perform rfl ?_
  intro reply u shown
  obtain rfl : u = t := reacts _ _ _ _ shown
  exact fun _ => appended

/-- A download with its checksum is accepted. -/
private theorem acceptDownload_run {checksum : String} {content : Bytes}
    (readable : ∀ file w thrown w', env (.digest file) w (.error thrown) w' → w.files (java.locate file) = none)
    (inPlace : w.files (java.locate javaZip) = some content) (same : sameChecksum (java.sha256 content) checksum = true) :
    Ensures env (fun op _ => isWindow op = false) (acceptDownload (some checksum)) (fun _ _ => True) w := by
  refine ensures_bind (ensures_perform rfl ?_)
  rintro (thrown | actual) t read
  · rw [readable _ _ _ _ read] at inPlace
    cases inPlace
  · obtain ⟨-,⟨content',found,hashed⟩ | ⟨thrown,failed⟩⟩ := reacts _ _ _ _ read
    · rw [inPlace] at found
      cases found
      cases hashed
      have verified : ((some checksum).map (sameChecksum (java.sha256 content))).getD false = true := same
      change Ensures env _ (if ((some checksum).map (sameChecksum (java.sha256 content))).getD false = true then _ else _) _ t
      rw [if_pos verified]
      exact ensures_perform rfl fun _ _ _ => trivial
    · cases failed

private theorem downloadFile_run (obtainable : Obtainable java launch env) {keys : Keys} {javaChecksum : Option String}
    (selected : selectKeys launch.os launch.arch = some keys)
    (given : getValue launch.lines keys.checksum = .ok javaChecksum) (fileURL : Option String) :
    Ensures env (fun op _ => isWindow op = false) (downloadFile fileURL javaChecksum) (fun _ _ => True) w := by
  cases fileURL with
  | none => exact trivial
  | some url =>
    refine ensures_perform rfl ?_
    rintro (thrown | ⟨responseCode,contentLength,reads,cut⟩) t connected
    · exact trivial
    obtain rfl := obtainable.answers _ _ _ _ _ _ _ connected
    dsimp only
    rw [if_pos rfl]
    refine ensures_perform rfl ?_
    intro opened u opens
    refine ensures_outcome ?_ fun _ _ => trivial
    rintro done rfl
    have emptied : u.files (java.locate javaZip) = some [] := by
      rcases reacts _ _ _ _ opens with ⟨-,rfl⟩ | ⟨⟨thrown,failed⟩,-⟩
      · simp
      · cases failed
    let Read : List Bytes → Int → World → Prop := fun rest _ v =>
      ∃ sofar, v.files (java.locate javaZip) = some sofar ∧ sofar ++ rest.flatten = reads.flatten
    have start : Read reads 0 u := ⟨[],emptied,rfl⟩
    refine ensures_bind (ensures_foldlM start ?_ ?_)
    · rintro buffer rest total v ⟨sofar,inPlace,whole⟩
      refine ensures_mono (downloadBuffer_run reacts buffer inPlace) ?_
      rintro (thrown | total') x appended
      · exact trivial
      · exact ⟨sofar ++ buffer,appended rfl,by simpa using whole⟩
    · rintro total v ⟨sofar,inPlace,whole⟩
      cases cut with
      | true => exact trivial
      | false =>
        obtain rfl : sofar = reads.flatten := by simpa using whole
        obtain ⟨checksum,wanted,same⟩ := obtainable.intact keys selected _ _ _ _ _ _ connected
        obtain rfl : javaChecksum = some checksum := Except.ok.inj (given.symm.trans wanted)
        exact acceptDownload_run reacts obtainable.readable inPlace same

private theorem install_run (obtainable : Obtainable java launch env) {keys : Keys} {javaChecksum : Option String}
    (selected : selectKeys launch.os launch.arch = some keys)
    (given : getValue launch.lines keys.checksum = .ok javaChecksum) (javaDownloadLink : Option String) :
    Ensures env (fun op _ => isWindow op = false) (install java javaChecksum javaDownloadLink) (fun _ _ => True) w := by
  refine ensures_bind (ensures_mono (downloadFile_run reacts obtainable selected given javaDownloadLink) ?_)
  rintro (thrown | javaFile) t -
  · exact trivial
  refine silent_run (only_bind (only_ask rfl) fun _ => only_bind (only_ofOutcome _) fun _ => ?_)
  refine only_bind (unzip_silent java javaFile) fun _ => only_bind ?_ fun _ => ?_
  · exact only_bind (only_ask rfl) fun _ => only_ofOutcome _
  · exact only_bind (storeLocalHash_silent java javaChecksum) fun _ => only_ask rfl

private theorem ensureInstalled_run (obtainable : Obtainable java launch env) {keys : Keys}
    (selected : selectKeys launch.os launch.arch = some keys) :
    Ensures env (fun op _ => isWindow op = false) (ensureInstalled java launch.lines keys) (fun _ _ => True) w := by
  refine ensures_outcome (fun version _ => ?_) fun _ _ => trivial
  refine ensures_perform rfl fun _ t₁ _ => ensures_perform rfl fun _ t₂ _ => ?_
  refine ensures_outcome (fun javaChecksum given => ?_) fun _ _ => trivial
  refine ensures_outcome (fun javaDownloadLink _ => ?_) fun _ _ => trivial
  refine ensures_bind (ensures_mono (silent_run readLocalHash_silent) ?_)
  rintro (thrown | localHash) t₃ -
  · exact trivial
  refine ensures_perform rfl fun _ t₄ _ => ?_
  refine ensures_bind (ensures_mono (silent_run (isInstalled_silent _ _)) ?_)
  rintro (thrown | current) t₅ -
  · exact trivial
  cases current with
  | true => exact trivial
  | false =>
    refine ensures_bind (ensures_mono (install_run reacts obtainable selected given javaDownloadLink) ?_)
    rintro (thrown | done) t₆ - <;> exact trivial

/-- Where the archive can be had, the installer opens no window. -/
theorem init_silent (obtainable : Obtainable java launch env) :
    Ensures env (fun op _ => isWindow op = false) (init java launch) (fun _ _ => True) w := by
  unfold init
  obtain ⟨keys,selected⟩ := Option.isSome_iff_exists.mp obtainable.supported
  rw [selected]
  refine ensures_handle (ensures_mono (ensureInstalled_run reacts obtainable selected) ?_)
  rintro (thrown | ending) t -
  · dsimp only
    split <;> exact trivial
  · exact trivial

end
end OpenRune.InstallerDialogs
