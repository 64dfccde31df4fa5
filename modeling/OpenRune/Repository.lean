import OpenRune.Downloads

/-!
# The repository directory

`clean`, `download` and `verifyJarHashes` keep the artifacts of the bootstrap in
the repository directory. `download` decides in a first pass what to fetch, and
which diff to patch with, and acts on it in a second pass.
-/
namespace OpenRune.Repository
open OpenRune.Java OpenRune.Beans OpenRune.Programs OpenRune.Operations OpenRune.Downloads
set_option linter.unusedSimpArgs false

/-- `Launcher.hash`. -/
def hash (name : String) : Method String := do ofOutcome (← ask (.hash name))

/-! ## Streams -/

/-- A `ByteArrayOutputStream` takes every write. -/
def noWrite (_ : Nat) (_ : Bytes) : Method Unit := pure ()

/-- An output stream on a file of the repository directory. -/
def writeFile (name : String) (position : Nat) (buffer : Bytes) : Method Unit := do
  ofOutcome (← ask (.write name position buffer))

def newOutputStream (name : String) : Method Unit := do ofOutcome (← ask (.newOutputStream name))

/-! ## The first pass -/

/-- The hash of the file in place; one that cannot be read is deleted. -/
def existingHash (name : String) : Method (Option String) := do
  match ← attempt (hash name) with
  | .ok found => return some found
  | .error .fileNotFound => return none
  | .error .io => do
    let _ ← ask (.delete name)
    return none
  | .error thrown => throw thrown

/-- The body of the loop over the diffs: the last diff whose source is in place. -/
def considerDiff (chosen : Option Diff) (entry : Option Diff) : Method (Option Diff) := do
  let diff ← ofOutcome (deref entry)
  let fromName ← ofOutcome (deref diff.fromName)
  match ← attempt (hash fromName) with
  | .error thrown => if thrown.isIOException then return chosen else throw thrown
  | .ok oldhash =>
    let fromHash ← ofOutcome (deref diff.fromHash)
    return if fromHash = oldhash then some diff else chosen

def chooseDiff (nodiff : Bool) (artifact : Artifact) : Method (Option Diff) :=
  if nodiff then return none else (artifact.diffs.getD []).foldlM considerDiff none

/-- What the first pass hands to the second. `diffs` is the `HashMap` from
    artifacts, which are equal when all their fields are, to diffs. -/
structure Plan where
  toDownload : List Artifact := []
  diffs : List (Artifact × Diff) := []
  totalDownloadBytes : Int := 0

def Plan.diff (plan : Plan) (artifact : Artifact) : Option Diff := plan.diffs.lookup artifact

/-- The body of the loop over the artifacts. -/
def planArtifact (nodiff : Bool) (plan : Plan) (artifact : Artifact) : Method Plan := do
  let name ← ofOutcome (deref artifact.name)
  let found ← existingHash name
  if found = artifact.hash then return plan
  let chosen ← chooseDiff nodiff artifact
  let downloadSize := (chosen.map Diff.size).getD artifact.size
  return {
    toDownload := plan.toDownload ++ [artifact]
    diffs := match chosen with
      | some diff => (artifact,diff) :: plan.diffs
      | none => plan.diffs
    totalDownloadBytes := int32 (plan.totalDownloadBytes + downloadSize) }

/-! ## The second pass -/

/-- `downloaded` and `totalDownloadBytes`. -/
structure Progress where
  downloaded : Int
  totalDownloadBytes : Int

def showProgress (total totalBytes completed : Int) : Method Unit := do
  ask (.stage (int32 (total + completed)) totalBytes)

def writePiece (name : String) (sofar buffer : Bytes) : Method Bytes := do
  writeFile name sofar.length buffer
  return sofar ++ buffer

/-- The delta applier reads the old file and writes the new one. -/
def applyDelta (old name : String) (patch : Bytes) : Method Bytes := do
  let delta ← ask (.applyDelta old patch)
  let written ← delta.writes.foldlM (writePiece name) []
  match delta.stopped with
  | some thrown => throw thrown
  | none => return written

/-- The downloaded diff is unpacked and applied, and the result hashed. -/
def patchFile (sha256 : Bytes → String) (name : String) (diff : Diff) (out : Bytes) : Method String := do
  let old ← ofOutcome (deref diff.fromName)
  ofOutcome (← ask (.gunzip out))
  newOutputStream name
  let written ← applyDelta old name out
  return sha256 written

/-- `catch (IOException | VerificationException e)`. -/
def fallThrough {α : Type} (value : α) (thrown : Thrown) : Method α :=
  if thrown.isIOException ∨ thrown = .verification then return value else throw thrown

/-- Whether patching has produced the artifact, with `downloaded` so far. -/
def tryDiff (sha256 : Bytes → String) (artifact : Artifact) (name : String) (diff : Diff) (state : Progress) :
    Method (Bool × Int) := do
  match ← attempt (downloadTo sha256 (ask (.connect diff.path)) diff.hash
      (showProgress state.downloaded state.totalDownloadBytes) noWrite) with
  | .error thrown => fallThrough (false,state.downloaded) thrown
  | .ok out =>
    let downloaded := int32 (state.downloaded + diff.size)
    match ← attempt (do
        let patched ← patchFile sha256 name diff out
        let expected ← ofOutcome (deref artifact.hash)
        return decide (expected = patched)) with
    | .error thrown => fallThrough (false,downloaded) thrown
    | .ok same => return (same,downloaded)

/-- The full download. `total` is `downloaded` as it was before the diff. -/
def downloadFull (sha256 : Bytes → String) (artifact : Artifact) (name : String) (total : Int) (state : Progress) :
    Method Progress := do
  newOutputStream name
  match ← attempt (downloadTo sha256 (ask (.connect artifact.path)) artifact.hash
      (showProgress total state.totalDownloadBytes) (writeFile name)) with
  | .ok _ => return { state with downloaded := int32 (state.downloaded + artifact.size) }
  | .error .verification => return state
  | .error thrown => throw thrown

/-- The body of the loop of the second pass. -/
def fetchArtifact (sha256 : Bytes → String) (plan : Plan) (state : Progress) (artifact : Artifact) :
    Method Progress := do
  let name ← ofOutcome (deref artifact.name)
  match plan.diff artifact with
  | none => downloadFull sha256 artifact name state.downloaded state
  | some diff =>
    let (patched,downloaded) ← tryDiff sha256 artifact name diff state
    if patched then return { state with downloaded := downloaded }
    downloadFull sha256 artifact name state.downloaded {
      downloaded := downloaded
      totalDownloadBytes := int32 (int32 (state.totalDownloadBytes - diff.size) + artifact.size) }

/-- `Launcher.download(List, boolean)`. -/
def download (sha256 : Bytes → String) (artifacts : List Artifact) (nodiff : Bool) : Method Unit := do
  let isCompatible ← ask .isCompatible
  let plan ← artifacts.foldlM (planArtifact (nodiff || !isCompatible)) {}
  let _ ← plan.toDownload.foldlM (fetchArtifact sha256 plan) ⟨0,plan.totalDownloadBytes⟩

/-! ## Cleaning and verifying -/

def sourceName (entry : Option Diff) : Except Thrown (Option String) := do return (← deref entry).fromName

/-- The names `clean` keeps of one artifact: its own, and the sources of its diffs. -/
def keptNames (artifact : Artifact) : Except Thrown (List (Option String)) := do
  let sources ← (artifact.diffs.getD []).mapM sourceName
  return artifact.name :: sources

def cleanFile (artifactNames : List (Option String)) (name : String) : Method Unit := do
  let isFile : Bool ← ask (.isFile name)
  if isFile ∧ some name ∉ artifactNames then
    let _ ← ask (.delete name)

/-- `Launcher.clean`. -/
def clean (artifacts : List Artifact) : Method Unit := do
  match ← ask .listFiles with
  | none => return ()
  | some existingFiles =>
    let artifactNames ← ofOutcome (artifacts.mapM keptNames)
    existingFiles.forM (cleanFile artifactNames.flatten)

def verifyJarHash (artifact : Artifact) : Method Unit := do
  let name ← ofOutcome (deref artifact.name)
  match ← attempt (hash name) with
  | .error thrown => if thrown.isIOException then throw .verification else throw thrown
  | .ok fileHash => if some fileHash ≠ artifact.hash then throw .verification

/-- `Launcher.verifyJarHashes`. -/
def verifyJarHashes (artifacts : List Artifact) : Method Unit := artifacts.forM verifyJarHash

/-! ## Which operations they perform -/

section
variable {target : String}

private theorem hash_only (name : String) : Only (Op.touches target) (hash name) :=
  only_bind (only_ask trivial) fun _ => only_ofOutcome _

private theorem showProgress_only (total totalBytes completed : Int) :
    Only (Op.touches target) (showProgress total totalBytes completed) := only_ask trivial

private theorem writeFile_only (position : Nat) (buffer : Bytes) :
    Only (Op.touches target) (writeFile target position buffer) := only_bind (only_ask rfl) fun _ => only_ofOutcome _

private theorem newOutputStream_only : Only (Op.touches target) (newOutputStream target) :=
  only_bind (only_ask rfl) fun _ => only_ofOutcome _

private theorem existingHash_only : Only (Op.touches target) (existingHash target) := by
  refine only_bind (only_attempt (hash_only target)) ?_
  intro outcome
  split
  · exact only_pure _
  · exact only_pure _
  · exact only_bind (only_ask rfl) fun _ => only_pure _
  · exact only_throw _

private theorem considerDiff_only (chosen entry : Option Diff) :
    Only (Op.touches target) (considerDiff chosen entry) := by
  refine only_bind (only_ofOutcome _) fun diff => only_bind (only_ofOutcome _) fun fromName => ?_
  refine only_bind (only_attempt (hash_only fromName)) ?_
  intro outcome
  split
  · split
    · exact only_pure _
    · exact only_throw _
  · exact only_bind (only_ofOutcome _) fun _ => only_pure _

private theorem chooseDiff_only (nodiff : Bool) (artifact : Artifact) :
    Only (Op.touches target) (chooseDiff nodiff artifact) := by
  unfold chooseDiff
  split
  · exact only_pure _
  · exact only_foldlM considerDiff_only _ _

theorem planArtifact_only {nodiff : Bool} {plan : Plan} {artifact : Artifact} (named : artifact.name = some target) :
    Only (Op.touches target) (planArtifact nodiff plan artifact) := by
  refine only_outcome ?_
  rintro name given
  rw [named] at given
  cases given
  refine only_bind existingHash_only fun found => ?_
  split
  · exact only_pure _
  · exact only_bind (chooseDiff_only nodiff artifact) fun _ => only_pure _

private theorem patchFile_only (sha256 : Bytes → String) (diff : Diff) (out : Bytes) :
    Only (Op.touches target) (patchFile sha256 target diff out) := by
  refine only_bind (only_ofOutcome _) fun old => only_bind (only_ask trivial) fun _ => ?_
  refine only_bind (only_ofOutcome _) fun _ => only_bind newOutputStream_only fun _ => ?_
  refine only_bind (only_bind (only_ask trivial) fun delta => ?_) fun _ => only_pure _
  refine only_bind (only_foldlM ?_ _ _) fun _ => ?_
  · exact fun _ _ => only_bind (writeFile_only _ _) fun _ => only_pure _
  · split
    · exact only_throw _
    · exact only_pure _

private theorem fallThrough_only {α : Type} (value : α) (thrown : Thrown) :
    Only (Op.touches target) (fallThrough value thrown) := by
  unfold fallThrough
  split
  · exact only_pure _
  · exact only_throw _

theorem tryDiff_only (sha256 : Bytes → String) (artifact : Artifact) (diff : Diff) (state : Progress) :
    Only (Op.touches target) (tryDiff sha256 artifact target diff state) := by
  refine only_bind (only_attempt (downloadTo_only (only_ask trivial) (showProgress_only _ _) fun _ _ => only_pure _)) ?_
  intro outcome
  split
  · exact fallThrough_only _ _
  · rename_i out
    refine only_bind (only_attempt (only_bind (patchFile_only sha256 diff out) fun _ => ?_)) ?_
    · exact only_bind (only_ofOutcome _) fun _ => only_pure _
    · intro patched
      split
      · exact fallThrough_only _ _
      · exact only_pure _

theorem downloadFull_only (sha256 : Bytes → String) (artifact : Artifact) (total : Int) (state : Progress) :
    Only (Op.touches target) (downloadFull sha256 artifact target total state) := by
  refine only_bind newOutputStream_only fun _ => ?_
  refine only_bind (only_attempt (downloadTo_only (only_ask trivial) (showProgress_only _ _) writeFile_only)) ?_
  intro outcome
  split
  · exact only_pure _
  · exact only_pure _
  · exact only_throw _

theorem fetchArtifact_only {sha256 : Bytes → String} {plan : Plan} {state : Progress} {artifact : Artifact}
    (named : artifact.name = some target) : Only (Op.touches target) (fetchArtifact sha256 plan state artifact) := by
  refine only_outcome ?_
  rintro name given
  rw [named] at given
  cases given
  split
  · exact downloadFull_only _ _ _ _
  · refine only_bind (tryDiff_only _ _ _ _) ?_
    rintro ⟨patched,downloaded⟩
    dsimp only
    split
    · exact only_pure _
    · exact downloadFull_only _ _ _ _

private theorem cleanFile_only (artifactNames : List (Option String)) :
    Only (Op.touches target) (cleanFile artifactNames target) := by
  refine only_bind (only_ask trivial) fun isFile => ?_
  split
  · exact only_bind (only_ask rfl) fun _ => only_pure _
  · exact only_pure _

private theorem verifyJarHash_only (artifact : Artifact) : Only (Op.touches target) (verifyJarHash artifact) := by
  refine only_bind (only_ofOutcome _) fun name => only_bind (only_attempt (hash_only name)) ?_
  intro outcome
  split
  · split <;> exact only_throw _
  · split
    · exact only_throw _
    · exact only_pure _

end

theorem touches_syncs {name : String} (op : Op) (touches : Op.touches name op) : Op.syncs op := ⟨name,touches⟩

theorem planArtifact_syncs (nodiff : Bool) (plan : Plan) (artifact : Artifact) :
    Only Op.syncs (planArtifact nodiff plan artifact) := by
  cases named : artifact.name with
  | some name => exact only_mono (planArtifact_only named) touches_syncs
  | none =>
    unfold planArtifact
    rw [named]
    exact only_throw _

theorem fetchArtifact_syncs (sha256 : Bytes → String) (plan : Plan) (state : Progress) (artifact : Artifact) :
    Only Op.syncs (fetchArtifact sha256 plan state artifact) := by
  cases named : artifact.name with
  | some name => exact only_mono (fetchArtifact_only named) touches_syncs
  | none =>
    unfold fetchArtifact
    rw [named]
    exact only_throw _

theorem download_only (sha256 : Bytes → String) (artifacts : List Artifact) (nodiff : Bool) :
    Only Op.syncs (download sha256 artifacts nodiff) := by
  refine only_bind (only_ask ⟨"",trivial⟩) fun isCompatible => ?_
  refine only_bind (only_foldlM (planArtifact_syncs _) _ _) fun plan => ?_
  exact only_bind (only_foldlM (fetchArtifact_syncs sha256 plan) _ _) fun _ => only_pure _

theorem clean_only (artifacts : List Artifact) : Only Op.syncs (clean artifacts) := by
  refine only_bind (only_ask ⟨"",trivial⟩) ?_
  intro existingFiles
  split
  · exact only_pure _
  · refine only_bind (only_ofOutcome _) fun artifactNames => only_forM ?_ _
    exact fun name => only_mono (cleanFile_only _) touches_syncs

theorem verifyJarHashes_only (artifacts : List Artifact) : Only Op.syncs (verifyJarHashes artifacts) :=
  only_forM (fun artifact => only_mono (verifyJarHash_only artifact) (@touches_syncs "")) artifacts

/-! ## What verification establishes -/

/-- The file of the artifact is in place, and its hash is that of the artifact. -/
def Verified (sha256 : Bytes → String) (locate : String → String) (w : World) (artifact : Artifact) : Prop :=
  ∃ name content, artifact.name = some name ∧ w.files (locate name) = some (.file content) ∧
    artifact.hash = some (sha256 content)

theorem node_hash_ok {sha256 : Bytes → String} {node : Option Node} {found : String} (hashed : Node.hash sha256 node = .ok found) :
    ∃ content, node = some (.file content) ∧ found = sha256 content := by
  match node with
  | none => cases hashed
  | some (.file content) => cases hashed; exact ⟨content,rfl,rfl⟩
  | some .directory => cases hashed
  | some .damaged => cases hashed

section
variable {sha256 : Bytes → String} {locate : String → String} {env : Environment launcher World} {w : World}
  (sound : ∀ op w reply w', env op w reply w' → Reacts sha256 locate op w reply w')
include sound

/-- Hashing changes nothing; it may fail to read. -/
theorem hash_spec (name : String) : Ends env (hash name) (fun outcome t =>
    t = w ∧ (outcome = Node.hash sha256 (w.files (locate name)) ∨ outcome = .error .io)) w := by
  refine ensures_perform trivial ?_
  intro reply t reacts
  exact ensures_ofOutcome (sound _ _ _ _ reacts)

theorem verifyJarHash_spec (artifact : Artifact) : Ends env (verifyJarHash artifact)
    (fun outcome t => t = w ∧ (outcome = .ok () → Verified sha256 locate w artifact)) w := by
  refine ensures_bind (ensures_ofOutcome ?_)
  cases named : artifact.name with
  | none => exact ⟨rfl,nofun⟩
  | some name =>
    refine ensures_attempt (ensures_mono (hash_spec sound name) ?_)
    rintro outcome t ⟨rfl,hashed⟩
    cases outcome with
    | error thrown =>
      dsimp only
      split <;> exact ⟨rfl,nofun⟩
    | ok found =>
      rcases hashed with hashed | failed
      · obtain ⟨content,inPlace,rfl⟩ := node_hash_ok hashed.symm
        dsimp only
        split
        · exact ⟨rfl,nofun⟩
        · rename_i same
          exact ⟨rfl,fun _ => ⟨name,content,named,inPlace,(not_not.mp same).symm⟩⟩
      · cases failed

/-- The loop has verified the artifacts before the remaining ones. -/
theorem verifyJarHashes_spec (artifacts : List Artifact) : Ends env (verifyJarHashes artifacts)
    (fun outcome t => t = w ∧ (outcome = .ok () → ∀ artifact ∈ artifacts, Verified sha256 locate w artifact)) w := by
  refine @ensures_forM _ _ _ _ _ _ _
    (fun rest t => t = w ∧ ∀ artifact ∈ artifacts, artifact ∈ rest ∨ Verified sha256 locate w artifact) _ _ _ ?_ ?_ ?_
  · exact ⟨rfl,fun artifact member => .inl member⟩
  · rintro artifact rest s ⟨rfl,seen⟩
    refine ensures_mono (verifyJarHash_spec sound artifact) ?_
    rintro outcome t ⟨rfl,verified⟩
    cases outcome with
    | error thrown => exact ⟨rfl,nofun⟩
    | ok done =>
      refine ⟨rfl,?_⟩
      intro other member
      rcases seen other member with here | before
      · rcases List.mem_cons.mp here with rfl | later
        · exact .inr (verified rfl)
        · exact .inl later
      · exact .inr before
  · rintro s ⟨rfl,seen⟩
    refine ⟨rfl,?_⟩
    intro _ artifact member
    exact (seen artifact member).resolve_left List.not_mem_nil

end
end OpenRune.Repository
