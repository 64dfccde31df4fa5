import OpenRune.Repository

/-!
# Synchronising the repository directory

Whatever the directory held, and whatever the diffs and their servers do, a clean
followed by a download leaves every artifact verified, as long as the artifacts
themselves are served and files can be written. Each turn of the two loops of
`download` touches the file of its own artifact only.
-/
namespace OpenRune.Sync
open OpenRune.Java OpenRune.Beans OpenRune.Programs OpenRune.Operations OpenRune.Downloads
  OpenRune.Repository

/-- `clean`, `download` and `verifyJarHashes`, as `main` calls them. -/
def synchronise (sha256 : Bytes → String) (artifacts : List Artifact) (nodiff : Bool) : Method Unit := do
  clean artifacts
  download sha256 artifacts nodiff
  verifyJarHashes artifacts

/-- Caught when a diff fails. -/
def Tolerated (thrown : Thrown) : Prop := thrown.isIOException = true ∨ thrown = .verification

/-- A diff with the members that `download` uses as objects. -/
def Readable (diff : Diff) : Prop :=
  (∃ fromName, diff.fromName = some fromName) ∧ (∃ fromHash, diff.fromHash = some fromHash) ∧
    ∃ hash, diff.hash = some hash

/-- No entry among the diffs of an artifact is null, and when diffs are to be used
    each of them is readable. -/
def CompleteDiffs (nodiff : Bool) (artifact : Artifact) : Prop :=
  ∀ entry ∈ artifact.diffs.getD [], ∃ diff, entry = some diff ∧ (nodiff = false → Readable diff)

/-- Artifacts with a name and complete diffs, no two of them in the same file. -/
structure WellFormed (locate : String → String) (nodiff : Bool) (artifacts : List Artifact) : Prop where
  named : ∀ artifact ∈ artifacts, ∃ name, artifact.name = some name
  distinct : (artifacts.map fun artifact => artifact.name.map locate).Nodup
  complete : ∀ artifact ∈ artifacts, CompleteDiffs nodiff artifact

/-- Surroundings that read and write files without failure and serve every
    artifact. Diffs may be anything, but fail in ways that the launcher expects. -/
structure Healthy (sha256 : Bytes → String) (locate : String → String) (artifacts : List Artifact)
    (env : Environment launcher World) : Prop where
  total : Total env
  sound : ∀ op w reply w', env op w reply w' → Reacts sha256 locate op w reply w'
  reads : ∀ name w reply w', env (.hash name) w reply w' → reply = Node.hash sha256 (w.files (locate name))
  opens : ∀ name w reply w', env (.newOutputStream name) w reply w' → w.files (locate name) ≠ some .directory →
    reply = .ok ()
  writes : ∀ name position buffer w reply w', env (.write name position buffer) w reply w' → reply = .ok ()
  serves : ∀ artifact ∈ artifacts, ∀ w reply w', env (.connect artifact.path) w reply w' →
    ∃ reads, reply = .stream reads false ∧ artifact.hash = some (sha256 reads.flatten)
  refuses : ∀ path w thrown w', env (.connect path) w (.refused thrown) w' → Tolerated thrown
  unpacks : ∀ bytes w thrown w', env (.gunzip bytes) w (.error thrown) w' → Tolerated thrown
  patches : ∀ old patch w (delta : Delta) w', env (.applyDelta old patch) w delta w' →
    ∀ thrown, delta.stopped = some thrown → Tolerated thrown

/-- Surroundings in which files can be opened and written. -/
structure Writable (sha256 : Bytes → String) (locate : String → String) (env : Environment launcher World) : Prop where
  sound : ∀ op w reply w', env op w reply w' → Reacts sha256 locate op w reply w'
  opens : ∀ name w reply w', env (.newOutputStream name) w reply w' → w.files (locate name) ≠ some .directory →
    reply = .ok ()
  writes : ∀ name position buffer w reply w', env (.write name position buffer) w reply w' → reply = .ok ()

/-- Surroundings in which a file that can be read is read. -/
structure Legible (sha256 : Bytes → String) (locate : String → String) (env : Environment launcher World) : Prop where
  sound : ∀ op w reply w', env op w reply w' → Reacts sha256 locate op w reply w'
  reads : ∀ name w reply w', env (.hash name) w reply w' → reply = Node.hash sha256 (w.files (locate name))

section
variable {sha256 : Bytes → String} {locate : String → String} {artifacts : List Artifact}
  {env : Environment launcher World} {w : World} (legible : Legible sha256 locate env)
include legible

theorem read_spec (name : String) : Ends env (hash name)
    (fun outcome t => t = w ∧ outcome = Node.hash sha256 (w.files (locate name))) w := by
  refine ensures_perform trivial ?_
  intro reply t reacts
  exact ensures_ofOutcome ⟨(legible.sound _ _ _ _ reacts).1,legible.reads _ _ _ _ reacts⟩

/-- Only the file at the path differs, and no directory was made. -/
def Kept (path : String) (w t : World) : Prop :=
  (∀ other, other ≠ path → t.files other = w.files other) ∧
    ∀ other, w.files other ≠ some .directory → t.files other ≠ some .directory

theorem kept_spec {α : Type} {name : String} {p : Method α} (only : Only (Op.touches name) p) :
    Ends env p (fun _ t => Kept (locate name) w t) w := by
  refine ensures_only only ⟨fun _ _ => rfl,fun _ plain => plain⟩ (fun _ _ _ _ => trivial) ?_
  rintro op t reply u touches ⟨same,plain⟩ reacts
  have reacts := legible.sound _ _ _ _ reacts
  refine ⟨?_,fun other still => reacts_plain reacts ⟨name,touches⟩ (plain other still)⟩
  intro other different
  rw [reacts_frame reacts touches different]
  exact same other different

/-- Verification accepts verified artifacts. -/
theorem verifyJarHashes_accepts (verified : ∀ artifact ∈ artifacts, Verified sha256 locate w artifact) :
    Ends env (verifyJarHashes artifacts) (fun outcome t => outcome = .ok () ∧ t = w) w := by
  refine @ensures_forM _ _ _ _ _ _ _ (fun rest t => rest ⊆ artifacts ∧ t = w) _ _ _ ⟨fun _ member => member,rfl⟩ ?_ ?_
  · rintro artifact rest t ⟨remaining,rfl⟩
    obtain ⟨name,content,named,inPlace,hashed⟩ := verified artifact (remaining List.mem_cons_self)
    refine ensures_outcome ?_ fun thrown failed => by simp [named] at failed
    intro name' given
    rw [named] at given
    cases given
    refine ensures_attempt (ensures_mono (read_spec legible name) ?_)
    rintro outcome u ⟨rfl,rfl⟩
    rw [inPlace]
    simp only [Node.hash,hashed,ne_eq,not_true_eq_false,if_false]
    exact ⟨fun _ later => remaining (List.mem_cons_of_mem _ later),rfl⟩
  · rintro t ⟨-,rfl⟩
    exact ⟨rfl,rfl⟩

end

section
variable {sha256 : Bytes → String} {locate : String → String} {env : Environment launcher World} {w : World}
  (writable : Writable sha256 locate env)
include writable

/-- Opening the file of an artifact empties it. -/
theorem newOutputStream_spec {name : String} (plain : w.files (locate name) ≠ some .directory) :
    Ends env (newOutputStream name) (fun outcome t => outcome = .ok () ∧ t.files (locate name) = some (.file [])) w := by
  refine ensures_perform trivial ?_
  intro reply t reacts
  obtain rfl := writable.opens _ _ _ _ reacts plain
  refine ensures_ofOutcome ⟨rfl,?_⟩
  rcases writable.sound _ _ _ _ reacts with ⟨-,-,rfl⟩ | ⟨⟨thrown,failed⟩,-⟩
  · simp
  · cases failed

/-- Writing at the end of the file appends. -/
theorem writeFile_spec {name : String} {content : Bytes} (buffer : Bytes)
    (inPlace : w.files (locate name) = some (.file content)) : Ends env (writeFile name content.length buffer)
      (fun outcome t => outcome = .ok () ∧ t.files (locate name) = some (.file (content ++ buffer))) w := by
  refine ensures_perform trivial ?_
  intro reply t reacts
  obtain rfl := writable.writes _ _ _ _ _ _ reacts
  refine ensures_ofOutcome ⟨rfl,?_⟩
  rcases writable.sound _ _ _ _ reacts with ⟨-,rfl⟩ | ⟨⟨thrown,failed⟩,-⟩
  · simp [inPlace,Node.overwrite,overwrite_end]
  · cases failed

end

theorem Healthy.legible {sha256 : Bytes → String} {locate : String → String} {artifacts : List Artifact}
    {env : Environment launcher World} (healthy : Healthy sha256 locate artifacts env) : Legible sha256 locate env :=
  ⟨healthy.sound,healthy.reads⟩

theorem Healthy.writable {sha256 : Bytes → String} {locate : String → String} {artifacts : List Artifact}
    {env : Environment launcher World} (healthy : Healthy sha256 locate artifacts env) : Writable sha256 locate env :=
  ⟨healthy.sound,healthy.opens,healthy.writes⟩

section
variable {sha256 : Bytes → String} {locate : String → String} {artifacts : List Artifact}
  {env : Environment launcher World} {w : World} (healthy : Healthy sha256 locate artifacts env)
include healthy

/-! ## The first pass -/

omit healthy in
theorem node_hash_error {node : Option Node} {thrown : Thrown} (hashed : Node.hash sha256 node = .error thrown) :
    thrown = .fileNotFound ∨ thrown = .io := by
  match node with
  | none => cases hashed; exact .inl rfl
  | some (.file content) => cases hashed
  | some .directory => cases hashed; exact .inl rfl
  | some .damaged => cases hashed; exact .inr rfl

/-- The file that is in place has the hash that was found. -/
theorem existingHash_spec (name : String) : Ends env (existingHash name) (fun outcome t => ∃ found, outcome = .ok found ∧
    ∀ hash, found = some hash → ∃ content, t.files (locate name) = some (.file content) ∧ hash = sha256 content) w := by
  refine ensures_attempt (ensures_mono (read_spec healthy.legible name) ?_)
  rintro (thrown | found) t ⟨rfl,hashed⟩
  · rcases node_hash_error hashed.symm with rfl | rfl
    · exact ⟨none,rfl,nofun⟩
    · exact ⟨trivial,fun _ _ _ => ⟨none,rfl,nofun⟩⟩
  · obtain ⟨content,inPlace,same⟩ := node_hash_ok hashed.symm
    refine ⟨some found,rfl,?_⟩
    rintro hash ⟨⟩
    exact ⟨content,inPlace,same⟩

theorem considerDiff_spec {chosen : Option Diff} {diff : Diff} (readable : Readable diff)
    (before : ∀ diff, chosen = some diff → Readable diff) : Ends env (considerDiff chosen (some diff))
    (fun outcome _ => ∃ next, outcome = .ok next ∧ ∀ diff, next = some diff → Readable diff) w := by
  obtain ⟨⟨fromName,givenName⟩,⟨fromHash,givenHash⟩,-⟩ := id readable
  refine ensures_outcome ?_ nofun
  rintro diff' ⟨⟩
  refine ensures_outcome ?_ fun thrown failed => by simp [givenName] at failed
  intro source _
  refine ensures_attempt (ensures_mono (read_spec healthy.legible source) ?_)
  rintro (thrown | oldhash) t ⟨rfl,hashed⟩
  · rcases node_hash_error hashed.symm with rfl | rfl
    · exact ⟨chosen,rfl,before⟩
    · exact ⟨chosen,rfl,before⟩
  · refine ensures_outcome ?_ fun thrown failed => by simp [givenHash] at failed
    intro expected _
    refine ⟨_,rfl,?_⟩
    intro other same
    split at same
    · cases same
      exact readable
    · exact before other same

theorem chooseDiff_spec {nodiff incompatible : Bool} {artifact : Artifact} (complete : CompleteDiffs nodiff artifact) :
    Ends env (chooseDiff (nodiff || incompatible) artifact)
      (fun outcome _ => ∃ chosen, outcome = .ok chosen ∧ ∀ diff, chosen = some diff → Readable diff) w := by
  unfold chooseDiff
  split
  · exact ⟨none,rfl,nofun⟩
  · rename_i used
    have used : nodiff = false := by
      cases nodiff with
      | true => exact absurd rfl used
      | false => rfl
    refine @ensures_foldlM _ _ _ _ _ _ _ _ (fun rest chosen _ => (∀ entry ∈ rest, entry ∈ artifact.diffs.getD []) ∧
      ∀ diff, chosen = some diff → Readable diff) _ _ _ _ ⟨fun _ member => member,nofun⟩ ?_ ?_
    · rintro entry rest chosen t ⟨listed,before⟩
      obtain ⟨diff,rfl,readable⟩ := complete entry (listed entry List.mem_cons_self)
      refine ensures_mono (considerDiff_spec healthy (readable used) before) ?_
      rintro outcome u ⟨next,rfl,after⟩
      exact ⟨fun other member => listed other (List.mem_cons_of_mem _ member),after⟩
    · rintro chosen t ⟨-,after⟩
      exact ⟨chosen,rfl,after⟩

/-- The artifact is in place already, or it is on the list of downloads. -/
theorem planArtifact_spec {nodiff incompatible : Bool} {plan : Plan} {artifact : Artifact} {name expected : String}
    (named : artifact.name = some name) (hashed : artifact.hash = some expected)
    (complete : CompleteDiffs nodiff artifact) : Ends env (planArtifact (nodiff || incompatible) plan artifact) (fun outcome t => ∃ plan', outcome = .ok plan' ∧
      (Verified sha256 locate t artifact ∨ artifact ∈ plan'.toDownload) ∧
      plan.toDownload ⊆ plan'.toDownload ∧ plan'.toDownload ⊆ artifact :: plan.toDownload ∧
      ∀ pair ∈ plan'.diffs, pair ∈ plan.diffs ∨ Readable pair.2) w := by
  refine ensures_outcome ?_ fun thrown failed => by simp [named] at failed
  intro name' given
  rw [named] at given
  cases given
  refine ensures_bind (ensures_mono (existingHash_spec healthy name) ?_)
  rintro outcome t ⟨found,rfl,inPlace⟩
  dsimp only
  split
  · rename_i same
    obtain ⟨content,there,rfl⟩ := inPlace expected (same.trans hashed)
    exact ⟨plan,rfl,.inl ⟨name,content,named,there,hashed⟩,fun _ member => member,
      List.subset_cons_self _ _,fun _ member => .inl member⟩
  · refine ensures_bind (ensures_mono (chooseDiff_spec healthy complete) ?_)
    rintro outcome u ⟨chosen,rfl,readable⟩
    refine ⟨_,rfl,.inr (by simp),by simp,?_,?_⟩
    · intro other member
      rcases List.mem_append.mp member with before | new
      · exact List.mem_cons_of_mem _ before
      · rw [List.mem_singleton.mp new]
        exact List.mem_cons_self
    · intro pair member
      cases chosen with
      | none => exact .inl member
      | some diff =>
        rcases List.mem_cons.mp member with rfl | before
        · exact .inr (readable diff rfl)
        · exact .inl before

/-! ## Streams -/

theorem showProgress_spec (total totalBytes completed : Int) : Ends env (showProgress total totalBytes completed)
    (fun outcome t => outcome = .ok () ∧ t.files = w.files) w := by
  refine ⟨trivial,?_⟩
  intro reply t reacts
  have shown : t = { w with stages := _ } := healthy.sound _ _ _ _ reacts
  exact ⟨rfl,by rw [shown]⟩

/-- What the loop has read is what the file holds. -/
theorem copyBuffer_spec {name : String} {total totalBytes : Int} {sofar : Bytes × Int} (buffer : Bytes)
    (inPlace : w.files (locate name) = some (.file sofar.1)) :
    Ends env (copyBuffer (showProgress total totalBytes) (writeFile name) sofar buffer) (fun outcome t =>
      ∃ next, outcome = .ok next ∧ next.1 = sofar.1 ++ buffer ∧ t.files (locate name) = some (.file next.1)) w := by
  refine ensures_bind (ensures_mono (writeFile_spec healthy.writable buffer inPlace) ?_)
  rintro outcome t ⟨rfl,written⟩
  refine ensures_bind (ensures_mono (showProgress_spec healthy _ _ _) ?_)
  rintro outcome u ⟨rfl,same⟩
  exact ⟨_,rfl,rfl,same ▸ written⟩

/-- An artifact that is served ends up in its file. -/
theorem downloadFull_spec {artifact : Artifact} {name : String} {total : Int} {state : Progress}
    (member : artifact ∈ artifacts) (named : artifact.name = some name)
    (plain : w.files (locate name) ≠ some .directory) : Ends env (downloadFull sha256 artifact name total state)
      (fun outcome t => ∃ state', outcome = .ok state' ∧ Verified sha256 locate t artifact) w := by
  refine ensures_bind (ensures_mono (newOutputStream_spec healthy.writable plain) ?_)
  rintro outcome t ⟨rfl,emptied⟩
  refine ensures_attempt (ensures_perform trivial ?_)
  intro reply u reacts
  obtain ⟨reads,rfl,hashed⟩ := healthy.serves artifact member _ _ _ reacts
  have connected : u.files = t.files := by
    have recorded : u = { t with requests := _ } := healthy.sound _ _ _ _ reacts
    rw [recorded]
  refine ensures_bind (@ensures_foldlM _ _ _ _ _ _ _ _ (fun rest sofar v =>
    sofar.1 ++ rest.flatten = reads.flatten ∧ v.files (locate name) = some (.file sofar.1)) _ _ _ _ ?_ ?_ ?_)
  · exact ⟨rfl,connected ▸ emptied⟩
  · rintro buffer rest sofar v ⟨split,inPlace⟩
    refine ensures_mono (copyBuffer_spec healthy buffer inPlace) ?_
    rintro outcome x ⟨next,rfl,appended,inPlace'⟩
    refine ⟨?_,inPlace'⟩
    simpa [appended] using split
  · rintro sofar v ⟨whole,inPlace⟩
    have all : sofar.1 = reads.flatten := by simpa using whole
    rw [all] at inPlace
    refine ensures_outcome ?_ fun thrown failed => by simp [hashed] at failed
    intro expected given
    rw [hashed] at given
    cases given
    rw [all,if_pos rfl]
    exact ⟨_,rfl,name,_,named,inPlace,hashed⟩

/-- Downloading a diff touches no file, and fails in an expected way if at all. -/
theorem downloadDiff_spec {diff : Diff} {total totalBytes : Int} (readable : Readable diff) :
    Ends env (downloadTo sha256 (ask (.connect diff.path)) diff.hash (showProgress total totalBytes) noWrite)
      (fun outcome t => t.files = w.files ∧ ∀ thrown, outcome = .error thrown → Tolerated thrown) w := by
  obtain ⟨-,-,expected,givenHash⟩ := readable
  refine ensures_perform trivial ?_
  intro reply t reacts
  have connected : t.files = w.files := by
    have recorded : t = { w with requests := _ } := healthy.sound _ _ _ _ reacts
    rw [recorded]
  have verification : Tolerated .verification := .inr rfl
  have io : Tolerated .io := .inl rfl
  rcases reply with thrown | - | ⟨reads,cut⟩
  · refine ⟨connected,?_⟩
    rintro thrown' ⟨⟩
    exact healthy.refuses _ _ _ _ reacts
  · refine ⟨connected,?_⟩
    rintro thrown' ⟨⟩
    exact io
  · refine ensures_bind (@ensures_foldlM _ _ _ _ _ _ _ _ (fun _ _ u => u.files = w.files) _ _ _ _ connected ?_ ?_)
    · intro buffer rest sofar u same
      refine ensures_bind ?_
      refine ensures_bind (ensures_mono (showProgress_spec healthy _ _ _) ?_)
      rintro outcome v ⟨rfl,still⟩
      exact still.trans same
    · intro sofar u same
      dsimp only
      split
      · refine ⟨same,?_⟩
        rintro thrown' ⟨⟩
        exact io
      · refine ensures_outcome ?_ fun thrown failed => by simp [givenHash] at failed
        intro hash _
        split
        · exact ⟨same,nofun⟩
        · refine ⟨same,?_⟩
          rintro thrown' ⟨⟩
          exact verification

/-- The hash of a patched file is that of its content. -/
theorem patchFile_spec {name : String} {diff : Diff} {out : Bytes} (readable : Readable diff)
    (plain : w.files (locate name) ≠ some .directory) : Ends env (patchFile sha256 name diff out) (fun outcome t =>
      (∀ patched, outcome = .ok patched → ∃ content, t.files (locate name) = some (.file content) ∧
        patched = sha256 content) ∧ ∀ thrown, outcome = .error thrown → Tolerated thrown) w := by
  obtain ⟨⟨fromName,givenName⟩,-,-⟩ := readable
  refine ensures_outcome ?_ fun thrown failed => by simp [givenName] at failed
  intro old _
  refine ensures_perform trivial ?_
  rintro (thrown | unpacked) t reacts
  · refine ⟨nofun,?_⟩
    rintro thrown' ⟨⟩
    exact healthy.unpacks _ _ _ _ reacts
  obtain rfl : t = w := healthy.sound _ _ _ _ reacts
  refine ensures_outcome (fun _ _ => ?_) nofun
  refine ensures_bind (ensures_mono (newOutputStream_spec healthy.writable plain) ?_)
  rintro outcome u ⟨rfl,emptied⟩
  refine ensures_bind (ensures_perform trivial ?_)
  intro (delta : Delta) v applied
  obtain rfl : v = u := healthy.sound _ _ _ _ applied
  refine ensures_bind (@ensures_foldlM _ _ _ _ _ _ _ _
    (fun _ sofar x => x.files (locate name) = some (.file sofar)) _ _ _ _ emptied ?_ ?_)
  · intro buffer rest sofar x inPlace
    refine ensures_bind (ensures_mono (writeFile_spec healthy.writable buffer inPlace) ?_)
    rintro outcome y ⟨rfl,appended⟩
    exact appended
  · intro written x inPlace
    dsimp only
    split
    · rename_i thrown stopped
      refine ⟨nofun,?_⟩
      rintro thrown' ⟨⟩
      exact healthy.patches _ _ _ _ _ applied _ stopped
    · refine ⟨?_,nofun⟩
      rintro patched ⟨⟩
      exact ⟨written,inPlace,rfl⟩

omit healthy in
theorem fallThrough_spec {α : Type} {value : α} {thrown : Thrown} (tolerated : Tolerated thrown) :
    Ends env (fallThrough value thrown) (fun outcome t => outcome = .ok value ∧ t = w) w := by
  unfold fallThrough
  rw [if_pos (show thrown.isIOException = true ∨ thrown = .verification from tolerated)]
  exact ⟨rfl,rfl⟩

/-- Patching never fails, and succeeds only when the file has become the artifact. -/
theorem tryDiff_spec {artifact : Artifact} {name expected : String} {diff : Diff} (state : Progress)
    (named : artifact.name = some name) (hashed : artifact.hash = some expected) (readable : Readable diff)
    (plain : w.files (locate name) ≠ some .directory) : Ends env (tryDiff sha256 artifact name diff state)
      (fun outcome t => ∃ patched downloaded, outcome = .ok (patched,downloaded) ∧
        (patched = true → Verified sha256 locate t artifact)) w := by
  refine ensures_attempt (ensures_mono (downloadDiff_spec healthy readable) ?_)
  rintro (thrown | out) t ⟨same,tolerated⟩
  · refine ensures_mono (fallThrough_spec (tolerated _ rfl)) ?_
    rintro outcome u ⟨rfl,rfl⟩
    exact ⟨_,_,rfl,nofun⟩
  · refine ensures_attempt (ensures_bind (ensures_mono (patchFile_spec healthy readable (same ▸ plain)) ?_))
    rintro (thrown | patched) u ⟨inPlace,tolerated⟩
    · refine ensures_mono (fallThrough_spec (tolerated _ rfl)) ?_
      rintro outcome v ⟨rfl,rfl⟩
      exact ⟨_,_,rfl,nofun⟩
    · refine ensures_outcome ?_ fun thrown failed => by simp [hashed] at failed
      intro hash given
      rw [hashed] at given
      cases given
      obtain ⟨content,there,rfl⟩ := inPlace _ rfl
      refine ⟨_,_,rfl,?_⟩
      intro matches'
      exact ⟨name,content,named,there,by rw [hashed,of_decide_eq_true matches']⟩

/-- The second pass verifies the artifact of its turn. -/
theorem fetchArtifact_spec {artifact : Artifact} {name expected : String} {plan : Plan} {state : Progress}
    (member : artifact ∈ artifacts) (named : artifact.name = some name) (hashed : artifact.hash = some expected)
    (readable : ∀ pair ∈ plan.diffs, Readable pair.2) (plain : w.files (locate name) ≠ some .directory) :
    Ends env (fetchArtifact sha256 plan state artifact)
      (fun outcome t => ∃ state', outcome = .ok state' ∧ Verified sha256 locate t artifact) w := by
  refine ensures_outcome ?_ fun thrown failed => by simp [named] at failed
  intro name' given
  rw [named] at given
  cases given
  split
  · exact downloadFull_spec healthy member named plain
  · rename_i diff chosen
    have inPlan : (artifact,diff) ∈ plan.diffs := by
      obtain ⟨before,after,split,-⟩ := List.lookup_eq_some_iff.mp chosen
      simp [split]
    refine ensures_bind (ensures_mono (ensures_and (tryDiff_spec healthy state named hashed (readable _ inPlan) plain)
      (kept_spec healthy.legible (tryDiff_only sha256 artifact diff state))) ?_)
    rintro outcome t ⟨⟨patched,downloaded,rfl,verified⟩,kept⟩
    cases patched with
    | true => exact ⟨_,rfl,verified rfl⟩
    | false => exact downloadFull_spec healthy member named (kept.2 _ plain)

/-! ## Whole runs -/

omit healthy in
/-- What happens to the file of one artifact leaves the others verified. -/
theorem verified_kept {nodiff : Bool} {artifact other : Artifact} {name : String} {t : World}
    (wellFormed : WellFormed locate nodiff artifacts) (member : artifact ∈ artifacts) (otherMember : other ∈ artifacts) (different : other ≠ artifact)
    (named : artifact.name = some name) (kept : Kept (locate name) w t) (verified : Verified sha256 locate w other) :
    Verified sha256 locate t other := by
  obtain ⟨otherName,content,otherNamed,inPlace,hashed⟩ := verified
  refine ⟨otherName,content,otherNamed,?_,hashed⟩
  rw [kept.1 _ ?_]
  · exact inPlace
  · intro same
    apply different
    refine List.inj_on_of_nodup_map wellFormed.distinct otherMember member ?_
    simp [otherNamed,named,same]

/-- No directory stands where an artifact goes. -/
def Plain (locate : String → String) (artifacts : List Artifact) (w : World) : Prop :=
  ∀ artifact ∈ artifacts, ∀ name, artifact.name = some name → w.files (locate name) ≠ some .directory

theorem hash_given {artifact : Artifact} (member : artifact ∈ artifacts) (w : World) :
    ∃ expected, artifact.hash = some expected := by
  obtain ⟨reply,t,reacts⟩ := healthy.total (.connect artifact.path) w
  obtain ⟨reads,-,hashed⟩ := healthy.serves artifact member _ _ _ reacts
  exact ⟨_,hashed⟩

/-- Where the first pass stands: every artifact it has seen is verified or planned. -/
structure Planning (sha256 : Bytes → String) (locate : String → String) (artifacts rest : List Artifact) (plan : Plan)
    (t : World) : Prop where
  remaining : rest ⊆ artifacts
  plain : Plain locate artifacts t
  planned : plan.toDownload ⊆ artifacts
  readable : ∀ pair ∈ plan.diffs, Readable pair.2
  seen : ∀ artifact ∈ artifacts, artifact ∈ rest ∨ Verified sha256 locate t artifact ∨ artifact ∈ plan.toDownload

theorem planning_spec {nodiff incompatible : Bool} (wellFormed : WellFormed locate nodiff artifacts)
    (plain : Plain locate artifacts w) : Ends env (artifacts.foldlM (planArtifact (nodiff || incompatible)) {}) (fun outcome t => ∃ plan, outcome = .ok plan ∧
      Planning sha256 locate artifacts [] plan t) w := by
  refine @ensures_foldlM _ _ _ _ _ _ _ _ (fun rest plan t => Planning sha256 locate artifacts rest plan t)
    _ _ _ _ ?_ ?_ ?_
  · exact ⟨fun _ member => member,plain,List.nil_subset _,fun _ member => absurd member List.not_mem_nil,
      fun artifact member => .inl member⟩
  · intro artifact rest plan t planning
    have member : artifact ∈ artifacts := planning.remaining List.mem_cons_self
    obtain ⟨name,named⟩ := wellFormed.named artifact member
    obtain ⟨expected,hashed⟩ := hash_given healthy member w
    refine ensures_mono (ensures_and (planArtifact_spec healthy named hashed (wellFormed.complete artifact member))
      (kept_spec healthy.legible (planArtifact_only named))) ?_
    rintro outcome u ⟨⟨plan',rfl,here,more,added,diffs⟩,kept⟩
    refine ⟨fun _ later => planning.remaining (List.mem_cons_of_mem _ later),?_,?_,?_,?_⟩
    · exact fun other otherMember otherName otherNamed => kept.2 _ (planning.plain other otherMember otherName otherNamed)
    · intro other inPlan
      rcases List.mem_cons.mp (added inPlan) with rfl | before
      · exact member
      · exact planning.planned before
    · intro pair inPlan
      rcases diffs pair inPlan with before | readable
      · exact planning.readable pair before
      · exact readable
    · intro other otherMember
      by_cases same : other = artifact
      · exact .inr (same ▸ here)
      · rcases planning.seen other otherMember with later | verified | inPlan
        · exact .inl ((List.mem_cons.mp later).resolve_left same)
        · exact .inr (.inl (verified_kept wellFormed member otherMember same named kept verified))
        · exact .inr (.inr (more inPlan))
  · exact fun plan t planning => ⟨plan,rfl,planning⟩

/-- The download returns, and every artifact is verified then. -/
theorem download_spec {nodiff : Bool} (wellFormed : WellFormed locate nodiff artifacts)
    (plain : Plain locate artifacts w) : Ends env (download sha256 artifacts nodiff)
      (fun outcome t => outcome = .ok () ∧ ∀ artifact ∈ artifacts, Verified sha256 locate t artifact) w := by
  refine ensures_perform trivial ?_
  intro isCompatible t reacts
  obtain rfl : t = w := healthy.sound _ _ _ _ reacts
  refine ensures_bind (ensures_mono (planning_spec healthy wellFormed plain) ?_)
  rintro outcome u ⟨plan,rfl,planning⟩
  refine ensures_bind (@ensures_foldlM _ _ _ _ _ _ _ _ (fun rest _ v => rest ⊆ artifacts ∧ Plain locate artifacts v ∧
    ∀ artifact ∈ artifacts, artifact ∈ rest ∨ Verified sha256 locate v artifact) _ _ _ _ ?_ ?_ ?_)
  · refine ⟨planning.planned,planning.plain,?_⟩
    intro artifact member
    rcases planning.seen artifact member with none | verified | inPlan
    · exact absurd none List.not_mem_nil
    · exact .inr verified
    · exact .inl inPlan
  · rintro artifact rest state v ⟨remaining,plain,seen⟩
    have member : artifact ∈ artifacts := remaining List.mem_cons_self
    obtain ⟨name,named⟩ := wellFormed.named artifact member
    obtain ⟨expected,hashed⟩ := hash_given healthy member v
    refine ensures_mono (ensures_and
      (fetchArtifact_spec healthy member named hashed planning.readable (plain artifact member name named))
      (kept_spec healthy.legible (fetchArtifact_only named))) ?_
    rintro outcome x ⟨⟨state',rfl,here⟩,kept⟩
    refine ⟨fun _ later => remaining (List.mem_cons_of_mem _ later),?_,?_⟩
    · exact fun other otherMember otherName otherNamed => kept.2 _ (plain other otherMember otherName otherNamed)
    · intro other otherMember
      by_cases same : other = artifact
      · exact .inr (same ▸ here)
      · rcases seen other otherMember with later | verified
        · exact .inl ((List.mem_cons.mp later).resolve_left same)
        · exact .inr (verified_kept wellFormed member otherMember same named kept verified)
  · rintro state v ⟨-,-,seen⟩
    exact ⟨rfl,fun artifact member => (seen artifact member).resolve_left List.not_mem_nil⟩

omit healthy in
theorem keptNames_complete {nodiff : Bool} {artifact : Artifact} (complete : CompleteDiffs nodiff artifact) :
    ∃ names, keptNames artifact = .ok names := by
  have sources : ∀ entries : List (Option Diff), (∀ entry ∈ entries, ∃ diff, entry = some diff ∧
      (nodiff = false → Readable diff)) → ∃ names, entries.mapM sourceName = .ok names := by
    intro entries readable
    induction entries with
    | nil => exact ⟨[],rfl⟩
    | cons entry rest ih =>
      obtain ⟨diff,rfl,-⟩ := readable entry List.mem_cons_self
      obtain ⟨names,collected⟩ := ih fun other member => readable other (List.mem_cons_of_mem _ member)
      exact ⟨diff.fromName :: names,by rw [List.mapM_cons,collected]; rfl⟩
  obtain ⟨names,collected⟩ := sources _ complete
  exact ⟨artifact.name :: names,by rw [keptNames,collected]; rfl⟩

/-- Cleaning returns, and makes no directory. -/
theorem clean_spec {nodiff : Bool} (wellFormed : WellFormed locate nodiff artifacts) (plain : Plain locate artifacts w) :
    Ends env (clean artifacts) (fun outcome t => outcome = .ok () ∧ Plain locate artifacts t) w := by
  have collected : ∃ names, artifacts.mapM keptNames = .ok names := by
    have complete := wellFormed.complete
    clear healthy wellFormed plain
    induction artifacts with
    | nil => exact ⟨[],rfl⟩
    | cons artifact rest ih =>
      obtain ⟨names,first⟩ := keptNames_complete (complete artifact List.mem_cons_self)
      obtain ⟨others,later⟩ := ih fun other member => complete other (List.mem_cons_of_mem _ member)
      exact ⟨names :: others,by rw [List.mapM_cons,first,later]; rfl⟩
  refine ensures_and ?_ (ensures_only (clean_only artifacts) plain (fun _ _ _ _ => trivial) ?_)
  · refine ensures_perform trivial ?_
    intro existingFiles t _
    obtain ⟨names,found⟩ := collected
    split
    · exact rfl
    · refine ensures_outcome (fun artifactNames _ => ?_) fun thrown failed => by simp [found] at failed
      refine @ensures_forM _ _ _ _ _ _ _ (fun _ _ => True) _ _ _ trivial ?_ fun _ _ => rfl
      intro name rest u _
      refine ensures_perform trivial fun isFile v _ => ?_
      split
      · exact ⟨trivial,fun _ _ _ => trivial⟩
      · exact trivial
  · intro op t reply u syncs still reacts artifact member name named
    exact reacts_plain (healthy.sound _ _ _ _ reacts) syncs (still artifact member name named)

/-- Every synchronisation of well-formed artifacts returns, with each of them verified. -/
theorem synchronise_heals (nodiff : Bool) (wellFormed : WellFormed locate nodiff artifacts)
    (plain : Plain locate artifacts w) :
    (∃ t, Runs env (synchronise sha256 artifacts nodiff) w (.ok ()) t) ∧
      ∀ outcome t, Runs env (synchronise sha256 artifacts nodiff) w outcome t →
        outcome = .ok () ∧ ∀ artifact ∈ artifacts, Verified sha256 locate t artifact := by
  have every : Ends env (synchronise sha256 artifacts nodiff)
      (fun outcome t => outcome = .ok () ∧ ∀ artifact ∈ artifacts, Verified sha256 locate t artifact) w := by
    refine ensures_bind (ensures_mono (clean_spec healthy wellFormed plain) ?_)
    rintro outcome t ⟨rfl,plain⟩
    refine ensures_bind (ensures_mono (download_spec healthy wellFormed plain) ?_)
    rintro outcome u ⟨rfl,verified⟩
    refine ensures_mono (verifyJarHashes_accepts healthy.legible verified) ?_
    rintro outcome v ⟨rfl,rfl⟩
    exact ⟨rfl,verified⟩
  refine ⟨?_,fun outcome t runs => ensures_runs every runs⟩
  obtain ⟨outcome,t,runs⟩ := exists_run healthy.total (synchronise sha256 artifacts nodiff) w
  obtain ⟨rfl,-⟩ := ensures_runs every runs
  exact ⟨t,runs⟩

end

/-! ## Diffs without a source hash -/

theorem calm_healthy {sha256 : Bytes → String} {serve : Option String → Bytes} {names : List String}
    {artifacts : List Artifact} (serves : ∀ artifact ∈ artifacts, artifact.hash = some (sha256 (serve artifact.path))) :
    Healthy sha256 id artifacts (calm sha256 serve names).environment where
  total := handler_total _
  sound := by
    rintro op w reply t reacts
    have admitted := calm_reacts sha256 serve names op w
    rw [show calm sha256 serve names op w = (reply,t) from reacts] at admitted
    exact admitted
  reads := by
    rintro name w reply t ⟨⟩
    rfl
  opens := by
    intro name w reply t reacts plain
    have opened : calm sha256 serve names (.newOutputStream name) w = (.ok (),w.set name (some (.file []))) :=
      if_neg plain
    exact (congrArg Prod.fst (opened.symm.trans reacts)).symm
  writes := by
    rintro name position buffer w reply t ⟨⟩
    rfl
  serves := by
    rintro artifact member w reply t ⟨⟩
    exact ⟨[serve artifact.path],rfl,by simpa using serves artifact member⟩
  refuses := by
    rintro path w thrown t ⟨⟩
  unpacks := by
    rintro bytes w thrown t ⟨⟩
  patches := by
    rintro old patch w delta t ⟨⟩ thrown ⟨⟩

private def emptySha256 : String := "e3b0c44298fc1c149afbf4c8996fb92427ae41e4649b934ca495991b7852b855"

private def clientSha256 : String := "ca978112ca1bbdcafac231b39a23dc4da786eff8147c4e72b9807785afee48bb"

/-- SHA-256 of the contents that occur below: no bytes, and the letter `a`. -/
private def sampleSha256 (content : Bytes) : String := if content = [0x61] then clientSha256 else emptySha256

private def sampleServe (url : Option String) : Bytes := if url = some "https://host/client.jar" then [0x61] else []

private def sampleDiff (fromHash : Option String) : Diff where
  fromName := some "old.jar"
  fromHash := fromHash
  hash := some emptySha256
  path := some "https://host/client.diff"

private def sampleArtifact (fromHash : Option String) : Artifact where
  name := some "client.jar"
  path := some "https://host/client.jar"
  hash := some clientSha256
  size := 1
  diffs := some [some (sampleDiff fromHash)]

private def sampleArtifacts (fromHash : Option String) : List Artifact := [sampleArtifact fromHash]

private def sampleDirectory : World where
  files name := if name = "old.jar" then some (.file []) else none

private theorem sample_healthy (fromHash : Option String) : Healthy sampleSha256 id (sampleArtifacts fromHash)
    (calm sampleSha256 sampleServe ["old.jar"]).environment := by
  refine calm_healthy ?_
  intro artifact member
  rw [List.mem_singleton.mp member]
  simp [sampleArtifact,sampleServe,sampleSha256]

private theorem sample_plain (fromHash : Option String) : Plain id (sampleArtifacts fromHash) sampleDirectory := by
  intro artifact member name named
  rw [List.mem_singleton.mp member] at named
  cases named
  decide

theorem synchronise_heals_sample : ∃ t, ∀ artifact ∈ sampleArtifacts (some emptySha256),
    Verified sampleSha256 id t artifact := by
  have wellFormed : WellFormed id false (sampleArtifacts (some emptySha256)) := by
    refine ⟨?_,by decide,?_⟩
    · intro artifact member
      rw [List.mem_singleton.mp member]
      exact ⟨_,rfl⟩
    · intro artifact member entry listed
      rw [List.mem_singleton.mp member] at listed
      rw [List.mem_singleton.mp listed]
      exact ⟨_,rfl,fun _ => ⟨⟨_,rfl⟩,⟨_,rfl⟩,⟨_,rfl⟩⟩⟩
  obtain ⟨⟨t,runs⟩,ends⟩ := synchronise_heals (sample_healthy (some emptySha256)) false wellFormed (sample_plain _)
  exact ⟨t,(ends _ _ runs).2⟩

/-- A diff that names no hash of its source ends the download with an exception
    as soon as the source is there, although the artifact is served. -/
theorem null_fromHash_fails : Healthy sampleSha256 id (sampleArtifacts none)
      (calm sampleSha256 sampleServe ["old.jar"]).environment ∧
    ((sampleArtifacts none).map Artifact.name).Nodup ∧ Plain id (sampleArtifacts none) sampleDirectory ∧
    ∃ t, Runs (calm sampleSha256 sampleServe ["old.jar"]).environment
      (synchronise sampleSha256 (sampleArtifacts none) false) sampleDirectory (.error .unchecked) t := by
  have ended : (execute (calm sampleSha256 sampleServe ["old.jar"])
    (synchronise sampleSha256 (sampleArtifacts none) false) sampleDirectory).1 = .error .unchecked := rfl
  exact ⟨sample_healthy none,by decide,sample_plain none,_,execute_ends ended⟩

end OpenRune.Sync
