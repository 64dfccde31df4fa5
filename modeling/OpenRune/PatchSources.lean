import OpenRune.Selection

/-!
# The sources of patches

A diff is selected by the hash of its source before anything is written, but the
source is read after the artifacts before have been written, and after the file of
the artifact itself has been emptied. The turn of an artifact patches it exactly
when the source is still intact then.
-/
namespace OpenRune.PatchSources
open OpenRune.Java OpenRune.Beans OpenRune.Programs OpenRune.Operations OpenRune.Downloads OpenRune.Repository
  OpenRune.Sync OpenRune.Selection

/-- Surroundings in which files can be read and written, the diff is served, and
    applied to any content with the hash that it names gives the artifact. What it
    gives for other contents is left open, as is what other servers answer. -/
structure Answers (sha256 : Bytes → String) (locate : String → String) (artifact : Artifact) (diff : Diff)
    (env : Environment launcher World) : Prop where
  total : Total env
  legible : Legible sha256 locate env
  writable : Writable sha256 locate env
  serves : ∀ w reply w', env (.connect diff.path) w reply w' →
    ∃ reads, reply = .stream reads false ∧ diff.hash = some (sha256 reads.flatten)
  unpacks : ∀ out w reply w', diff.hash = some (sha256 out) → env (.gunzip out) w reply w' → reply = .ok ()
  applies : ∀ old out w (delta : Delta) w', diff.fromName = some old → diff.hash = some (sha256 out) →
    hashAt sha256 locate w old = diff.fromHash → env (.applyDelta old out) w delta w' →
      delta.stopped = none ∧ artifact.hash = some (sha256 delta.writes.flatten)

/-- The turn has installed the artifact, and requested nothing but the diff. -/
def Patched (sha256 : Bytes → String) (locate : String → String) (artifact : Artifact) (diff : Diff) (u : World)
    (outcome : Except Thrown Progress) (v : World) : Prop :=
  (∃ state, outcome = .ok state) ∧ Verified sha256 locate v artifact ∧ v.requests = u.requests ++ [diff.path]

/-- The file of the artifact can be opened, and once that has emptied it, the source
    of the diff has the hash that the diff names. -/
def Intact (sha256 : Bytes → String) (locate : String → String) (name fromName fromHash : String) (u : World) : Prop :=
  u.files (locate name) ≠ some .directory ∧
    hashAt sha256 locate (u.set (locate name) (some (.file []))) fromName = some fromHash

theorem hashAt_congr {sha256 : Bytes → String} {locate : String → String} {u v : World} (same : u.files = v.files) :
    hashAt sha256 locate u = hashAt sha256 locate v := by
  funext name
  unfold hashAt
  rw [same]

theorem hashAt_elsewhere {sha256 : Bytes → String} {locate : String → String} {u : World} {path name : String}
    {node : Option Node} (apart : locate name ≠ path) :
    hashAt sha256 locate (u.set path node) name = hashAt sha256 locate u name := by
  unfold hashAt
  rw [set_files,Function.update_of_ne apart]

/-- A source that is another file is intact as long as it has its hash. -/
theorem intact_apart {sha256 : Bytes → String} {locate : String → String} {name fromName fromHash : String} {u : World}
    (apart : locate fromName ≠ locate name) : Intact sha256 locate name fromName fromHash u ↔
      u.files (locate name) ≠ some .directory ∧ hashAt sha256 locate u fromName = some fromHash := by
  unfold Intact
  rw [hashAt_elsewhere apart]

/-- The file of the artifact itself is never an intact source, except of a diff from
    the empty file. -/
theorem intact_own {sha256 : Bytes → String} {locate : String → String} {name fromName fromHash : String} {u : World}
    (own : locate fromName = locate name) : Intact sha256 locate name fromName fromHash u ↔
      u.files (locate name) ≠ some .directory ∧ sha256 [] = fromHash := by
  unfold Intact
  refine and_congr_right fun _ => ?_
  simp [hashAt,own,Node.hash]

section
variable {sha256 : Bytes → String} {locate : String → String} {env : Environment launcher World} {w : World}

/-- What makes no request leaves the requests on record as they are. -/
theorem requests_kept {α : Type} {p : Method α} (legible : Legible sha256 locate env)
    (only : Only (fun op => asked op = []) p) : Ends env p (fun _ t => t.requests = w.requests) w := by
  refine ensures_only only rfl (fun _ _ _ _ => trivial) ?_
  intro op t reply u none same reacts
  rw [(reacts_recorded (legible.sound _ _ _ _ reacts)).1,none,List.append_nil]
  exact same

theorem patchFile_requests (legible : Legible sha256 locate env) (name : String) (diff : Diff) (out : Bytes) :
    Ends env (patchFile sha256 name diff out) (fun _ t => t.requests = w.requests) w :=
  requests_kept legible (only_mono (patchFile_local name diff out) fun _ => local_asked)

/-! ## The diff -/

/-- The bytes of a body that is kept in memory, with reports. -/
theorem copyDiff_spec (legible : Legible sha256 locate env) (total totalBytes : Int) (reads : List Bytes) :
    Ends env (reads.foldlM (copyBuffer (showProgress total totalBytes) noWrite) ([],0)) (fun outcome t =>
      ∃ count, outcome = .ok (reads.flatten,count) ∧ t.files = w.files ∧ t.requests = w.requests) w := by
  let Read : List Bytes → Bytes × Int → World → Prop := fun rest sofar t =>
    sofar.1 ++ rest.flatten = reads.flatten ∧ t.files = w.files ∧ t.requests = w.requests
  have start : Read reads ([],0) w := ⟨rfl,rfl,rfl⟩
  refine ensures_foldlM start ?_ ?_
  · rintro buffer rest ⟨sofar,count⟩ t ⟨split,files,requests⟩
    refine ⟨trivial,?_⟩
    intro reply u reacts
    obtain rfl : u = { t with stages := _ } := legible.sound _ _ _ _ reacts
    refine ⟨?_,files,requests⟩
    simpa using split
  · rintro ⟨sofar,count⟩ t ⟨whole,files,requests⟩
    refine ⟨count,?_,files,requests⟩
    have all : sofar = reads.flatten := by simpa [Read] using whole
    rw [all]

variable {artifact : Artifact} {diff : Diff} (answers : Answers sha256 locate artifact diff env)
include answers

/-- The diff arrives. -/
theorem downloadDiff_arrives (total totalBytes : Int) :
    Ends env (downloadTo sha256 (ask (.connect diff.path)) diff.hash (showProgress total totalBytes) noWrite)
      (fun outcome t => ∃ out, outcome = .ok out ∧ diff.hash = some (sha256 out) ∧ t.files = w.files ∧
        t.requests = w.requests ++ [diff.path]) w := by
  refine ensures_perform trivial ?_
  intro reply t reacts
  obtain ⟨reads,rfl,hashed⟩ := answers.serves _ _ _ reacts
  obtain rfl : t = { w with requests := w.requests ++ [diff.path] } := answers.legible.sound _ _ _ _ reacts
  refine ensures_bind (ensures_mono (copyDiff_spec answers.legible total totalBytes reads) ?_)
  rintro outcome u ⟨count,rfl,files,requests⟩
  dsimp only
  rw [hashed]
  show Ensures env _ (if sha256 reads.flatten = sha256 reads.flatten then pure reads.flatten
    else throw Thrown.verification : Method Bytes) _ u
  rw [if_pos rfl]
  exact ⟨reads.flatten,rfl,rfl,files,requests⟩

variable {name fromName fromHash : String} (named : artifact.name = some name)
  (source : diff.fromName = some fromName) (expected : diff.fromHash = some fromHash)
include source expected

/-! ## An intact source -/

/-- The delta applier reads the source that it expects, and the file becomes the artifact. -/
theorem patchFile_intact {out : Bytes} (arrived : diff.hash = some (sha256 out))
    (intact : Intact sha256 locate name fromName fromHash w) : Ends env (patchFile sha256 name diff out)
      (fun outcome t => ∃ content, outcome = .ok (sha256 content) ∧ t.files (locate name) = some (.file content) ∧
        artifact.hash = some (sha256 content)) w := by
  unfold patchFile
  rw [source]
  refine ensures_perform trivial ?_
  intro reply t unpacked
  obtain rfl := answers.unpacks out _ _ _ arrived unpacked
  obtain rfl : t = w := answers.legible.sound _ _ _ _ unpacked
  refine ensures_outcome (fun _ _ => ?_) nofun
  refine ensures_bind (ensures_perform trivial ?_)
  intro reply u opened
  obtain rfl := answers.writable.opens _ _ _ _ opened intact.1
  have emptied : u = t.set (locate name) (some (.file [])) := by
    rcases answers.legible.sound _ _ _ _ opened with ⟨-,-,same⟩ | ⟨⟨thrown,failed⟩,-⟩
    · exact same
    · cases failed
  refine ensures_bind (ensures_perform trivial ?_)
  intro (delta : Delta) v applied
  obtain rfl : v = u := answers.legible.sound _ _ _ _ applied
  have right : hashAt sha256 locate v fromName = diff.fromHash := by
    rw [emptied,intact.2,expected]
  obtain ⟨finished,made⟩ := answers.applies fromName out _ delta _ source arrived right applied
  let Written : List Bytes → Bytes → World → Prop := fun rest sofar x =>
    sofar ++ rest.flatten = delta.writes.flatten ∧ x.files (locate name) = some (.file sofar)
  have start : Written delta.writes [] v := by
    refine ⟨rfl,?_⟩
    rw [emptied,set_files,Function.update_self]
  refine ensures_bind (ensures_foldlM start ?_ ?_)
  · rintro buffer rest sofar x ⟨split,inPlace⟩
    refine ensures_bind (ensures_mono (writeFile_spec answers.writable buffer inPlace) ?_)
    rintro outcome y ⟨rfl,appended⟩
    exact ⟨(List.append_assoc _ _ _).trans split,appended⟩
  · rintro written x ⟨whole,inPlace⟩
    have all : written = delta.writes.flatten := by simpa using whole
    dsimp only
    rw [finished]
    exact ⟨written,rfl,inPlace,all ▸ made⟩

include named

theorem tryDiff_intact {state : Progress} (intact : Intact sha256 locate name fromName fromHash w) :
    Ends env (tryDiff sha256 artifact name diff state) (fun outcome t => ∃ downloaded,
      outcome = .ok (true,downloaded) ∧ Verified sha256 locate t artifact ∧
        t.requests = w.requests ++ [diff.path]) w := by
  refine ensures_attempt (ensures_mono (downloadDiff_arrives answers _ _) ?_)
  rintro outcome t ⟨out,rfl,arrived,files,requests⟩
  have intact : Intact sha256 locate name fromName fromHash t := by
    unfold Intact at intact ⊢
    rw [files,hashAt_congr (show (t.set _ _).files = (w.set _ _).files by rw [set_files,set_files,files])]
    exact intact
  refine ensures_attempt (ensures_bind (ensures_mono (ensures_and
    (patchFile_intact answers source expected arrived intact) (patchFile_requests answers.legible name diff out)) ?_))
  rintro outcome u ⟨⟨content,rfl,inPlace,made⟩,same⟩
  dsimp only
  rw [made]
  refine ⟨_,congrArg Except.ok (Prod.ext (decide_eq_true rfl) rfl),⟨name,content,named,inPlace,made⟩,?_⟩
  rw [same,requests]

/-- With an intact source the turn patches. -/
theorem turn_patches {plan : Plan} {state : Progress} (chosen : plan.diff artifact = some diff)
    (intact : Intact sha256 locate name fromName fromHash w) :
    Ends env (fetchArtifact sha256 plan state artifact) (Patched sha256 locate artifact diff w) w := by
  unfold fetchArtifact
  rw [named,chosen]
  refine ensures_outcome ?_ nofun
  rintro name' ⟨⟩
  refine ensures_bind (ensures_mono (tryDiff_intact answers named source expected intact) ?_)
  rintro outcome t ⟨downloaded,rfl,verified,requests⟩
  exact ⟨⟨_,rfl⟩,verified,requests⟩

end

/-! ## A source that is not intact -/

/-- The diff is served and unpacked, and applied to any content but the one it is
    from, it fails. -/
def strict (sha256 : Bytes → String) (locate : String → String) (diff : Diff) (patch content : Bytes)
    (elsewhere : Option String → Connection) : Handler launcher World :=
  surroundings sha256 locate (fun path => if path = diff.path then .stream [patch] false else elsewhere path)
    (fun _ => .ok ()) fun w old _ => if hashAt sha256 locate w old = diff.fromHash then ⟨[content],none⟩ else ⟨[],some .io⟩

section
variable {sha256 : Bytes → String} {locate : String → String} {artifact : Artifact} {diff : Diff}
  {patch content : Bytes} {elsewhere : Option String → Connection} {w : World}

theorem strict_answers (served : diff.hash = some (sha256 patch)) (made : artifact.hash = some (sha256 content)) :
    Answers sha256 locate artifact diff (strict sha256 locate diff patch content elsewhere).environment where
  total := handler_total _
  legible := surroundings_legible
  writable := surroundings_writable
  serves := by
    intro w reply t reacts
    have answered : strict sha256 locate diff patch content elsewhere (.connect diff.path) w =
        (.stream [patch] false,{ w with requests := w.requests ++ [diff.path] }) := Prod.ext (if_pos rfl) rfl
    obtain rfl := congrArg Prod.fst (answered.symm.trans reacts)
    exact ⟨[patch],rfl,by simpa using served⟩
  unpacks := by
    rintro out w reply t arrived ⟨⟩
    rfl
  applies := by
    intro old out w delta t source arrived right reacts
    have applied : strict sha256 locate diff patch content elsewhere (.applyDelta old out) w = (⟨[content],none⟩,w) :=
      Prod.ext (if_pos right) rfl
    obtain rfl := congrArg Prod.fst (applied.symm.trans reacts)
    exact ⟨rfl,by simpa using made⟩

variable {name fromName fromHash : String} (source : diff.fromName = some fromName)
  (expected : diff.fromHash = some fromHash)
include source expected

/-- Without its source the diff fails, or the file cannot be opened at all. -/
theorem patchFile_broken {out : Bytes} (broken : ¬ Intact sha256 locate name fromName fromHash w) :
    Ends (strict sha256 locate diff patch content elsewhere).environment (patchFile sha256 name diff out)
      (fun outcome _ => outcome = .error .io) w := by
  unfold patchFile
  rw [source]
  refine ensures_perform trivial ?_
  rintro reply t ⟨⟩
  refine ensures_outcome (fun _ _ => ?_) nofun
  refine ensures_bind (ensures_perform trivial ?_)
  intro reply u opened
  by_cases directory : w.files (locate name) = some .directory
  · have refused : strict sha256 locate diff patch content elsewhere (.newOutputStream name) w = (.error .io,w) :=
      if_pos directory
    obtain rfl := congrArg Prod.fst (refused.symm.trans opened)
    exact rfl
  · have emptied : strict sha256 locate diff patch content elsewhere (.newOutputStream name) w =
        (.ok (),w.set (locate name) (some (.file []))) := if_neg directory
    obtain ⟨rfl,rfl⟩ := Prod.mk.inj (emptied.symm.trans opened)
    refine ensures_bind (ensures_perform trivial ?_)
    intro delta v applied
    have gone : hashAt sha256 locate (w.set (locate name) (some (.file []))) fromName ≠ diff.fromHash := by
      rw [expected]
      exact fun right => broken ⟨directory,right⟩
    have stopped : strict sha256 locate diff patch content elsewhere (.applyDelta fromName out)
        (w.set (locate name) (some (.file []))) = (⟨[],some .io⟩,w.set (locate name) (some (.file []))) :=
      Prod.ext (if_neg gone) rfl
    obtain ⟨rfl,rfl⟩ := Prod.mk.inj (stopped.symm.trans applied)
    exact rfl

omit source expected in
/-- A download makes one request. -/
theorem downloadTo_asks {env : Environment launcher World} (legible : Legible sha256 locate env) {path hash : Option String}
    {total totalBytes : Int} {write : Nat → Bytes → Method Unit}
    (writes : ∀ position buffer, Only (fun op => asked op = []) (write position buffer)) :
    Ends env (downloadTo sha256 (ask (.connect path)) hash (showProgress total totalBytes) write)
      (fun _ t => t.requests = w.requests ++ [path]) w := by
  refine ensures_perform trivial ?_
  intro reply t reacts
  have asks : t.requests = w.requests ++ [path] := (reacts_recorded (legible.sound _ _ _ _ reacts)).1
  refine ensures_mono (requests_kept legible ?_) fun _ u same => same.trans asks
  rcases reply with thrown | - | ⟨reads,cut⟩
  · exact only_throw _
  · exact only_throw _
  · refine only_bind (only_foldlM ?_ reads _) ?_
    · intro sofar buffer
      exact only_bind (writes _ _) fun _ => only_bind (only_ask rfl) fun _ => only_pure _
    · intro sofar
      split
      · exact only_throw _
      · refine only_bind (only_ofOutcome _) fun expected => ?_
        split
        · exact only_pure _
        · exact only_throw _

omit source expected in
/-- A full download that returns has requested the artifact. -/
theorem downloadFull_asks {env : Environment launcher World} (legible : Legible sha256 locate env) (total : Int)
    (state : Progress) : Ends env (downloadFull sha256 artifact name total state)
      (fun outcome t => ∀ state', outcome = .ok state' → t.requests = w.requests ++ [artifact.path]) w := by
  have opens : Ends env (newOutputStream name) (fun _ t => t.requests = w.requests) w :=
    requests_kept legible (only_mono (newOutputStream_local name) fun _ => local_asked)
  refine ensures_bind (ensures_mono opens ?_)
  rintro (thrown | opened) t same
  · exact nofun
  refine ensures_attempt (ensures_mono (downloadTo_asks legible fun position buffer =>
    only_mono (writeFile_local name position buffer) fun _ => local_asked) ?_)
  intro outcome u asks
  rw [same] at asks
  split
  · exact fun _ _ => asks
  · exact fun _ _ => asks
  · exact nofun

/-- Without an intact source, the artifact is requested after all, or its turn fails. -/
theorem turn_falls_back {plan : Plan} {state : Progress} (named : artifact.name = some name)
    (served : diff.hash = some (sha256 patch)) (made : artifact.hash = some (sha256 content))
    (chosen : plan.diff artifact = some diff) (broken : ¬ Intact sha256 locate name fromName fromHash w) :
    Ends (strict sha256 locate diff patch content elsewhere).environment (fetchArtifact sha256 plan state artifact)
      (fun outcome t => ¬ Patched sha256 locate artifact diff w outcome t) w := by
  have answers : Answers sha256 locate artifact diff (strict sha256 locate diff patch content elsewhere).environment :=
    strict_answers served made
  unfold fetchArtifact
  rw [named,chosen]
  refine ensures_outcome ?_ nofun
  rintro name' ⟨⟩
  have tried : Ends (strict sha256 locate diff patch content elsewhere).environment (tryDiff sha256 artifact name diff state)
      (fun outcome t => ∃ downloaded, outcome = .ok (false,downloaded) ∧ t.requests = w.requests ++ [diff.path]) w := by
    refine ensures_attempt (ensures_mono (downloadDiff_arrives answers _ _) ?_)
    rintro outcome t ⟨out,rfl,arrived,files,requests⟩
    have broken : ¬ Intact sha256 locate name fromName fromHash t := by
      unfold Intact at broken ⊢
      rw [files,hashAt_congr (show (t.set _ _).files = (w.set _ _).files by rw [set_files,set_files,files])]
      exact broken
    refine ensures_attempt (ensures_bind (ensures_mono (ensures_and (patchFile_broken source expected broken)
      (patchFile_requests answers.legible name diff out)) ?_))
    rintro outcome u ⟨rfl,same⟩
    exact ⟨_,rfl,same.trans requests⟩
  refine ensures_bind (ensures_mono tried ?_)
  rintro outcome t ⟨downloaded,rfl,requests⟩
  refine ensures_mono (downloadFull_asks answers.legible _ _) ?_
  rintro outcome u asks ⟨⟨state',rfl⟩,-,once⟩
  rw [asks state' rfl,requests] at once
  have longer := congrArg List.length once
  simp at longer

end

/-! ## Runs -/

/-- A download from the directory has come to the turn of an artifact. -/
structure Comes (sha256 : Bytes → String) (env : Environment launcher World) (artifacts : List Artifact) (w : World)
    (plan : Plan) (before : List Artifact) (artifact : Artifact) (after : List Artifact) (state : Progress) (u : World) :
    Prop where
  split : plan.toDownload = before ++ artifact :: after
  passes : ∃ t, Runs env (firstPass artifacts false) w (.ok plan) t ∧
    Runs env (before.foldlM (fetchArtifact sha256 plan) ⟨0,plan.totalDownloadBytes⟩) t (.ok state) u

section
variable {sha256 : Bytes → String} {locate : String → String} {env : Environment launcher World}
  {artifacts before after : List Artifact} {artifact : Artifact} {plan : Plan} {state : Progress} {w u : World}

/-- It is a state of a run of the download. -/
theorem comes_steps (compatible : env .isCompatible w true w)
    (comes : Comes sha256 env artifacts w plan before artifact after state u) :
    Steps env (download sha256 artifacts false) w (do
      let state' ← fetchArtifact sha256 plan state artifact
      let _ ← after.foldlM (fetchArtifact sha256 plan) state') u := by
  obtain ⟨t,first,turns⟩ := comes.passes
  have second : Steps env (plan.toDownload.foldlM (fetchArtifact sha256 plan) ⟨0,plan.totalDownloadBytes⟩) t
      (fetchArtifact sha256 plan state artifact >>= fun state' => after.foldlM (fetchArtifact sha256 plan) state') u := by
    rw [comes.split,List.foldlM_append]
    exact steps_after turns .refl
  have reached := download_steps compatible first second
  rw [LawfulMonad.bind_assoc] at reached
  exact reached

/-- The source of a diff is another file than that of the artifact, and than those of
    the artifacts whose turns come before. -/
def Untouched (locate : String → String) (name fromName : String) (before : List Artifact) : Prop :=
  locate fromName ≠ locate name ∧
    ∀ other ∈ before, ∀ otherName, other.name = some otherName → locate otherName ≠ locate fromName

variable {diff : Diff} {name fromName fromHash : String} (legible : Legible sha256 locate env)
include legible

/-- A turn concerns no other file, and one without a name does not return. -/
theorem fetchArtifact_kept {other : Artifact} :
    Ends env (fetchArtifact sha256 plan state other) (fun outcome t => ∀ state', outcome = .ok state' →
      ∃ otherName, other.name = some otherName ∧ Kept (locate otherName) w t) w := by
  cases named : other.name with
  | none =>
    unfold fetchArtifact
    rw [named]
    exact nofun
  | some otherName =>
    refine ensures_mono (kept_spec legible (fetchArtifact_only named)) ?_
    exact fun outcome t kept _ _ => ⟨otherName,rfl,kept⟩

/-- An untouched source is still intact when the turn comes. -/
theorem comes_intact (source : diff.fromName = some fromName) (expected : diff.fromHash = some fromHash)
    (comes : Comes sha256 env artifacts w plan before artifact after state u) (chosen : plan.diff artifact = some diff)
    (plain : w.files (locate name) ≠ some .directory) (untouched : Untouched locate name fromName before) :
    Intact sha256 locate name fromName fromHash u := by
  obtain ⟨t,first,turns⟩ := comes.passes
  obtain ⟨same,plans⟩ := ensures_runs (firstPass_ends legible artifacts false) first
  have planned := plans plan rfl
  have inPlan : artifact ∈ plan.toDownload := by
    rw [comes.split]
    exact List.mem_append_right _ List.mem_cons_self
  have selected := (planned.diff inPlan).symm.trans chosen
  obtain ⟨fromName',fromHash',source',expected',read⟩ := usable_iff.mp (selection_usable selected).2.2
  rw [source] at source'
  rw [expected] at expected'
  cases source'
  cases expected'
  have plain : t.files (locate name) ≠ some .directory :=
    ensures_runs (firstPass_plain legible artifacts false) first _ plain
  rw [intact_apart untouched.1]
  let Left : List Artifact → Progress → World → Prop := fun rest _ v =>
    rest ⊆ before ∧ v.files (locate name) ≠ some .directory ∧ hashAt sha256 locate v fromName = some fromHash
  have start : Left before ⟨0,plan.totalDownloadBytes⟩ t := ⟨fun _ member => member,plain,by rw [same]; exact read⟩
  have loop : Ends env (before.foldlM (fetchArtifact sha256 plan) ⟨0,plan.totalDownloadBytes⟩) (fun outcome v =>
      ∀ state, outcome = .ok state → v.files (locate name) ≠ some .directory ∧
        hashAt sha256 locate v fromName = some fromHash) t := by
    refine ensures_foldlM start ?_ ?_
    · rintro other rest state v ⟨remaining,plain,read⟩
      refine ensures_mono (fetchArtifact_kept legible) ?_
      rintro (thrown | state') x kept
      · exact nofun
      · obtain ⟨otherName,otherNamed,elsewhere,plainer⟩ := kept state' rfl
        refine ⟨fun _ member => remaining (List.mem_cons_of_mem _ member),plainer _ plain,?_⟩
        have apart := untouched.2 other (remaining List.mem_cons_self) otherName otherNamed
        rw [← read]
        unfold hashAt
        rw [elsewhere _ apart.symm]
    · rintro state v ⟨-,plain,read⟩ state' -
      exact ⟨plain,read⟩
  exact ensures_runs loop turns state rfl

/-- The turns that follow leave the artifact in place. -/
theorem comes_stays (named : artifact.name = some name)
    (distinct : (artifacts.map fun artifact => artifact.name.map locate).Nodup)
    (comes : Comes sha256 env artifacts w plan before artifact after state u) {v : World} {state' : Progress}
    (verified : Verified sha256 locate v artifact) : Ends env (after.foldlM (fetchArtifact sha256 plan) state')
      (fun outcome x => ∀ state, outcome = .ok state → Verified sha256 locate x artifact) v := by
  obtain ⟨t,first,-⟩ := comes.passes
  have planned := (ensures_runs (firstPass_ends legible artifacts false) first).2 plan rfl
  have apart : ∀ other ∈ after, ∀ otherName, other.name = some otherName → locate otherName ≠ locate name := by
    have downloads : (plan.toDownload.map fun artifact => artifact.name.map locate).Nodup := by
      rw [planned.toDownload]
      exact (List.filter_sublist.map _).nodup distinct
    rw [comes.split,List.map_append,List.map_cons] at downloads
    have later := (List.nodup_cons.mp (List.nodup_append.mp downloads).2.1).1
    intro other member otherName otherNamed same
    refine later (List.mem_map.mpr ⟨other,member,?_⟩)
    simp [otherNamed,named,same]
  let Left : List Artifact → Progress → World → Prop := fun rest _ x =>
    rest ⊆ after ∧ Verified sha256 locate x artifact
  have start : Left after state' v := ⟨fun _ member => member,verified⟩
  refine ensures_foldlM start ?_ fun _ _ left _ _ => left.2
  rintro other rest state x ⟨remaining,verified⟩
  refine ensures_mono (fetchArtifact_kept legible) ?_
  rintro (thrown | state') y kept
  · exact nofun
  · obtain ⟨otherName,otherNamed,elsewhere,-⟩ := kept state' rfl
    refine ⟨fun _ member => remaining (List.mem_cons_of_mem _ member),?_⟩
    obtain ⟨name',content,named',inPlace,hashed⟩ := verified
    rw [named] at named'
    cases named'
    refine ⟨name,content,named,?_,hashed⟩
    rw [elsewhere _ (apart other (remaining List.mem_cons_self) otherName otherNamed).symm]
    exact inPlace

end
/-- In every state, the turn of an artifact with a selected diff patches it without
    requesting it exactly when the source is intact then. In a run of the download, an
    untouched source is, and an artifact that is patched stays in place. -/
theorem patched_iff {sha256 : Bytes → String} {locate : String → String} {artifact : Artifact} {diff : Diff}
    {name fromName fromHash : String} {patch content : Bytes} (named : artifact.name = some name)
    (source : diff.fromName = some fromName) (expected : diff.fromHash = some fromHash)
    (served : diff.hash = some (sha256 patch)) (made : artifact.hash = some (sha256 content)) :
    (∀ plan state u, plan.diff artifact = some diff →
      ((∀ env, Answers sha256 locate artifact diff env → ∀ outcome v,
          Runs env (fetchArtifact sha256 plan state artifact) u outcome v →
            Patched sha256 locate artifact diff u outcome v) ↔ Intact sha256 locate name fromName fromHash u)) ∧
    ∀ env artifacts w plan before after state u, Answers sha256 locate artifact diff env →
      (artifacts.map fun artifact => artifact.name.map locate).Nodup →
      Comes sha256 env artifacts w plan before artifact after state u → plan.diff artifact = some diff →
        (w.files (locate name) ≠ some .directory → Untouched locate name fromName before →
          Intact sha256 locate name fromName fromHash u) ∧
        (Intact sha256 locate name fromName fromHash u → ∀ outcome v last x,
          Runs env (fetchArtifact sha256 plan state artifact) u outcome v →
            Patched sha256 locate artifact diff u outcome v ∧ ∀ state', outcome = .ok state' →
              Runs env (after.foldlM (fetchArtifact sha256 plan) state') v (.ok last) x →
                Verified sha256 locate x artifact) := by
  refine ⟨?_,?_⟩
  · intro plan state u chosen
    constructor
    · intro every
      by_contra broken
      let env := (strict sha256 locate diff patch content fun _ => .refused .io).environment
      have answers : Answers sha256 locate artifact diff env := strict_answers served made
      obtain ⟨outcome,v,runs⟩ := exists_run answers.total (fetchArtifact sha256 plan state artifact) u
      exact ensures_runs (turn_falls_back source expected named served made chosen broken) runs
        (every env answers outcome v runs)
    · intro intact env answers outcome v runs
      exact ensures_runs (turn_patches answers named source expected chosen intact) runs
  · intro env artifacts w plan before after state u answers distinct comes chosen
    refine ⟨comes_intact answers.legible source expected comes chosen,?_⟩
    intro intact outcome v last x runs
    have patched := ensures_runs (turn_patches answers named source expected chosen intact) runs
    refine ⟨patched,?_⟩
    intro state' _ later
    exact ensures_runs (comes_stays answers.legible named distinct comes patched.2.1) later last rfl

/-! ## Sources that are lost -/

private def sampleSha256 (content : Bytes) : String :=
  if content = [1] then "old" else if content = [2] then "new" else if content = [3] then "patch" else "other"

private def sampleDiff (fromName : String) : Diff where
  fromName := some fromName
  fromHash := some "old"
  hash := some "patch"
  path := some "https://host/client.diff"
  size := 1

private def sampleClient (fromName : String) : Artifact where
  name := some "client.jar"
  path := some "https://host/client.jar"
  hash := some "new"
  size := 1
  diffs := some [some (sampleDiff fromName)]

private def sampleApi : Artifact where
  name := some "api.jar"
  path := some "https://host/api.jar"
  hash := some "new"
  size := 1

private def sampleDirectory (source : String) : World where
  files name := if name = source then some (.file [1]) else none

private def sampleHandler (fromName : String) : Handler launcher World :=
  strict sampleSha256 id (sampleDiff fromName) [3] [2] fun _ => .stream [[2]] false

private theorem sample_answers (fromName : String) :
    Answers sampleSha256 id (sampleClient fromName) (sampleDiff fromName) (sampleHandler fromName).environment :=
  strict_answers rfl rfl

private def samplePlan : Plan where
  toDownload := [sampleClient "old.jar"]
  diffs := [(sampleClient "old.jar",sampleDiff "old.jar")]
  totalDownloadBytes := 1

theorem patched_iff_sample : ∃ outcome v, Runs (sampleHandler "old.jar").environment
      (fetchArtifact sampleSha256 samplePlan ⟨0,1⟩ (sampleClient "old.jar")) (sampleDirectory "old.jar") outcome v ∧
    Patched sampleSha256 id (sampleClient "old.jar") (sampleDiff "old.jar") (sampleDirectory "old.jar") outcome v := by
  obtain ⟨outcome,v,runs⟩ := exists_run (sample_answers "old.jar").total
    (fetchArtifact sampleSha256 samplePlan ⟨0,1⟩ (sampleClient "old.jar")) (sampleDirectory "old.jar")
  have intact : Intact sampleSha256 id "client.jar" "old.jar" "old" (sampleDirectory "old.jar") :=
    ⟨by decide,by decide⟩
  have patched := ((@patched_iff sampleSha256 id (sampleClient "old.jar") (sampleDiff "old.jar") "client.jar" "old.jar"
    "old" [3] [2] rfl rfl rfl rfl rfl).1 samplePlan ⟨0,1⟩ (sampleDirectory "old.jar") (by decide)).mpr intact
  exact ⟨outcome,v,runs,patched _ (sample_answers "old.jar") outcome v runs⟩

/-- The first pass selects the diff, and the second requests the artifact all the same:
    its own file has been emptied, or that of another artifact has been rewritten. -/
theorem selected_unused :
    (∀ fromName, Answers sampleSha256 id (sampleClient fromName) (sampleDiff fromName)
      (sampleHandler fromName).environment) ∧
    (∃ plan t, Runs (sampleHandler "client.jar").environment (firstPass [sampleClient "client.jar"] false)
        (sampleDirectory "client.jar") (.ok plan) t ∧
      plan.diff (sampleClient "client.jar") = some (sampleDiff "client.jar")) ∧
    (∃ outcome t, Runs (sampleHandler "client.jar").environment
        (download sampleSha256 [sampleClient "client.jar"] false) (sampleDirectory "client.jar") outcome t ∧
      t.requests = [some "https://host/client.diff",some "https://host/client.jar"]) ∧
    (∃ plan t, Runs (sampleHandler "api.jar").environment (firstPass [sampleApi,sampleClient "api.jar"] false)
        (sampleDirectory "api.jar") (.ok plan) t ∧
      plan.diff (sampleClient "api.jar") = some (sampleDiff "api.jar")) ∧
    ∃ outcome t, Runs (sampleHandler "api.jar").environment
        (download sampleSha256 [sampleApi,sampleClient "api.jar"] false) (sampleDirectory "api.jar") outcome t ∧
      t.requests = [some "https://host/api.jar",some "https://host/client.diff",some "https://host/client.jar"] := by
  have own : (execute (sampleHandler "client.jar") (firstPass [sampleClient "client.jar"] false)
    (sampleDirectory "client.jar")).1 = .ok _ := rfl
  have other : (execute (sampleHandler "api.jar") (firstPass [sampleApi,sampleClient "api.jar"] false)
    (sampleDirectory "api.jar")).1 = .ok _ := rfl
  refine ⟨sample_answers,⟨_,_,execute_ends own,by decide +kernel⟩,⟨_,_,execute_ends rfl,by decide +kernel⟩,
    ⟨_,_,execute_ends other,by decide +kernel⟩,⟨_,_,execute_ends rfl,by decide +kernel⟩⟩

end OpenRune.PatchSources
