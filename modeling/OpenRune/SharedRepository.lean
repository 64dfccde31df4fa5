import OpenRune.Interleaving
import OpenRune.Startup
import OpenRune.Sync

/-!
# Two launchers in one directory

Nothing locks the repository directory, so another launcher can change a file
between the verification and the start of the client. What a launcher has verified
it has seen itself, at the moment of its last look at each file; the file is still
the same when no other launcher has touched it since.
-/
namespace OpenRune.SharedRepository
open OpenRune.Java OpenRune.Beans OpenRune.Settings OpenRune.Programs OpenRune.Interleaving OpenRune.Operations
  OpenRune.Repository OpenRune.Launchers OpenRune.Startup

/-- The operation may change the file at the path. -/
def Op.changes (locate : String → String) (path : String) : Op → Prop
  | .delete name | .newOutputStream name | .write name _ _ => locate name = path
  | .initJava | .update _ _ _ | .updateLauncherArgs _ _ => True
  | _ => False

/-- The operation changes no file at all. -/
def Op.harmless : Op → Prop
  | .delete _ | .newOutputStream _ | .write _ _ _ | .initJava | .update _ _ _ | .updateLauncherArgs _ _ => False
  | _ => True

theorem reacts_unchanged {sha256 : Bytes → String} {locate : String → String} {op : Op} {w w' : World}
    {reply : Reply op} (reacts : Reacts sha256 locate op w reply w') {path : String}
    (unchanged : ¬ Op.changes locate path op) : w'.files path = w.files path := by
  rcases (reacts_effect reacts).files with same | ⟨name,node,sets,same,-⟩ | installs
  · rw [same]
  · have elsewhere : path ≠ locate name := by
      rintro rfl
      refine unchanged ?_
      cases op <;> first | exact sets.elim | exact congrArg locate sets
    rw [same,Function.update_of_ne elsewhere]
  · refine absurd ?_ unchanged
    cases op <;> first | exact trivial | exact installs.elim

theorem harmless_unchanged {op : Op} (harmless : Op.harmless op) (locate : String → String) (path : String) :
    ¬ Op.changes locate path op := by
  cases op <;> first | exact id | exact harmless.elim

/-! ## What a launcher has seen by itself -/

abbrev History := List (Exchange launcher)

/-- The launcher has read the artifact's hash from its file, and has changed no
    file since. -/
def VerifiedIn (history : History) (artifact : Artifact) : Prop :=
  ∃ name expected before after, artifact.name = some name ∧ artifact.hash = some expected ∧
    history = before ++ ⟨.hash name,.ok expected⟩ :: after ∧ ∀ exchange ∈ after, Op.harmless exchange.1

theorem verifiedIn_append {history : History} {artifact : Artifact} (verified : VerifiedIn history artifact)
    {exchange : Exchange launcher} (harmless : Op.harmless exchange.1) : VerifiedIn (history ++ [exchange]) artifact := by
  obtain ⟨name,expected,before,after,named,hashed,rfl,quiet⟩ := verified
  refine ⟨name,expected,before,after ++ [exchange],named,hashed,by simp,?_⟩
  intro other member
  rcases List.mem_append.mp member with earlier | last
  · exact quiet other earlier
  · rw [List.mem_singleton.mp last]
    exact harmless

/-- No client was started. -/
def NotStarted (history : History) : Prop := ∀ launch reply, (⟨.startClient launch,reply⟩ : Exchange launcher) ∉ history

theorem notStarted_append {history : History} (notStarted : NotStarted history) {exchange : Exchange launcher}
    (quiet : Op.quiet exchange.1) : NotStarted (history ++ [exchange]) := by
  intro launch reply member
  rcases List.mem_append.mp member with earlier | last
  · exact notStarted launch reply earlier
  · have same := List.mem_singleton.mp last
    exact quiet launch (by rw [← same])

/-- The class path is that of the artifacts, and each of them was verified. -/
def Backed (artifacts : List Artifact) (launch : Launch) (history : History) : Prop :=
  launch.classpath.map some = artifacts.map Artifact.name ∧ ∀ artifact ∈ artifacts, VerifiedIn history artifact

/-- Every client that has been started is backed by the history. -/
def StartsBacked (artifacts : List Artifact) (history : History) : Prop :=
  ∀ launch reply, (⟨.startClient launch,reply⟩ : Exchange launcher) ∈ history → Backed artifacts launch history

/-- The same, a start about to happen included. -/
def backedGuard (artifacts : List Artifact) (op : Op) (history : History) : Prop :=
  StartsBacked artifacts history ∧ ∀ launch, op = .startClient launch → Backed artifacts launch history

section
variable {artifacts : List Artifact} {history : History}

private theorem startsBacked_none (notStarted : NotStarted history) : StartsBacked artifacts history :=
  fun launch reply member => absurd member (notStarted launch reply)

private theorem quiet_backed {op : Op} (quiet : Op.quiet op) (notStarted : NotStarted history) :
    backedGuard artifacts op history :=
  ⟨startsBacked_none notStarted,fun launch same => absurd same (quiet launch)⟩

private theorem plain_notStarted {α : Type} {p : Method α} (only : Only Op.plain p) (notStarted : NotStarted history) :
    Ensures (Recording launcher) (backedGuard artifacts) p (fun _ t => NotStarted t) history := by
  refine ensures_only only notStarted (fun op t plain still => quiet_backed (plain_quiet op plain) still) ?_
  rintro op t reply u plain still rfl
  exact notStarted_append still (plain_quiet op plain)

theorem verifyJarHash_recorded (artifact : Artifact) : Ends (Recording launcher) (verifyJarHash artifact) (fun outcome t =>
    (∀ other, VerifiedIn history other → VerifiedIn t other) ∧ (outcome = .ok () → VerifiedIn t artifact)) history := by
  refine ensures_outcome ?_ fun thrown failed => ⟨fun _ verified => verified,nofun⟩
  intro name given
  cases named : artifact.name with
  | none => simp [named] at given
  | some name' =>
    rw [named] at given
    cases given
    refine ensures_attempt (ensures_perform trivial ?_)
    rintro reply t rfl
    have earlier (other : Artifact) (verified : VerifiedIn history other) :
        VerifiedIn (history ++ [⟨.hash name,reply⟩]) other := verifiedIn_append verified trivial
    rcases reply with thrown | found
    · refine ensures_ofOutcome ?_
      dsimp only
      split <;> exact ⟨earlier,nofun⟩
    · refine ensures_ofOutcome ?_
      dsimp only
      split
      · exact ⟨earlier,nofun⟩
      · rename_i same
        refine ⟨earlier,?_⟩
        intro _
        exact ⟨name,found,history,[],named,(not_not.mp same).symm,rfl,fun _ none => absurd none List.not_mem_nil⟩

theorem verifyJarHashes_recorded : Ends (Recording launcher) (verifyJarHashes artifacts)
    (fun outcome t => outcome = .ok () → ∀ artifact ∈ artifacts, VerifiedIn t artifact) history := by
  refine @ensures_forM _ _ _ _ _ _ _ (fun rest t => ∀ artifact ∈ artifacts, artifact ∈ rest ∨ VerifiedIn t artifact)
    _ _ _ (fun artifact member => .inl member) ?_ ?_
  · intro artifact rest t seen
    refine ensures_mono (verifyJarHash_recorded artifact) ?_
    rintro (thrown | done) u ⟨earlier,here⟩
    · exact nofun
    · intro other member
      rcases seen other member with listed | before
      · rcases List.mem_cons.mp listed with rfl | later
        · exact .inr (here rfl)
        · exact .inl later
      · exact .inr (earlier other before)
  · intro t seen _ artifact member
    exact (seen artifact member).resolve_left List.not_mem_nil

variable {library : Library} {host : Host} {settings : LauncherSettings}

theorem sync_recorded : Ends (Recording launcher) (sync library settings artifacts)
    (fun outcome t => outcome = .ok true → ∀ artifact ∈ artifacts, VerifiedIn t artifact) history := by
  have anything {α : Type} {p : Method α} {h : History} (only : Only Op.syncs p) :
      Ends (Recording launcher) p (fun _ _ => True) h :=
    ensures_only only trivial (fun _ _ _ _ => trivial) fun _ _ _ _ _ _ _ => trivial
  refine ensures_bind (ensures_mono (anything (clean_only artifacts)) ?_)
  rintro (thrown | done) t -
  · exact nofun
  · refine ensures_attempt (ensures_mono (anything (download_only _ artifacts _)) ?_)
    rintro (thrown | done) u -
    · dsimp only
      split
      · exact ⟨trivial,fun _ _ _ => nofun⟩
      · exact nofun
    · refine ensures_attempt (ensures_mono verifyJarHashes_recorded ?_)
      rintro (thrown | done) v verified
      · dsimp only
        split
        · exact ⟨trivial,fun _ _ _ => nofun⟩
        · exact nofun
      · exact fun _ => verified rfl

private theorem start_backed {launch : Launch} (notStarted : NotStarted history)
    (backed : Backed artifacts launch history) : Ensures (Recording launcher) (backedGuard artifacts)
      (do ofOutcome (← ask (.startClient launch)) : Method Unit) (fun _ t => StartsBacked artifacts t) history := by
  refine ensures_perform ⟨startsBacked_none notStarted,?_⟩ ?_
  · rintro launch' ⟨⟩
    exact backed
  · rintro reply t rfl
    refine ensures_ofOutcome ?_
    intro launch' reply' member
    rcases List.mem_append.mp member with earlier | last
    · exact absurd earlier (notStarted launch' reply')
    · cases List.mem_singleton.mp last
      exact ⟨backed.1,fun artifact listed => verifiedIn_append (backed.2 artifact listed) trivial⟩

/-- Every client that a session starts is backed by the session's own history. -/
theorem session_backed {bootstrap : Bootstrap} {jvmProps : List (String × String)} (notStarted : NotStarted history) :
    Ensures (Recording launcher) (backedGuard artifacts) (session library host bootstrap settings jvmProps artifacts)
      (fun _ t => StartsBacked artifacts t) history := by
  refine ensures_bind (ensures_mono (ensures_and sync_recorded
    (plain_notStarted (sync_plain library settings artifacts) notStarted)) ?_)
  rintro (thrown | synced) t ⟨verified,still⟩
  · exact startsBacked_none still
  cases synced with
  | false => exact startsBacked_none still
  | true =>
    refine ensures_outcome (fun clientArgs _ => ?_) fun _ _ => startsBacked_none still
    refine ensures_outcome (fun classpath named => ?_) fun _ _ => startsBacked_none still
    refine ensures_outcome (fun jvmArgs _ => ?_) fun _ _ => startsBacked_none still
    have backed (mode : LaunchMode) (command : List String) : Backed artifacts ⟨mode,classpath,command⟩ t :=
      ⟨classpathOf_names named,verified rfl⟩
    unfold startClient
    split
    · exact start_backed still (backed _ _)
    · refine ensures_outcome (fun canFork _ => ?_) fun _ _ => startsBacked_none still
      split
      · exact ensures_outcome (fun command _ => start_backed still (backed _ _)) fun _ _ => startsBacked_none still
      · split
        · exact startsBacked_none still
        · refine ensures_perform (quiet_backed nofun still) ?_
          rintro reply u rfl
          have later : NotStarted (t ++ [⟨.getJava,reply⟩]) := notStarted_append still nofun
          have backed' (mode : LaunchMode) (command : List String) :
              Backed artifacts ⟨mode,classpath,command⟩ (t ++ [⟨.getJava,reply⟩]) :=
            ⟨(backed mode command).1,fun artifact member => verifiedIn_append ((backed mode command).2 artifact member) trivial⟩
          split
          · exact startsBacked_none later
          · exact startsBacked_none later
          · exact ensures_outcome (fun command _ => start_backed later (backed' _ _)) fun _ _ => startsBacked_none later

end

/-! ## Interleavings -/

/-- What one launcher brings to the shared directory. -/
structure Run where
  host : Host
  bootstrap : Bootstrap
  settings : LauncherSettings
  jvmProps : List (String × String)
  artifacts : List Artifact

def Run.program (library : Library) (run : Run) : Method Unit :=
  session library run.host run.bootstrap run.settings run.jvmProps run.artifacts

section
variable {ι : Type} [DecidableEq ι] {library : Library} {locate : String → String} {runs : ι → Run}
  {events : List (Event ι launcher)} {now : ι → Method Unit} {w t : World}

/-- A launcher's own history backs the client it has started or is about to start. -/
theorem trace_backed {env : Environment launcher World}
    (trace : Trace env (fun i => (runs i).program library) w events now t) {actor : ι} {launch : Launch}
    (started : (∃ reply, (⟨.startClient launch,reply⟩ : Exchange launcher) ∈ own actor events) ∨
      ∃ next, now actor = .call (.startClient launch) next) :
    Backed (runs actor).artifacts launch (own actor events) := by
  have none : NotStarted [] := fun _ _ => List.not_mem_nil
  have here := ensures_steps (session_backed none) (trace_own trace actor)
  rcases started with ⟨reply,member⟩ | ⟨next,turn⟩
  · cases now_eq : now actor with
    | done value =>
      rw [now_eq] at here
      exact here launch reply member
    | raise thrown =>
      rw [now_eq] at here
      exact here launch reply member
    | call op next =>
      rw [now_eq] at here
      exact here.1.1 launch reply member
  · rw [turn] at here
    exact here.1.2 launch rfl

/-- A file holds what a hash of it has just told. -/
theorem hash_holds {procs : ι → Method Unit} {before : List (Event ι launcher)} {actor : ι} {name expected : String}
    (trace : Trace (Reacts library.sha256 locate) procs w (before ++ [⟨actor,.hash name,.ok expected⟩]) now t) :
    ∃ content, t.files (locate name) = some (.file content) ∧ expected = library.sha256 content := by
  generalize whole : before ++ [⟨actor,.hash name,.ok expected⟩] = events at trace
  cases trace with
  | start => simp at whole
  | step earlier turn reacts =>
    obtain ⟨rfl,same⟩ := List.append_inj' whole rfl
    cases same
    rcases reacts.2 with hashed | failed
    · rw [reacts.1]
      exact node_hash_ok hashed.symm
    · cases failed

/-- Whatever other launchers do, a client is started on files of which the launcher
    has itself seen the right hash; each of them still has that hash unless another
    launcher has deleted, opened or written it after that look. -/
theorem started_files_verified
    (trace : Trace (Reacts library.sha256 locate) (fun i => (runs i).program library) w events now t)
    {actor : ι} {launch : Launch}
    (started : (∃ reply, (⟨.startClient launch,reply⟩ : Exchange launcher) ∈ own actor events) ∨
      ∃ next, now actor = .call (.startClient launch) next) :
    launch.classpath.map some = (runs actor).artifacts.map Artifact.name ∧
      ∀ artifact ∈ (runs actor).artifacts, ∃ name expected before after, artifact.name = some name ∧
        artifact.hash = some expected ∧ events = before ++ ⟨actor,.hash name,.ok expected⟩ :: after ∧
        ((∀ event ∈ after, event.actor ≠ actor → ¬ Op.changes locate (locate name) event.exchange.1) →
          Verified library.sha256 locate t artifact) := by
  obtain ⟨classpath,verified⟩ := trace_backed trace started
  refine ⟨classpath,?_⟩
  intro artifact member
  obtain ⟨name,expected,ownBefore,ownAfter,named,hashed,split,harmless⟩ := verified artifact member
  obtain ⟨before,after,rfl,rest⟩ := own_split split
  refine ⟨name,expected,before,after,named,hashed,rfl,?_⟩
  intro untouched
  have regrouped : before ++ ⟨actor,.hash name,.ok expected⟩ :: after =
      (before ++ [⟨actor,.hash name,.ok expected⟩]) ++ after := by simp
  rw [regrouped] at trace
  obtain ⟨mid,v,first,second⟩ := trace_split trace
  obtain ⟨content,inPlace,rfl⟩ := hash_holds first
  have still : t.files (locate name) = some (.file content) := by
    refine @trace_invariant _ _ _ _ _ _ _ _ _ _ _ _ (fun x => x.files (locate name) = some (.file content))
      second inPlace ?_
    intro event listed x y holds reacts
    rw [reacts_unchanged reacts ?_]
    · exact holds
    · by_cases mine : event.actor = actor
      · refine harmless_unchanged (harmless event.exchange ?_) locate _
        rw [← rest]
        exact List.mem_filterMap.mpr ⟨event,listed,by simp [mine]⟩
      · exact untouched event listed mine
  exact ⟨name,content,named,still,hashed⟩

end

/-! ## A race -/

/-- SHA-256 of the contents that occur below: no bytes, and the letter `a`. -/
private def raceSha256 (content : Bytes) : String :=
  if content = [0x61] then "ca978112ca1bbdcafac231b39a23dc4da786eff8147c4e72b9807785afee48bb"
  else "e3b0c44298fc1c149afbf4c8996fb92427ae41e4649b934ca495991b7852b855"

private def raceLibrary : Library where
  sha256 := raceSha256
  verifySignature _ _ := .ok true
  fromJson _ := .ok none
  parse _ args := .ok { nonOptionArguments := args }
  parseDouble _ := none
  showDouble _ := "1.0"

private def raceArtifact : Artifact where
  name := some "client.jar"
  path := some "https://host/client.jar"
  hash := some "ca978112ca1bbdcafac231b39a23dc4da786eff8147c4e72b9807785afee48bb"
  size := 1

private def raceRun : Run where
  host := sampleHost
  bootstrap := { artifacts := some [some raceArtifact] }
  settings := { launchMode := some .REFLECT }
  jvmProps := []
  artifacts := [raceArtifact]

/-- An honest server, and an empty directory. -/
private def raceHandler : Handler launcher World := calm raceSha256 (fun _ => [0x61]) []

private def race (order : List Bool) : List (Event Bool launcher) × (Bool → Method Unit) × World :=
  schedule raceHandler [] (fun _ => raceRun.program raceLibrary) ⟨fun _ => none,[],[],[],0⟩ order

private theorem race_trace (order : List Bool) : Trace (Reacts raceSha256 id) (fun _ => raceRun.program raceLibrary)
    ⟨fun _ => none,[],[],[],0⟩ (race order).1 (race order).2.1 (race order).2.2 :=
  schedule_trace (calm_reacts _ _ _) .start order

/-- Alone, the first launcher comes to start its client on the verified file. -/
private def alone : List Bool := List.replicate 8 false

theorem started_files_verified_sample : ∃ t, Verified raceSha256 id t raceArtifact := by
  have turn : (race alone).2.1 false = .call (.startClient ⟨.REFLECT,["client.jar"],[]⟩) fun reply => ofOutcome reply := rfl
  obtain ⟨-,each⟩ := @started_files_verified Bool _ raceLibrary id (fun _ => raceRun) _ _ _ _ (race_trace alone) false
    ⟨.REFLECT,["client.jar"],[]⟩ (.inr ⟨_,turn⟩)
  obtain ⟨name,expected,before,after,-,-,split,still⟩ := each raceArtifact List.mem_cons_self
  refine ⟨_,still ?_⟩
  intro event member other
  have mine : ((race alone).1.all fun event => !event.actor) = true := rfl
  have same := List.all_eq_true.mp mine event (by rw [split]; simp [member])
  simp_all

/-- The second launcher finds the file missing before the first one downloads it,
    and empties it after the first one has verified it. -/
theorem race_breaks : raceArtifact.hash = some (raceSha256 [0x61]) ∧ ∃ events now t launch next,
    Trace (Reacts raceSha256 id) (fun _ : Bool => raceRun.program raceLibrary) ⟨fun _ => none,[],[],[],0⟩ events now t ∧
      now false = .call (.startClient launch) next ∧ ¬ Verified raceSha256 id t raceArtifact := by
  refine ⟨rfl,_,_,_,⟨.REFLECT,["client.jar"],[]⟩,fun reply => ofOutcome reply,
    race_trace ([true,true,true] ++ alone ++ [true]),rfl,?_⟩
  rintro ⟨name,content,⟨⟩,inPlace,hashed⟩
  have emptied : (race ([true,true,true] ++ alone ++ [true])).2.2.files "client.jar" = some (.file []) := rfl
  have same : some (Node.file []) = some (.file content) := emptied.symm.trans inPlace
  cases same
  exact absurd hashed (by decide)

end OpenRune.SharedRepository
