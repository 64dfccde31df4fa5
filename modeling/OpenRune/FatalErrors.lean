import OpenRune.Stages

/-!
# Fatal errors

`main` returns after every error dialog of its own, but it goes on after those of
the Java installer. As long as the installer opens none there is at most one
dialog, and no client is started after it.
-/
namespace OpenRune.FatalErrors
open OpenRune.Java OpenRune.Beans OpenRune.Settings OpenRune.Programs OpenRune.Operations OpenRune.Repository
  OpenRune.Launchers OpenRune.Startup

/-! ## Stages that tell of their dialogs -/

/-- The permission check opens a dialog when it refuses, the updater none, and
    neither does the installer. -/
def Reporting (library : Library) (host : Host) (locate : String → String) : Environment launcher World :=
  fun op w reply w' => Reacts library.sha256 locate op w reply w' ∧ match op, reply with
    | .checkPermissions, reply => reply.dialogs = if reply.result = .ok true then 1 else 0
    | .initJava, reply =>
      ∀ majorVersion, getMajorJavaVersion host.specVersion = .ok majorVersion → majorVersion < 11 → reply.dialogs = 0
    | .update _ _ _, reply => reply.dialogs = 0
    | _, _ => True

/-- No dialog but the first, and no client after it. -/
def guard (op : Op) (w : World) : Prop := w.dialogs ≤ 1 ∧ ∀ launch, op = .startClient launch → w.dialogs = 0

/-- A dialog ends the launcher: there is none where it goes on, or an exception is thrown. -/
def Settled (outcome : Except Thrown Bool) (w : World) : Prop :=
  w.dialogs ≤ 1 ∧ (outcome ≠ .ok false → w.dialogs = 0)

/-- The same at the end of a method: there is no dialog before an exception. -/
def Ended (outcome : Except Thrown Unit) (w : World) : Prop := w.dialogs ≤ 1 ∧ (outcome ≠ .ok () → w.dialogs = 0)

/-- Operations that open no dialog. -/
def Op.silent : Op → Prop
  | .fatalErrorDialog | .checkPermissions | .initJava | .update _ _ _ => False
  | _ => True

private theorem syncs_silent (op : Op) (syncs : Op.syncs op) : Op.silent op := by
  obtain ⟨name,touches⟩ := syncs
  cases op <;> first | exact trivial | exact touches.elim

private theorem fetches_silent (op : Op) (fetches : Op.fetches op) : Op.silent op := by
  cases op <;> first | exact trivial | exact fetches.elim

private theorem only_ask {op : Op} (silent : Op.silent op) : Only Op.silent (ask op) := only_perform silent

theorem reacts_dialogs {sha256 : Bytes → String} {locate : String → String} {op : Op} {w w' : World}
    {reply : Reply op} (reacts : Reacts sha256 locate op w reply w') (silent : Op.silent op) : w'.dialogs = w.dialogs := by
  have unopened : opened op reply = 0 := by
    cases op <;> first | exact rfl | exact silent.elim
  rw [(reacts_effect reacts).dialogs,unopened,Nat.add_zero]

section
variable {library : Library} {host : Host} {locate : String → String} {w : World}

/-- What opens no dialog, before the first one. -/
private theorem silent_run {α : Type} {p : Method α} (silent : Only Op.silent p) (fresh : w.dialogs = 0) :
    Ensures (Reporting library host locate) guard p (fun _ t => t.dialogs = 0) w := by
  refine ensures_only silent fresh ?_ ?_
  · exact fun op t _ fresh => ⟨by omega,fun _ _ => fresh⟩
  · exact fun op t reply u silent fresh reacts => (reacts_dialogs reacts.1 silent).trans fresh

private theorem fresh_guard {op : Op} (fresh : w.dialogs = 0) : guard op w := ⟨by omega,fun _ _ => fresh⟩

/-- One dialog, when there is none yet. -/
theorem showFatalErrorDialog_run (fresh : w.dialogs = 0) :
    Ensures (Reporting library host locate) guard showFatalErrorDialog (fun outcome t => outcome = .ok () ∧ t.dialogs = 1) w := by
  refine ensures_perform (fresh_guard fresh) ?_
  rintro reply t ⟨shown,-⟩
  have counted : t = { w with dialogs := w.dialogs + 1 } := shown
  exact ⟨rfl,by rw [counted,fresh]⟩

theorem parseArgs_run (args : List String) (fresh : w.dialogs = 0) : Ensures (Reporting library host locate) guard
    (parseArgs library host args) (fun outcome t => t.dialogs ≤ 1 ∧ (outcome.isOk → t.dialogs = 0)) w := by
  unfold parseArgs
  split
  · refine ensures_bind (ensures_mono (showFatalErrorDialog_run fresh) ?_)
    rintro outcome t ⟨rfl,one⟩
    exact ⟨by omega,nofun⟩
  · split
    · exact ⟨by omega,nofun⟩
    · exact ⟨by omega,fun _ => fresh⟩

/-- The last stage before the bootstrap. -/
private theorem makeRepoDir_run (fresh : w.dialogs = 0) : Ensures (Reporting library host locate) guard
    (do let exists' : Bool ← ask .makeRepoDir
        if !exists' then showFatalErrorDialog
        return exists') Settled w := by
  refine ensures_perform (fresh_guard fresh) ?_
  rintro (made : Bool) t ⟨same,-⟩
  obtain rfl : t = w := same
  cases made with
  | true => exact ⟨by omega,fun _ => fresh⟩
  | false =>
    refine ensures_bind (ensures_mono (showFatalErrorDialog_run fresh) ?_)
    rintro outcome u ⟨rfl,one⟩
    exact ⟨by omega,fun goes => absurd rfl goes⟩

theorem prepare_run (fresh : w.dialogs = 0) :
    Ensures (Reporting library host locate) guard (prepare host) Settled w := by
  have failed (thrown : Thrown) {t : World} (fresh : t.dialogs = 0) : Settled (.error thrown) t :=
    ⟨by omega,fun _ => fresh⟩
  refine ensures_perform (fresh_guard fresh) ?_
  rintro shown t ⟨same,-⟩
  obtain rfl : t = w := same
  refine ensures_outcome (fun _ _ => ?_) fun thrown _ => failed thrown fresh
  refine ensures_perform (fresh_guard fresh) ?_
  rintro checked u ⟨counted,dialogs⟩
  have added : u = { t with dialogs := t.dialogs + checked.dialogs } := counted
  have total : u.dialogs = if checked.result = .ok true then 1 else 0 := by
    rw [added]
    simpa [fresh] using dialogs
  refine ensures_outcome (fun refused result => ?_) fun thrown result => failed thrown (by simp [total,result])
  cases refused with
  | true => exact ⟨by simp [total,result],fun goes => absurd rfl goes⟩
  | false =>
    have fresh : u.dialogs = 0 := by simp [total,result]
    refine ensures_outcome (fun majorVersion current => ?_) fun thrown _ => failed thrown fresh
    by_cases old : majorVersion < 11
    · simp only [old,if_true]
      refine ensures_perform (fresh_guard fresh) ?_
      rintro installed v ⟨⟨files,changed⟩,silent⟩
      have fresh : v.dialogs = 0 := by
        rw [changed]
        simp [fresh,silent majorVersion current old]
      exact ensures_outcome (fun _ _ => makeRepoDir_run fresh) fun thrown _ => failed thrown fresh
    · simp only [old,if_false]
      exact makeRepoDir_run fresh

private theorem start_silent (launch : Launch) : Only Op.silent (do ofOutcome (← ask (.startClient launch)) : Method Unit) :=
  only_bind (only_ask trivial) fun _ => only_ofOutcome _

private theorem startClient_silent (bootstrap : Bootstrap) (settings : LauncherSettings) (classpath clientArgs : List String)
    (jvmProps : List (String × String)) (jvmParams : List String) :
    Only Op.silent (startClient host bootstrap settings classpath clientArgs jvmProps jvmParams) := by
  unfold startClient
  split
  · exact start_silent _
  · refine only_bind (only_ofOutcome _) fun canFork => ?_
    split
    · exact only_bind (only_ofOutcome _) fun command => start_silent _
    · split
      · exact only_throw _
      · refine only_bind (only_ask trivial) fun reply => ?_
        split
        · exact only_pure _
        · exact only_throw _
        · exact only_bind (only_ofOutcome _) fun command => start_silent _

theorem launch_silent (bootstrap : Bootstrap) (settings : LauncherSettings) (jvmProps : List (String × String))
    (artifacts : List Artifact) : Only Op.silent (launch host bootstrap settings jvmProps artifacts) := by
  refine only_bind (only_ofOutcome _) fun clientArgs => only_bind (only_ofOutcome _) fun classpath => ?_
  exact only_bind (only_ofOutcome _) fun jvmArgs => startClient_silent _ _ _ _ _ _

theorem launchForked_silent (options : OptionSet) (settings : LauncherSettings) :
    Only Op.silent (launchForked host options settings) := by
  refine only_bind (only_ask trivial) fun _ => only_bind (only_ofOutcome _) fun _ => ?_
  refine only_bind (only_ofOutcome _) fun classpathOpt => only_bind (only_attempt ?_) fun outcome => ?_
  · exact only_bind (only_ofOutcome _) fun clientArgs => start_silent _
  · split
    · split
      · exact only_pure _
      · exact only_throw _
    · exact only_pure _

theorem jvmOutdated_run (bootstrap : Bootstrap) (fresh : w.dialogs = 0) : Ensures (Reporting library host locate) guard
    (jvmOutdated host bootstrap) (fun outcome t => ∃ outdated, outcome = .ok outdated ∧ Settled (.ok !outdated) t) w := by
  unfold jvmOutdated
  split
  · refine ensures_bind (ensures_mono (showFatalErrorDialog_run fresh) ?_)
    rintro outcome t ⟨rfl,one⟩
    exact ⟨true,rfl,by omega,fun goes => absurd rfl goes⟩
  · exact ⟨false,rfl,by omega,fun _ => fresh⟩

/-- A failed download or verification ends the launcher with a dialog. -/
theorem sync_run (settings : LauncherSettings) (artifacts : List Artifact) (fresh : w.dialogs = 0) :
    Ensures (Reporting library host locate) guard (sync library settings artifacts) Settled w := by
  have failed (thrown : Thrown) {t : World} (fresh : t.dialogs = 0) : Settled (.error thrown) t :=
    ⟨by omega,fun _ => fresh⟩
  have refuses {t : World} (fresh : t.dialogs = 0) : Ensures (Reporting library host locate) guard
      (do showFatalErrorDialog; return false : Method Bool) Settled t := by
    refine ensures_bind (ensures_mono (showFatalErrorDialog_run fresh) ?_)
    rintro outcome u ⟨rfl,one⟩
    exact ⟨by omega,fun goes => absurd rfl goes⟩
  refine ensures_bind (ensures_mono (silent_run (only_mono (clean_only artifacts) syncs_silent) fresh) ?_)
  rintro (thrown | done) t fresh
  · exact failed thrown fresh
  refine ensures_attempt (ensures_mono (silent_run (only_mono (download_only _ artifacts _) syncs_silent) fresh) ?_)
  rintro (thrown | done) u fresh
  · dsimp only
    split
    · exact refuses fresh
    · exact failed thrown fresh
  refine ensures_attempt (ensures_mono (silent_run (only_mono (verifyJarHashes_only artifacts) syncs_silent) fresh) ?_)
  rintro (thrown | done) v fresh
  · dsimp only
    split
    · exact refuses fresh
    · exact failed thrown fresh
  · exact ⟨by omega,fun _ => fresh⟩

private theorem ended_fresh {outcome : Except Thrown Unit} (fresh : w.dialogs = 0) : Ended outcome w :=
  ⟨by omega,fun _ => fresh⟩

theorem withBootstrap_run {args : List String} {settings : LauncherSettings} {jvmProps : List (String × String)}
    (bootstrap : Bootstrap) (fresh : w.dialogs = 0) : Ensures (Reporting library host locate) guard
      (withBootstrap library host args settings jvmProps bootstrap) Ended w := by
  refine ensures_perform (fresh_guard fresh) ?_
  rintro updated t₁ ⟨⟨files,changed⟩,silent⟩
  have fresh : t₁.dialogs = 0 := by
    have none : updated.dialogs = 0 := silent
    rw [changed]
    simp [fresh,none]
  refine ensures_outcome (fun _ _ => ?_) fun thrown _ => ended_fresh fresh
  refine ensures_bind (ensures_mono (jvmOutdated_run bootstrap fresh) ?_)
  rintro outcome t₂ ⟨outdated,rfl,settled⟩
  cases outdated with
  | true => exact ⟨settled.1,fun goes => absurd rfl goes⟩
  | false =>
    have fresh : t₂.dialogs = 0 := settled.2 nofun
    refine ensures_perform (fresh_guard fresh) ?_
    rintro patched t₃ ⟨reacts,-⟩
    have fresh : t₃.dialogs = 0 := (reacts_dialogs reacts trivial).trans fresh
    refine ensures_outcome (fun _ _ => ?_) fun thrown _ => ended_fresh fresh
    refine ensures_outcome (fun artifacts _ => ?_) fun thrown _ => ended_fresh fresh
    refine ensures_bind (ensures_mono (sync_run settings artifacts fresh) ?_)
    rintro (thrown | synced) t₄ settled
    · exact ended_fresh (settled.2 nofun)
    cases synced with
    | false => exact ⟨settled.1,fun goes => absurd rfl goes⟩
    | true =>
      refine ensures_mono (silent_run (launch_silent bootstrap settings jvmProps artifacts) (settled.2 nofun)) ?_
      exact fun outcome t₅ fresh => ended_fresh fresh

theorem start_run {args : List String} {options : OptionSet} {settings : LauncherSettings} (fresh : w.dialogs = 0) :
    Ensures (Reporting library host locate) guard (start library host args options settings) Ended w := by
  unfold start
  split
  · exact ensures_mono (silent_run (launchForked_silent options settings) fresh) fun _ _ => ended_fresh
  refine ensures_outcome (fun jvmProps _ => ?_) fun _ _ => ended_fresh fresh
  refine ensures_outcome (fun _ _ => ?_) fun _ _ => ended_fresh fresh
  refine ensures_perform (fresh_guard fresh) ?_
  rintro trusted t ⟨same,-⟩
  obtain rfl : t = w := same
  refine ensures_outcome (fun _ _ => ?_) fun _ _ => ended_fresh fresh
  split
  · exact ensures_mono (silent_run (only_mono (postInstall_fetches library host settings) fetches_silent) fresh) fun _ _ => ended_fresh
  refine ensures_bind (ensures_mono (prepare_run fresh) ?_)
  rintro (thrown | prepared) t₁ settled
  · exact ended_fresh (settled.2 nofun)
  cases prepared with
  | false => exact ⟨settled.1,fun goes => absurd rfl goes⟩
  | true =>
    refine ensures_attempt (ensures_mono (silent_run (only_mono (getBootstrap_fetches library host) fetches_silent) (settled.2 nofun)) ?_)
    rintro (thrown | fetched) t₂ fresh
    · dsimp only
      split
      · refine ensures_mono (showFatalErrorDialog_run fresh) ?_
        rintro outcome t₃ ⟨rfl,one⟩
        exact ⟨by omega,fun goes => absurd rfl goes⟩
      · exact ended_fresh fresh
    · exact ensures_outcome (fun bootstrap _ => withBootstrap_run bootstrap fresh) fun _ _ => ended_fresh fresh

/-- Every run of `main` opens one dialog at most, and starts no client after it. -/
theorem main_run (args : List String) (fresh : w.dialogs = 0) : Ensures (Reporting library host locate) guard
    (main library host args) (fun _ t => t.dialogs ≤ 1) w := by
  refine ensures_bind (ensures_mono (parseArgs_run args fresh) ?_)
  rintro (thrown | options) t ⟨few,parsed⟩
  · exact few
  have fresh : t.dialogs = 0 := parsed rfl
  dsimp only
  split
  · exact few
  refine ensures_perform (fresh_guard fresh) ?_
  rintro stored u ⟨same,-⟩
  obtain rfl : u = t := same
  refine ensures_outcome (fun settings _ => ?_) fun _ _ => few
  refine ensures_handle (ensures_mono (start_run fresh) ?_)
  rintro (thrown | done) v ended
  · have fresh : v.dialogs = 0 := ended.2 nofun
    dsimp only [startupFailed]
    split
    · exact ended.1
    · split
      · exact ended.1
      · refine ensures_mono (showFatalErrorDialog_run fresh) ?_
        rintro outcome x ⟨-,one⟩
        omega
  · exact ended.1

end

/-! ## The stages -/

section
variable {library : Library} {host : Host} {locate : String → String} {inside : Stages.Inside host} {s t : Stages.World}

/-- When the installer is run, the archive can be had. -/
def Obtains (host : Host) (inside : Stages.Inside host) : Prop :=
  ∀ majorVersion os arch, getMajorJavaVersion host.specVersion = .ok majorVersion → majorVersion < 11 →
    host.machine.osName = some os → host.machine.osArch = some arch →
    InstallerDialogs.Obtainable inside.java ⟨os,arch,inside.lines⟩ inside.installing

/-- The stages then tell of their dialogs. -/
theorem stages_reporting (obtains : Obtains host inside) {op : Op} {reply : Reply op}
    (reacts : Stages.Reacts library locate inside op s reply t) :
    Reporting library host locate op s.launcher reply t.launcher := by
  obtain ⟨reacts,within⟩ := reacts
  refine ⟨reacts,?_⟩
  cases op with
  | checkPermissions =>
    have counted := ensures_runs (FilesystemPermissions.check_dialogs _ _) within.2
    exact counted.trans (Nat.zero_add _)
  | initJava =>
    intro majorVersion current old
    obtain ⟨-,installs,missing⟩ := within
    cases os : host.machine.osName with
    | none => exact (missing (.inl os)).1
    | some os =>
      cases arch : host.machine.osArch with
      | none => exact (missing (.inr arch)).1
      | some arch =>
        obtain ⟨outcome,-,runs⟩ := installs _ _ os arch
        have silent := @InstallerDialogs.init_silent _ _ _ s.java.begin inside.installs (obtains _ _ _ current old os arch)
        exact (ensures_runs (counting_none silent) runs).2
  | update bootstrap settings args => exact within.2.1
  | _ => trivial

theorem steps_reporting {α : Type} {p q : Method α} (obtains : Obtains host inside)
    (steps : Steps (Stages.Reacts library locate inside) p s q t) :
    Steps (Reporting library host locate) p s.launcher q t.launcher := by
  induction steps with
  | refl => exact .refl
  | tail before reacts ih => exact .tail ih (stages_reporting obtains reacts)

/-- Nothing happens after a fatal error, in runs of `main` where the Java installer
    is not needed or can get the archive. -/
theorem nothing_after_dialog {args : List String} {p : Method Unit} (obtains : Obtains host inside)
    (fresh : s.launcher.dialogs = 0) (steps : Steps (Stages.Reacts library locate inside) (main library host args) s p t) :
    t.launcher.dialogs ≤ 1 ∧ ∀ launch next, p = .call (.startClient launch) next → t.launcher.dialogs = 0 := by
  have reached := ensures_steps (main_run args fresh) (steps_reporting obtains steps)
  cases p with
  | done value => exact ⟨reached,nofun⟩
  | raise thrown => exact ⟨reached,nofun⟩
  | call op next =>
    refine ⟨reached.1.1,?_⟩
    rintro launch next' same
    injection same with starts
    exact reached.1.2 launch starts

end
/-! ## A download that fails -/

/-- A process on Java 8. -/
private def java8 : Host := { sampleHost with specVersion := "1.8" }

private def sampleLibrary (verified : Bool) : Library where
  sha256 _ := "e3b0c44298fc1c149afbf4c8996fb92427ae41e4649b934ca495991b7852b855"
  verifySignature _ _ := .ok verified
  fromJson _ := .ok (some { artifacts := some [] })
  parse _ args := .ok { nonOptionArguments := args }
  parseDouble _ := none
  showDouble _ := "1.0"

def sampleJava : JavaInstaller.Surroundings where
  sha256 _ := "ab"
  contents _ := []
  encode _ := []
  firstLine _ := none
  getParentFile _ := ""
  locate := id
  distinct := JavaInstaller.javaZip_ne

/-- A server that answers with the response code. -/
private def answering (responseCode : Int) : Handler JavaInstaller.installer JavaInstaller.World
  | .connect _, w => (.answered responseCode 1 [[0x50]] false,w)
  | op, w => JavaInstaller.calm sampleJava (fun _ => []) op w

private theorem answering_reacts (responseCode : Int) (op : JavaInstaller.Op) (w : JavaInstaller.World) :
    JavaInstaller.Reacts sampleJava op w (answering responseCode op w).1 (answering responseCode op w).2 := by
  have calmly := JavaInstaller.calm_reacts sampleJava (fun _ => []) op w
  cases op with
  | connect url => exact rfl
  | _ => exact calmly

private def sampleInputs : SelfUpdate.Inputs := ⟨0,0,.ok [],.ok none,.finite 0,SelfUpdate.nowhere⟩

private def sampleInside (responseCode : Int) : Stages.Inside java8 where
  runeliteDir := "/runelite"
  java := sampleJava
  lines := ["LINUX_AMD64_VERSION=17","LINUX_AMD64_CHKSUM=ab","LINUX_AMD64_LINK=https://host/java.zip"]
  installing := (answering responseCode).environment
  installs op w reply w' reacts := by
    have admitted := answering_reacts responseCode op w
    rwa [show answering responseCode op w = (reply,w') from reacts] at admitted
  updater := { SelfUpdate.sampleSurroundings "OpenRune" "Linux" with
    properties := java8.properties
    machine := java8.machine }
  sameProperties := rfl
  sameMachine := rfl
  inputs := sampleInputs
  updating := SelfUpdate.Reacts (SelfUpdate.runeliteApp java8.properties) sampleInputs
  updates _ _ _ _ reacts := reacts

/-- Without the native library all permissions are there. -/
def unloaded : Handler FilesystemPermissions.checking Unit
  | .nativesLoaded, s => (false,s)
  | .isProcessElevated, s => (.ok false,s)
  | .getUserSID, s => (.ok "",s)
  | .setTreeACL _, s => (.ok (),s)
  | .fileExists, s => (true,s)
  | .mkdirs, s => (true,s)
  | .listFiles _, s => (none,s)
  | .isDirectory _, s => (false,s)
  | .toPath _, s => (true,s)
  | .isReadable _, s => (true,s)
  | .isWritable _, s => (true,s)
  | .fatalErrorDialog _, s => ((),s)

private def sampleWorld : Stages.World where
  launcher := { files := fun _ => none }
  java := { files := fun _ => none }
  updater := { stored := {} }

private def sampleRun (verified : Bool) (responseCode : Int) : Handler launcher Stages.World :=
  Stages.staged (sampleLibrary verified) (sampleInside responseCode) (calm (sampleLibrary verified).sha256 (fun _ => []) [])
    unloaded (answering responseCode) (SelfUpdate.calm sampleInputs { serve := fun _ => [] })

private theorem sampleRun_reacts (verified : Bool) (responseCode : Int) (op : Op) (s : Stages.World) :
    Stages.Reacts (sampleLibrary verified) id (sampleInside responseCode) op s (sampleRun verified responseCode op s).1
      (sampleRun verified responseCode op s).2 :=
  Stages.staged_reacts (calm_reacts _ _ _) (fun _ _ => rfl) (SelfUpdate.calm_reacts java8.properties sampleInputs _) op s

/-- On Java 8 the client is started after twelve operations, whether or not the
    archive could be had. -/
private theorem sample_started (responseCode : Int) (answered : responseCode = 200 ∨ responseCode = 404) : ∃ next,
    (advance (sampleRun true responseCode) 12 (main (sampleLibrary true) java8 []) sampleWorld).1 =
      .call (.startClient ⟨.REFLECT,[],[]⟩) next := by
  rcases answered with rfl | rfl <;> exact ⟨_,rfl⟩

private theorem sample_obtains : Obtains java8 (sampleInside 200) := by
  rintro majorVersion os arch - - ⟨⟩ ⟨⟩
  refine ⟨by decide,?_,?_,?_⟩
  · rintro url w responseCode contentLength reads cut w' ⟨⟩
    rfl
  · rintro keys ⟨⟩ url w responseCode contentLength reads w' ⟨⟩
    exact ⟨"ab",by decide,by decide⟩
  · intro file w thrown w' reacts
    have read : JavaInstaller.calm sampleJava (fun _ => []) (.digest file) w = (.error thrown,w') := reacts
    cases found : w.files (sampleJava.locate file) with
    | none => exact found
    | some content =>
      simp only [JavaInstaller.calm,found] at read
      cases read

theorem nothing_after_dialog_sample : ∃ next t, Steps (Stages.Reacts (sampleLibrary true) id (sampleInside 200))
    (main (sampleLibrary true) java8 []) sampleWorld (.call (.startClient ⟨.REFLECT,[],[]⟩) next) t ∧
      t.launcher.dialogs = 0 := by
  obtain ⟨next,started⟩ := sample_started 200 (.inl rfl)
  have steps := advance_steps (sampleRun_reacts true 200) 12 (main (sampleLibrary true) java8 []) sampleWorld
  rw [started] at steps
  exact ⟨next,_,steps,(nothing_after_dialog sample_obtains rfl steps).2 _ _ rfl⟩

/-- The server answers 404 to the request for Java. A dialog says so, then the client
    is started; or a second dialog follows, when the bootstrap is not verified. -/
theorem client_after_dialog : sampleWorld.launcher.dialogs = 0 ∧
    (∃ next t, Steps (Stages.Reacts (sampleLibrary true) id (sampleInside 404)) (main (sampleLibrary true) java8 [])
      sampleWorld (.call (.startClient ⟨.REFLECT,[],[]⟩) next) t ∧ t.launcher.dialogs = 1) ∧
    ∃ t, Runs (Stages.Reacts (sampleLibrary false) id (sampleInside 404)) (main (sampleLibrary false) java8 [])
      sampleWorld (.ok ()) t ∧ t.launcher.dialogs = 2 := by
  obtain ⟨next,started⟩ := sample_started 404 (.inr rfl)
  have steps := advance_steps (sampleRun_reacts true 404) 12 (main (sampleLibrary true) java8 []) sampleWorld
  rw [started] at steps
  have ended : (execute (sampleRun false 404) (main (sampleLibrary false) java8 []) sampleWorld).1 = .ok () := rfl
  have runs := execute_runs (sampleRun_reacts false 404) (main (sampleLibrary false) java8 []) sampleWorld
  rw [ended] at runs
  exact ⟨rfl,⟨next,_,steps,rfl⟩,_,runs,rfl⟩

end OpenRune.FatalErrors
