import OpenRune.Launchers
import OpenRune.Repository

/-!
# Starting up

`Launcher.main`: from the command line over the signed bootstrap and the
repository directory to the start of the client. Nothing is started but what was
verified last.
-/
namespace OpenRune.Startup
open OpenRune.Java OpenRune.Beans OpenRune.Versions OpenRune.Updates OpenRune.Settings OpenRune.Programs
  OpenRune.Operations OpenRune.Repository OpenRune.Launchers

/-- The functions of other libraries: SHA-256, the signature check with the
    bundled certificate, Gson on the bootstrap, the option parser, and the
    conversions of doubles. -/
structure Library where
  sha256 : Bytes → String
  verifySignature : Bytes → Bytes → Except Thrown Bool
  fromJson : Bytes → Except Thrown (Option Bootstrap)
  parse : List (String × Bool) → List String → Except Thrown OptionSet
  parseDouble : String → Option Double
  showDouble : Double → String

/-! ## Before the bootstrap -/

/-- `Launcher.parseApplicationURI`. -/
def parseApplicationURI (args : List String) : List String :=
  match args with
  | [] => []
  | uri :: rest =>
    if "runelite-jav://".toList <+: uri.toList then ["--jav_config",uri.replace "runelite-jav" "http"] else uri :: rest

def showFatalErrorDialog : Method Unit := do
  let _ ← ask .fatalErrorDialog

/-- The options that `parseArgs` declares, and which of them require an argument. -/
def declaredOptions (os : OSType) : List (String × Bool) :=
  [("postinstall",false),("debug",false),("nodiff",false),("insecure-skip-tls-verification",false),("scale",true),
    ("noupdate",false),("help",false),("classpath",true),("J",true),("configure",false),("launch-mode",true),
    ("hw-accel",true),("mode",true)] ++ if os = .MacOS then [("p",true)] else []

/-- `Launcher.parseArgs`. -/
def parseArgs (library : Library) (host : Host) (args : List String) : Method OptionSet := do
  match library.parse (declaredOptions (getOs host.machine)) (parseApplicationURI args) with
  | .error thrown => do
    showFatalErrorDialog
    throw thrown
  | .ok options => if options.has "help" then throw .exit else return options

/-- The system properties for the client, in the order in which they are put. -/
def jvmProperties (library : Library) (host : Host) (settings : LauncherSettings) :
    Except Thrown (List (String × String)) := do
  let os := getOs host.machine
  let scaled := match settings.scale with
    | some scale => [("sun.java2d.dpiaware","true"),("sun.java2d.uiScale",library.showDouble scale)]
    | none => []
  let stored ← deref settings.hardwareAccelerationMode
  let mode := if stored = .AUTO then HardwareAccelerationMode.defaultMode os else stored
  let params ← mode.toParams os
  let props := params.foldl (fun props param => put props param.1 param.2) scaled
  let props := if os = .MacOS then put props "apple.awt.application.appearance" "system" else props
  let props := put props host.properties.versionKey host.properties.version
  return if settings.skipTlsVerification then put props "runelite.insecure-skip-tls-verification" "true" else props

/-- `LauncherSettings.configurationStr` fails on argument lists that are null. -/
def configurationStr (settings : LauncherSettings) : Except Thrown Unit := do
  let _ ← deref settings.clientArguments
  let _ ← deref settings.jvmArguments

/-- `Launcher.getMajorJavaVersion`. -/
def getMajorJavaVersion (version : String) : Except Thrown Int := do
  let versionElements := split (fun c => c == '.') version.toList
  let element := if "1.".toList <+: version.toList then versionElements[1]? else versionElements[0]?
  deref (parseInt (← deref element))

/-- The stages between the settings and the bootstrap; `false` ends the launcher. -/
def prepare (host : Host) : Method Bool := do
  ofOutcome (← ask .splashScreen)
  let refused ← ofOutcome (← ask .checkPermissions).result
  if refused then return false
  let majorVersion ← ofOutcome (getMajorJavaVersion host.specVersion)
  if majorVersion < 11 then ofOutcome (← ask .initJava).result
  let exists' : Bool ← ask .makeRepoDir
  if !exists' then showFatalErrorDialog
  return exists'

/-! ## The bootstrap -/

/-- `Launcher.getBootstrap`. -/
def getBootstrap (library : Library) (host : Host) : Method (Option Bootstrap) := do
  let bootstrapBytes ← ofOutcome (← ask (.sendGet host.properties.bootstrap))
  let signatureBytes ← ofOutcome (← ask (.sendGet host.properties.bootstrapSig))
  let verified ← ofOutcome (library.verifySignature bootstrapBytes signatureBytes)
  if !verified then throw .verification
  ofOutcome (library.fromJson bootstrapBytes)

/-- What both callers of `getBootstrap` catch. -/
def isFetchError (thrown : Thrown) : Bool :=
  thrown.isIOException || thrown == .verification || thrown == .security

/-- `Launcher.postInstall`. -/
def postInstall (library : Library) (host : Host) (settings : LauncherSettings) : Method Unit := do
  match ← attempt (getBootstrap library host) with
  | .error thrown => if isFetchError thrown then return () else throw thrown
  | .ok bootstrap => ofOutcome (← ask (.updateLauncherArgs (← ofOutcome (deref bootstrap)) settings))

def launcherTooOld (host : Host) (bootstrap : Bootstrap) : Bool :=
  match bootstrap.requiredLauncherVersion with
  | some required => decide (0 < compareVersion required host.properties.version)
  | none => false

/-- A version that cannot be compared counts as recent enough. -/
def jvmTooOld (host : Host) (bootstrap : Bootstrap) : Bool :=
  match bootstrap.requiredJVMVersion, host.javaVersion with
  | some required, some current => decide (0 < compareVersion required current)
  | _, _ => false

/-- `Launcher.jvmOutdated`. -/
def jvmOutdated (host : Host) (bootstrap : Bootstrap) : Method Bool := do
  if launcherTooOld host bootstrap || jvmTooOld host bootstrap then
    showFatalErrorDialog
    return true
  return false

/-- One platform of an artifact. -/
def platformSelects (machine : Machine) (entry : Option Platform) : Except Thrown Bool := do
  let platform ← deref entry
  match platform.name with
  | none => return false
  | some name =>
    return (if parseOs name = .Other then decide (machine.osName = some name)
      else decide (parseOs name = getOs machine)) &&
      (platform.arch == none || platform.arch == machine.osArch)

/-- The filter for the artifacts of this system. -/
def isForPlatform (machine : Machine) (artifact : Artifact) : Except Thrown Bool :=
  match artifact.platform with
  | none => .ok true
  | some platforms => platforms.anyM (platformSelects machine)

def considerArtifact (machine : Machine) (entry : Option Artifact) : Except Thrown (Option Artifact) := do
  let artifact ← deref entry
  return if ← isForPlatform machine artifact then some artifact else none

def selectArtifacts (machine : Machine) (bootstrap : Bootstrap) : Except Thrown (List Artifact) := do
  let considered ← (← deref bootstrap.artifacts).mapM (considerArtifact machine)
  return considered.reduceOption

/-! ## The client -/

/-- The class path of artifacts, all of which need a name. -/
def classpathOf (artifacts : List Artifact) : Except Thrown (List String) :=
  artifacts.mapM fun artifact => deref artifact.name

/-- The choice of the launcher. -/
def startClient (host : Host) (bootstrap : Bootstrap) (settings : LauncherSettings) (classpath : List String)
    (clientArgs : List String) (jvmProps : List (String × String)) (jvmParams : List String) : Method Unit := do
  if settings.launchMode = some .REFLECT then
    ofOutcome (← ask (.startClient ⟨.REFLECT,classpath,clientArgs⟩))
  else
    let canFork ← ofOutcome (if settings.launchMode = some .AUTO then canForkLaunch host else .ok false)
    if settings.launchMode = some .FORK ∨ canFork then
      let command ← ofOutcome (forkLaunch host bootstrap classpath clientArgs jvmProps jvmParams)
      ofOutcome (← ask (.startClient ⟨.FORK,classpath,command⟩))
    else if host.appimage.isSome then throw .unchecked
    else
      match ← ask .getJava with
      | .error .fileNotFound => return ()
      | .error thrown => throw thrown
      | .ok java =>
        let command ← ofOutcome (jvmLaunch host java bootstrap classpath clientArgs jvmProps jvmParams)
        ofOutcome (← ask (.startClient ⟨.JVM,classpath,command⟩))

/-- From the verified files to the running client. -/
def launch (host : Host) (bootstrap : Bootstrap) (settings : LauncherSettings) (jvmProps : List (String × String))
    (artifacts : List Artifact) : Method Unit := do
  let clientArgs ← ofOutcome (getClientArgs host settings)
  let classpath ← ofOutcome (classpathOf artifacts)
  let jvmArgs ← ofOutcome (getJvmArgs host settings)
  startClient host bootstrap settings classpath clientArgs jvmProps (("-XX:ErrorFile=" ++ host.crashFiles) :: jvmArgs)

/-- The repository directory is cleaned, filled and verified; `false` ends the launcher. -/
def sync (library : Library) (settings : LauncherSettings) (artifacts : List Artifact) : Method Bool := do
  clean artifacts
  match ← attempt (download library.sha256 artifacts settings.nodiffs) with
  | .error thrown =>
    if thrown.isIOException then do
      showFatalErrorDialog
      return false
    else throw thrown
  | .ok _ =>
    match ← attempt (verifyJarHashes artifacts) with
    | .error thrown =>
      if thrown = .verification then do
        showFatalErrorDialog
        return false
      else throw thrown
    | .ok _ => return true

/-- What `main` does in the repository directory, the start of the client included. -/
def session (library : Library) (host : Host) (bootstrap : Bootstrap) (settings : LauncherSettings)
    (jvmProps : List (String × String)) (artifacts : List Artifact) : Method Unit := do
  if ← sync library settings artifacts then launch host bootstrap settings jvmProps artifacts

/-- The part of `main` that uses the bootstrap. -/
def withBootstrap (library : Library) (host : Host) (args : List String) (settings : LauncherSettings)
    (jvmProps : List (String × String)) (bootstrap : Bootstrap) : Method Unit := do
  ofOutcome (← ask (.update bootstrap settings args)).result
  if ← jvmOutdated host bootstrap then return ()
  ofOutcome (← ask (.updateLauncherArgs bootstrap settings))
  let artifacts ← ofOutcome (selectArtifacts host.machine bootstrap)
  session library host bootstrap settings jvmProps artifacts

/-- The branch for `--classpath`, which the forked process takes. -/
def launchForked (host : Host) (options : OptionSet) (settings : LauncherSettings) : Method Unit := do
  ofOutcome (← ask (.setupTrustManager false))
  let classpathOpt ← ofOutcome (options.valueOf "classpath")
  let classpath := splitPaths host.pathSeparator (classpathOpt.getD "null")
  match ← attempt (do
      let clientArgs ← ofOutcome (getClientArgs host settings)
      ofOutcome (← ask (.startClient ⟨.REFLECT,classpath,clientArgs⟩))) with
  | .error thrown => if thrown.isException then return () else throw thrown
  | .ok _ => return ()

/-- The body of the outer `try` of `main`. -/
def start (library : Library) (host : Host) (args : List String) (options : OptionSet)
    (settings : LauncherSettings) : Method Unit := do
  if options.has "classpath" then launchForked host options settings
  else
    let jvmProps ← ofOutcome (jvmProperties library host settings)
    ofOutcome (configurationStr settings)
    ofOutcome (← ask (.setupTrustManager settings.skipTlsVerification))
    if options.has "postinstall" then postInstall library host settings
    else if ← prepare host then
      match ← attempt (getBootstrap library host) with
      | .error thrown => if isFetchError thrown then showFatalErrorDialog else throw thrown
      | .ok bootstrap => withBootstrap library host args settings jvmProps (← ofOutcome (deref bootstrap))

/-- The `catch` clauses of the outer `try`. -/
def startupFailed (options : OptionSet) (thrown : Thrown) : Method Unit :=
  if !thrown.isException then throw thrown
  else if options.has "postinstall" then return () else showFatalErrorDialog

/-- `Launcher.main`. -/
def main (library : Library) (host : Host) (args : List String) : Method Unit := do
  let options ← parseArgs library host args
  if options.has "configure" then return ()
  let stored ← ask .loadSettings
  let settings ← ofOutcome (stored.apply library.parseDouble host.reflect options)
  tryCatch (start library host args options settings) (startupFailed options)

/-! ## The launch gate -/

/-- Selected for this system. -/
def isSelected (machine : Machine) (entry : Option Artifact) : Bool :=
  match entry with
  | none => false
  | some artifact => match isForPlatform machine artifact with
    | .ok selected => selected
    | .error _ => false

private theorem considered_filter {machine : Machine} {listed considered : List (Option Artifact)}
    (each : List.Forall₂ (fun entry result => considerArtifact machine entry = .ok result) listed considered) :
    considered.reduceOption.map some = listed.filter (isSelected machine) := by
  induction each with
  | nil => rfl
  | @cons entry result rest results first later ih =>
    cases entry with
    | none => cases first
    | some artifact =>
      cases checked : isForPlatform machine artifact with
      | error thrown => simp [considerArtifact,checked] at first
      | ok chosen =>
        simp only [considerArtifact,deref_some,ok_bind,checked,pure_ok,Except.ok.injEq] at first
        cases chosen with
        | true => simp [← first,isSelected,checked,ih]
        | false => simp [← first,isSelected,checked,ih]

/-- The selected artifacts are those for this system, in the order of the bootstrap. -/
theorem selectArtifacts_filter {machine : Machine} {bootstrap : Bootstrap} {artifacts : List Artifact}
    (selected : selectArtifacts machine bootstrap = .ok artifacts) :
    ∃ listed, bootstrap.artifacts = some listed ∧ artifacts.map some = listed.filter (isSelected machine) := by
  unfold selectArtifacts at selected
  cases given : bootstrap.artifacts with
  | none => simp [given] at selected
  | some listed =>
    cases collected : listed.mapM (considerArtifact machine) with
    | error thrown => simp [given,collected] at selected
    | ok considered =>
      simp only [given,deref_some,ok_bind,collected,pure_ok,Except.ok.injEq] at selected
      exact ⟨listed,rfl,selected ▸ considered_filter (mapM_ok collected)⟩

theorem classpathOf_names {artifacts : List Artifact} {classpath : List String}
    (named : classpathOf artifacts = .ok classpath) : classpath.map some = artifacts.map Artifact.name := by
  have each := mapM_ok named
  clear named
  induction each with
  | nil => rfl
  | @cons artifact name rest names first later ih =>
    cases given : artifact.name with
    | none => simp [given] at first
    | some name' =>
      rw [given] at first
      cases first
      simp [given,ih]

/-- A client that is started runs on a class path of verified files, the files of
    the selected artifacts of a bootstrap whose signature was checked. -/
def Gated (library : Library) (host : Host) (locate : String → String) (launch : Launch) (w : World) : Prop :=
  ∃ body signature bootstrap listed, ∃ artifacts : List Artifact,
    (host.properties.bootstrap,body) ∈ w.served ∧ (host.properties.bootstrapSig,signature) ∈ w.served ∧
    library.verifySignature body signature = .ok true ∧ library.fromJson body = .ok (some bootstrap) ∧
    bootstrap.artifacts = some listed ∧ artifacts.map some = listed.filter (isSelected host.machine) ∧
    launch.classpath.map some = artifacts.map Artifact.name ∧
    ∀ artifact ∈ artifacts, Verified library.sha256 locate w artifact

def gate (library : Library) (host : Host) (locate : String → String) (op : Op) (w : World) : Prop :=
  ∀ launch, op = .startClient launch → Gated library host locate launch w

/-- Every operation but the start of a client. -/
def Op.quiet (op : Op) : Prop := ∀ launch, op ≠ .startClient launch

/-- Every operation but the start of a client and the update. -/
def Op.plain : Op → Prop
  | .startClient _ | .update _ _ _ => False
  | _ => True

theorem plain_quiet (op : Op) (plain : Op.plain op) : Op.quiet op := by
  rintro launch rfl
  exact plain

private theorem syncs_plain (op : Op) (syncs : Op.syncs op) : Op.plain op := by
  obtain ⟨name,touches⟩ := syncs
  cases op <;> first | exact trivial | exact touches.elim

private theorem asks {op : Op} (plain : Op.plain op) : Only Op.plain (ask op) := only_perform plain

theorem showFatalErrorDialog_plain : Only Op.plain showFatalErrorDialog :=
  only_bind (asks trivial) fun _ => only_pure _

theorem parseArgs_plain (library : Library) (host : Host) (args : List String) :
    Only Op.plain (parseArgs library host args) := by
  unfold parseArgs
  split
  · exact only_bind showFatalErrorDialog_plain fun _ => only_throw _
  · split
    · exact only_throw _
    · exact only_pure _

theorem prepare_plain (host : Host) : Only Op.plain (prepare host) := by
  refine only_bind (asks trivial) fun _ => only_bind (only_ofOutcome _) fun _ => ?_
  refine only_bind (asks trivial) fun checked => only_bind (only_ofOutcome _) fun refused => ?_
  have finish : Only Op.plain (do
      let exists' : Bool ← ask .makeRepoDir
      if !exists' then showFatalErrorDialog
      return exists') := by
    refine only_bind (asks trivial) fun (made : Bool) => ?_
    cases made with
    | true => exact only_pure _
    | false => exact only_bind showFatalErrorDialog_plain fun _ => only_pure _
  split
  · exact only_pure _
  · refine only_bind (only_ofOutcome _) fun majorVersion => ?_
    split
    · exact only_bind (asks trivial) fun _ => only_bind (only_ofOutcome _) fun _ => finish
    · exact finish

/-- What is done for the bootstrap without the other stages. -/
def Op.fetches : Op → Prop
  | .sendGet _ | .updateLauncherArgs _ _ => True
  | _ => False

theorem getBootstrap_fetches (library : Library) (host : Host) : Only Op.fetches (getBootstrap library host) := by
  refine only_bind (only_ask trivial) fun _ => only_bind (only_ofOutcome _) fun body => ?_
  refine only_bind (only_ask trivial) fun _ => only_bind (only_ofOutcome _) fun signature => ?_
  refine only_bind (only_ofOutcome _) fun verified => ?_
  cases verified with
  | true => exact only_ofOutcome _
  | false => exact only_throw _

theorem postInstall_fetches (library : Library) (host : Host) (settings : LauncherSettings) :
    Only Op.fetches (postInstall library host settings) := by
  refine only_bind (only_attempt (getBootstrap_fetches library host)) fun outcome => ?_
  split
  · split
    · exact only_pure _
    · exact only_throw _
  · exact only_bind (only_ofOutcome _) fun _ => only_bind (only_ask trivial) fun _ => only_ofOutcome _

private theorem fetches_plain (op : Op) (fetches : Op.fetches op) : Op.plain op := by
  cases op <;> first | exact trivial | exact fetches.elim

theorem getBootstrap_plain (library : Library) (host : Host) : Only Op.plain (getBootstrap library host) :=
  only_mono (getBootstrap_fetches library host) fetches_plain

theorem postInstall_plain (library : Library) (host : Host) (settings : LauncherSettings) :
    Only Op.plain (postInstall library host settings) :=
  only_mono (postInstall_fetches library host settings) fetches_plain

theorem jvmOutdated_plain (host : Host) (bootstrap : Bootstrap) : Only Op.plain (jvmOutdated host bootstrap) := by
  unfold jvmOutdated
  split
  · exact only_bind showFatalErrorDialog_plain fun _ => only_pure _
  · exact only_pure _

theorem sync_plain (library : Library) (settings : LauncherSettings) (artifacts : List Artifact) :
    Only Op.plain (sync library settings artifacts) := by
  refine only_bind (only_mono (clean_only artifacts) syncs_plain) fun _ => ?_
  refine only_bind (only_attempt (only_mono (download_only _ artifacts _) syncs_plain)) fun outcome => ?_
  split
  · split
    · exact only_bind showFatalErrorDialog_plain fun _ => only_pure _
    · exact only_throw _
  · refine only_bind (only_attempt (only_mono (verifyJarHashes_only artifacts) syncs_plain)) fun outcome => ?_
    split
    · split
      · exact only_bind showFatalErrorDialog_plain fun _ => only_pure _
      · exact only_throw _
    · exact only_pure _

theorem startupFailed_plain (options : OptionSet) (thrown : Thrown) :
    Only Op.plain (startupFailed options thrown) := by
  unfold startupFailed
  split
  · exact only_throw _
  · split
    · exact only_pure _
    · exact showFatalErrorDialog_plain

section
variable {library : Library} {host : Host} {locate : String → String} {w : World}

private theorem quiet_gate {op : Op} (quiet : Op.quiet op) : gate library host locate op w :=
  fun launch same => absurd same (quiet launch)

/-- Plain programs pass the gate, and forget no answer. -/
private theorem plain_passes {α : Type} {p : Method α} (only : Only Op.plain p) :
    Ensures (Reacts library.sha256 locate) (gate library host locate) p
      (fun _ t => ∀ answer ∈ w.served, answer ∈ t.served) w := by
  refine ensures_only only (fun answer answered => answered) ?_ ?_
  · exact fun op t plain answered => quiet_gate (plain_quiet op plain)
  · intro op t reply u plain kept reacts answer answered
    exact reacts_served reacts (kept answer answered)

/-- A bootstrap comes from a body that was served with a good signature. -/
def Fetched (library : Library) (host : Host) (outcome : Except Thrown (Option Bootstrap)) (t : World) : Prop :=
  ∀ bootstrap, outcome = .ok (some bootstrap) → ∃ body signature,
    (host.properties.bootstrap,body) ∈ t.served ∧ (host.properties.bootstrapSig,signature) ∈ t.served ∧
    library.verifySignature body signature = .ok true ∧ library.fromJson body = .ok (some bootstrap)

theorem getBootstrap_spec : Ensures (Reacts library.sha256 locate) (gate library host locate)
    (getBootstrap library host) (Fetched library host) w := by
  have failed (thrown : Thrown) (u : World) : Fetched library host (.error thrown) u := by
    intro bootstrap same
    cases same
  refine ensures_perform (quiet_gate nofun) fun sentBody t first => ensures_outcome ?_ fun _ _ => failed _ _
  rintro body rfl
  refine ensures_perform (quiet_gate nofun) fun sentSignature u second => ensures_outcome ?_ fun _ _ => failed _ _
  rintro signature rfl
  refine ensures_outcome ?_ fun _ _ => failed _ _
  intro verified checked
  have bodyServed : (host.properties.bootstrap,body) ∈ t.served := by
    have recorded : t = { w with served := w.served ++ [(host.properties.bootstrap,body)] } := first
    simp [recorded]
  have signatureServed : (host.properties.bootstrapSig,signature) ∈ u.served := by
    have recorded : u = { t with served := t.served ++ [(host.properties.bootstrapSig,signature)] } := second
    simp [recorded]
  cases verified with
  | false => exact failed _ _
  | true =>
    refine ensures_ofOutcome ?_
    intro bootstrap parsed
    exact ⟨body,signature,reacts_served second bodyServed,signatureServed,checked,parsed⟩

/-- A synchronisation that lets the launcher go on has verified every artifact. -/
theorem sync_spec (settings : LauncherSettings) (artifacts : List Artifact) :
    Ends (Reacts library.sha256 locate) (sync library settings artifacts) (fun outcome t =>
      outcome = .ok true → ∀ artifact ∈ artifacts, Verified library.sha256 locate t artifact) w := by
  have anything {α : Type} {p : Method α} {u : World} (only : Only Op.syncs p) :
      Ends (Reacts library.sha256 locate) p (fun _ _ => True) u :=
    ensures_only only trivial (fun _ _ _ _ => trivial) fun _ _ _ _ _ _ _ => trivial
  refine ensures_bind (ensures_mono (anything (clean_only artifacts)) ?_)
  rintro (thrown | done) t -
  · exact nofun
  · refine ensures_attempt (ensures_mono (anything (download_only _ artifacts _)) ?_)
    rintro (thrown | done) u -
    · dsimp only
      split
      · exact ⟨trivial,fun _ _ _ => nofun⟩
      · exact nofun
    · refine ensures_attempt (ensures_mono (verifyJarHashes_spec (fun _ _ _ _ reacts => reacts) artifacts) ?_)
      rintro (thrown | done) v ⟨rfl,verified⟩
      · dsimp only
        split
        · exact ⟨trivial,fun _ _ _ => nofun⟩
        · exact nofun
      · exact fun _ => verified rfl

/-- The synchronisation passes the gate, and what was served before is still on record. -/
private theorem sync_passes (settings : LauncherSettings) (artifacts : List Artifact) :
    Ensures (Reacts library.sha256 locate) (gate library host locate) (sync library settings artifacts)
      (fun outcome t => (outcome = .ok true → ∀ artifact ∈ artifacts, Verified library.sha256 locate t artifact) ∧
        ∀ answer ∈ w.served, answer ∈ t.served) w :=
  ensures_and (sync_spec settings artifacts) (plain_passes (sync_plain library settings artifacts))

private theorem start_passes {launch : Launch} (gated : Gated library host locate launch w) :
    Ensures (Reacts library.sha256 locate) (gate library host locate)
      (do ofOutcome (← ask (.startClient launch)) : Method Unit) (fun _ _ => True) w := by
  refine ensures_perform ?_ fun reply t reacts => ensures_ofOutcome trivial
  intro launch' same
  cases same
  exact gated

private theorem startClient_passes {bootstrap : Bootstrap} {settings : LauncherSettings} {classpath : List String}
    {clientArgs : List String} {jvmProps : List (String × String)} {jvmParams : List String}
    (gated : ∀ mode command, Gated library host locate ⟨mode,classpath,command⟩ w) :
    Ensures (Reacts library.sha256 locate) (gate library host locate)
      (startClient host bootstrap settings classpath clientArgs jvmProps jvmParams) (fun _ _ => True) w := by
  unfold startClient
  split
  · exact start_passes (gated _ _)
  · refine ensures_outcome (fun canFork _ => ?_) fun _ _ => trivial
    split
    · exact ensures_outcome (fun command _ => start_passes (gated _ _)) fun _ _ => trivial
    · split
      · exact trivial
      · refine ensures_perform (quiet_gate nofun) ?_
        intro reply t reacts
        have same : t = w := reacts
        subst same
        split
        · exact trivial
        · exact trivial
        · exact ensures_outcome (fun command _ => start_passes (gated _ _)) fun _ _ => trivial

private theorem withBootstrap_passes {args : List String} {settings : LauncherSettings}
    {jvmProps : List (String × String)} {bootstrap : Bootstrap} {body signature : Bytes}
    (bodyServed : (host.properties.bootstrap,body) ∈ w.served)
    (signatureServed : (host.properties.bootstrapSig,signature) ∈ w.served)
    (checked : library.verifySignature body signature = .ok true) (parsed : library.fromJson body = .ok (some bootstrap)) :
    Ensures (Reacts library.sha256 locate) (gate library host locate)
      (withBootstrap library host args settings jvmProps bootstrap) (fun _ _ => True) w := by
  refine ensures_perform (quiet_gate nofun) fun updated t₁ first => ensures_outcome (fun _ _ => ?_) fun _ _ => trivial
  refine ensures_bind (ensures_mono (plain_passes (jvmOutdated_plain host bootstrap)) ?_)
  rintro (thrown | outdated) t₂ kept₂
  · exact trivial
  cases outdated with
  | true => exact trivial
  | false =>
    refine ensures_perform (quiet_gate nofun) fun patched t₃ third => ensures_outcome (fun _ _ => ?_) fun _ _ => trivial
    refine ensures_outcome ?_ fun _ _ => trivial
    intro artifacts selected
    refine ensures_bind (ensures_mono (sync_passes settings artifacts) ?_)
    rintro (thrown | synced) t₄ ⟨verified,kept₄⟩
    · exact trivial
    cases synced with
    | false => exact trivial
    | true =>
      obtain ⟨listed,given,filtered⟩ := selectArtifacts_filter selected
      have still {answer : String × Bytes} (answered : answer ∈ w.served) : answer ∈ t₄.served :=
        kept₄ _ (reacts_served third (kept₂ _ (reacts_served first answered)))
      refine ensures_outcome (fun clientArgs _ => ?_) fun _ _ => trivial
      refine ensures_outcome (fun classpath named => ?_) fun _ _ => trivial
      refine ensures_outcome (fun jvmArgs _ => ?_) fun _ _ => trivial
      refine startClient_passes ?_
      intro mode command
      exact ⟨body,signature,bootstrap,listed,artifacts,still bodyServed,still signatureServed,checked,parsed,given,
        filtered,classpathOf_names named,verified rfl⟩

private theorem start_gated {args : List String} {options : OptionSet} {settings : LauncherSettings}
    (unforked : options.has "classpath" = false) : Ensures (Reacts library.sha256 locate) (gate library host locate)
      (start library host args options settings) (fun _ _ => True) w := by
  unfold start
  rw [unforked]
  refine ensures_outcome (fun jvmProps _ => ?_) fun _ _ => trivial
  refine ensures_outcome (fun _ _ => ?_) fun _ _ => trivial
  refine ensures_perform (quiet_gate nofun) fun trusted t _ => ensures_outcome (fun _ _ => ?_) fun _ _ => trivial
  split
  · exact ensures_mono (plain_passes (postInstall_plain library host settings)) fun _ _ _ => trivial
  · refine ensures_bind (ensures_mono (plain_passes (prepare_plain host)) ?_)
    rintro (thrown | prepared) t₂ -
    · exact trivial
    cases prepared with
    | false => exact trivial
    | true =>
      refine ensures_attempt (ensures_mono getBootstrap_spec ?_)
      rintro (thrown | fetched) t₃ fromServed
      · dsimp only
        split
        · exact ensures_mono (plain_passes showFatalErrorDialog_plain) fun _ _ _ => trivial
        · exact trivial
      · refine ensures_outcome ?_ fun _ _ => trivial
        intro bootstrap given
        cases fetched with
        | none => cases given
        | some fetched =>
          cases given
          obtain ⟨body,signature,bodyServed,signatureServed,checked,parsed⟩ := fromServed _ rfl
          exact withBootstrap_passes bodyServed signatureServed checked parsed

theorem main_gated {args : List String} (unforked : ∀ options,
      library.parse (declaredOptions (getOs host.machine)) (parseApplicationURI args) = .ok options →
        options.has "classpath" = false) :
    Ensures (Reacts library.sha256 locate) (gate library host locate) (main library host args) (fun _ _ => True) w := by
  have parsedArgs : Ensures (Reacts library.sha256 locate) (gate library host locate) (parseArgs library host args)
      (fun outcome _ => ∀ options, outcome = .ok options → options.has "classpath" = false) w := by
    unfold parseArgs
    cases parsed : library.parse (declaredOptions (getOs host.machine)) (parseApplicationURI args) with
    | error thrown => exact ⟨quiet_gate nofun,fun _ _ _ => nofun⟩
    | ok options =>
      dsimp only
      split
      · exact nofun
      · intro options' same
        cases same
        exact unforked options parsed
  refine ensures_bind (ensures_mono parsedArgs ?_)
  rintro (thrown | options) t noClasspath
  · exact trivial
  dsimp only
  split
  · exact trivial
  · refine ensures_perform (quiet_gate nofun) fun stored t₁ _ => ensures_outcome (fun settings _ => ?_) fun _ _ => trivial
    refine ensures_handle (ensures_mono (start_gated (noClasspath options rfl)) ?_)
    rintro (thrown | finished) t₂ -
    · exact ensures_mono (plain_passes (startupFailed_plain options thrown)) fun _ _ _ => trivial
    · exact trivial

/-- The launch gate: without `--classpath`, a client is started only on files
    that were verified against a bootstrap with a good signature. -/
theorem launch_gate {args : List String} {t : World} {launch : Launch} (unforked : ∀ options,
      library.parse (declaredOptions (getOs host.machine)) (parseApplicationURI args) = .ok options →
        options.has "classpath" = false)
    (starts : Calls (Reacts library.sha256 locate) (main library host args) w (.startClient launch) t) :
    Gated library host locate launch t :=
  ensures_calls (main_gated unforked) starts launch rfl

end

private def sampleArtifact : Artifact where
  name := some "client.jar"
  hash := some "e3b0c44298fc1c149afbf4c8996fb92427ae41e4649b934ca495991b7852b855"

private def sampleLibrary : Library where
  sha256 _ := "e3b0c44298fc1c149afbf4c8996fb92427ae41e4649b934ca495991b7852b855"
  verifySignature _ _ := .ok true
  fromJson _ := .ok (some { artifacts := some [some sampleArtifact] })
  parse _ args := .ok { nonOptionArguments := args }
  parseDouble _ := none
  showDouble _ := "1.0"

private def sampleWorld : World where
  files path := if path = "client.jar" then some (.file []) else none

/-- The sample is started in `REFLECT` mode, after fourteen operations. -/
private theorem sample_started : ∃ next,
    (advance (calm sampleLibrary.sha256 (fun _ => []) ["client.jar"]) 14 (main sampleLibrary sampleHost []) sampleWorld).1 =
      .call (.startClient ⟨.REFLECT,["client.jar"],[]⟩) next := ⟨_,rfl⟩

theorem launch_gate_sample : ∃ launch t, launch.classpath = ["client.jar"] ∧
    Gated sampleLibrary sampleHost id launch t := by
  obtain ⟨next,started⟩ := sample_started
  refine ⟨_,_,rfl,@launch_gate sampleLibrary sampleHost id sampleWorld [] _ _ ?_ (advance_calls (calm_reacts _ _ _) started)⟩
  rintro options same
  cases same
  rfl

end OpenRune.Startup
