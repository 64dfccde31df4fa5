import OpenRune.SelfUpdate

/-!
# The update gate

No installer is started and no bundle is removed but for an update that every
check has let through, with the bytes that were announced. The checks of the two
platforms decide alike.
-/
namespace OpenRune.UpdateGate
open OpenRune.Java OpenRune.Beans OpenRune.Updates OpenRune.Settings OpenRune.Programs OpenRune.Downloads
  OpenRune.Launchers OpenRune.Trees OpenRune.SelfUpdate
open OpenRune.Operations (Bytes overwrite overwrite_end)

/-! ## Looking -/

/-- Operations that only look. -/
def Op.looks : Op → Prop
  | .fileExists _ | .regQueryString | .processCommand | .loadSettings | .now | .currentTimeMillis | .tasklist
  | .installId | .random | .connect _ | .stage _ _ _ => True
  | _ => False

/-- Operations that only look at the system, the command of the process aside. -/
def Op.reads : Op → Prop
  | .fileExists _ | .regQueryString | .loadSettings | .now | .currentTimeMillis | .tasklist | .installId | .random => True
  | _ => False

/-- Operations after which no installer runs and no bundle is gone. -/
def Op.harmless : Op → Prop
  | .startInstaller _ _ | .startAttach _ | .delete _ => False
  | _ => True

theorem only_ask {allowed : Op → Prop} {op : Op} (ok : allowed op) :
    @Only updater Thrown _ allowed (ask op) := only_perform ok

theorem reads_looks (op : Op) (reads : Op.reads op) : Op.looks op := by
  cases op <;> first | exact trivial | exact reads.elim

section
variable {app : Path} {inputs : Inputs} {w : World}

theorem reacts_looks {op : Op} {w' : World} {reply : Reply op} (reacts : Reacts app inputs op w reply w')
    (looks : Op.looks op) : w' = w := by
  cases op with
  | fileExists path | regQueryString | processCommand | connect url | stage name completed size => exact reacts
  | loadSettings | now | currentTimeMillis | tasklist | installId | random => exact reacts.2
  | _ => exact looks.elim

theorem ends_looks {α : Type} {p : Updating α} (only : Only Op.looks p) :
    Ends (Reacts app inputs) p (fun _ t => t = w) w := by
  refine ensures_only only rfl (fun _ _ _ _ => trivial) ?_
  rintro op t reply u looks rfl reacts
  exact reacts_looks reacts looks

theorem getCurrentJavaProcessCommand_reads (host : Surroundings) :
    Only Op.reads (getCurrentJavaProcessCommand host) := by
  unfold getCurrentJavaProcessCommand
  split
  · exact only_pure _
  · exact only_bind (only_ofOutcome _) fun _ => only_bind (only_ask trivial) fun _ => only_pure _

theorem getInstallLocation_reads : Only Op.reads getInstallLocation := by
  refine only_bind (only_ask trivial) fun reply => ?_
  split
  · exact only_pure _
  · split
    · exact only_pure _
    · exact only_throw _

theorem checkWindows_reads (host : Surroundings) : Only Op.reads (checkWindows host) := by
  refine only_bind (getCurrentJavaProcessCommand_reads host) fun currentCommand => ?_
  dsimp only
  split
  · exact only_pure _
  · refine only_bind getInstallLocation_reads fun location => ?_
    split
    · exact only_pure _
    · exact only_ofOutcome _

theorem checkMacos_looks (host : Surroundings) : Only Op.looks (checkMacos host) := by
  refine only_bind (only_ask trivial) fun reply => ?_
  split
  · split
    · exact only_pure _
    · exact only_throw _
  · split
    · exact only_pure _
    · exact only_ofOutcome _

theorem isAnotherLauncherProcessRunning_reads (properties : LauncherProperties) :
    Only Op.reads (isAnotherLauncherProcessRunning properties) := by
  refine only_bind (only_ask trivial) fun reply => ?_
  split
  · split
    · exact only_pure _
    · exact only_throw _
  · exact only_pure _

/-! ## The offer -/

/-- Whether an update is in its backoff window. -/
def backedOff (settings : LauncherSettings) (update : Update) (now : Int) : Except Thrown Bool := do
  let hash ← deref update.hash
  return decide (some hash = settings.lastUpdateHash) && isRecent settings now

/-- The update that passes the checks, with the stored settings. -/
def offer (host : Surroundings) (bootstrap : Bootstrap) (launcherSettings stored : LauncherSettings) (now : Int) :
    Except Thrown (Option (Update × LauncherSettings)) := do
  match ← findAvailableUpdate host.machine (some host.properties.version) bootstrap with
  | none => return none
  | some newestUpdate =>
    if launcherSettings.noupdates then return none
    else if host.upgrade.isSome then return none
    else if ← backedOff stored newestUpdate now then return none
    else return some (newestUpdate,stored)

theorem backoffWindows_spec (settings : LauncherSettings) (update : Update) :
    Ends (Reacts app inputs) (backoffWindows settings update)
      (fun outcome t => outcome = backedOff settings update inputs.now ∧ t = w) w := by
  unfold backoffWindows backedOff
  cases update.hash with
  | none => exact ⟨rfl,rfl⟩
  | some hash =>
    refine ensures_outcome ?_ fun thrown failed => by cases failed
    rintro found ⟨⟩
    by_cases same : some hash = settings.lastUpdateHash
    · rw [if_pos same]
      refine ensures_perform trivial ?_
      rintro reply t ⟨rfl,rfl⟩
      refine ⟨?_,rfl⟩
      rw [deref_some,ok_bind,decide_eq_true same]
      rfl
    · rw [if_neg same]
      exact ⟨by simp [same],rfl⟩

theorem backoffMacos_spec (settings : LauncherSettings) (update : Update) :
    Ends (Reacts app inputs) (backoffMacos settings update)
      (fun outcome t => outcome = backedOff settings update inputs.now ∧ t = w) w := by
  refine ensures_perform trivial ?_
  rintro reply t ⟨rfl,rfl⟩
  unfold backedOff
  cases update.hash with
  | none => exact ⟨rfl,rfl⟩
  | some hash => exact ⟨rfl,rfl⟩

theorem offerWith_spec {backoff : LauncherSettings → Update → Updating Bool} {host : Surroundings}
    {bootstrap : Bootstrap} {launcherSettings : LauncherSettings}
    (decides : ∀ settings update, Ends (Reacts app inputs) (backoff settings update)
      (fun outcome t => outcome = backedOff settings update inputs.now ∧ t = w) w) :
    Ends (Reacts app inputs) (offerWith backoff host bootstrap launcherSettings) (fun outcome t =>
      outcome = offer host bootstrap launcherSettings w.stored inputs.now ∧ t = w) w := by
  unfold offerWith offer
  cases findAvailableUpdate host.machine (some host.properties.version) bootstrap with
  | error thrown => exact ⟨rfl,rfl⟩
  | ok found =>
    cases found with
    | none => exact ⟨rfl,rfl⟩
    | some newestUpdate =>
      refine ensures_outcome ?_ fun thrown failed => by cases failed
      rintro chosen ⟨⟩
      simp only [ok_bind]
      by_cases noupdates : launcherSettings.noupdates
      · rw [if_pos noupdates,if_pos noupdates]
        exact ⟨rfl,rfl⟩
      rw [if_neg noupdates,if_neg noupdates]
      by_cases upgrade : host.upgrade.isSome
      · rw [if_pos upgrade,if_pos upgrade]
        exact ⟨rfl,rfl⟩
      rw [if_neg upgrade,if_neg upgrade]
      refine ensures_perform trivial ?_
      rintro stored t ⟨rfl,rfl⟩
      refine ensures_bind (ensures_mono (decides t.stored newestUpdate) ?_)
      rintro outcome u ⟨rfl,rfl⟩
      cases backedOff u.stored newestUpdate inputs.now with
      | error thrown => exact ⟨rfl,rfl⟩
      | ok recent => cases recent <;> exact ⟨rfl,rfl⟩

theorem backoffWindows_reads (settings : LauncherSettings) (update : Update) :
    Only Op.reads (backoffWindows settings update) := by
  refine only_bind (only_ofOutcome _) fun hash => ?_
  split
  · exact only_bind (only_ask trivial) fun _ => only_pure _
  · exact only_pure _

theorem backoffMacos_reads (settings : LauncherSettings) (update : Update) :
    Only Op.reads (backoffMacos settings update) :=
  only_bind (only_ask trivial) fun _ => only_bind (only_ofOutcome _) fun _ => only_pure _

theorem offerWith_only {allowed : Op → Prop} {backoff : LauncherSettings → Update → Updating Bool} (host : Surroundings)
    (bootstrap : Bootstrap) (launcherSettings : LauncherSettings) (loads : allowed .loadSettings)
    (only : ∀ settings update, Only allowed (backoff settings update)) :
    Only allowed (offerWith backoff host bootstrap launcherSettings) := by
  refine only_bind (only_ofOutcome _) fun found => ?_
  split
  · exact only_pure _
  · split
    · exact only_pure _
    · split
      · exact only_pure _
      · refine only_bind (only_ask loads) fun settings => only_bind (only settings _) fun recent => ?_
        split
        · exact only_pure _
        · exact only_pure _

/-! ## The rollout -/

/-- What `installRollout` returns. -/
def shareOf (toShare : Int → Double) (inputs : Inputs) : Double :=
  match inputs.installId with
  | .ok (some line) => ((parseInt (Java.trim line)).map toShare).getD inputs.random
  | _ => inputs.random

theorem random_spec : Ends (Reacts app inputs) SelfUpdate.random (fun outcome t =>
    (∀ share, outcome = .ok share → share = inputs.random) ∧ t = w) w := by
  refine ⟨trivial,?_⟩
  rintro reply t ⟨rfl,rfl⟩
  refine ⟨?_,rfl⟩
  rintro share ⟨⟩
  rfl

theorem installRollout_spec (toShare : Int → Double) : Ends (Reacts app inputs) (installRollout toShare)
    (fun outcome t => (∀ share, outcome = .ok share → share = shareOf toShare inputs) ∧ t = w) w := by
  refine ensures_perform trivial ?_
  rintro reply t ⟨rfl,rfl⟩
  unfold shareOf
  cases inputs.installId with
  | error thrown =>
    dsimp only
    split
    · exact random_spec
    · exact ⟨nofun,rfl⟩
  | ok line =>
    cases line with
    | none => exact random_spec
    | some line =>
      dsimp only
      cases parseInt (Java.trim line) with
      | none => exact random_spec
      | some i => exact ⟨fun share same => (Except.ok.inj same).symm,rfl⟩

theorem installRollout_reads (toShare : Int → Double) : Only Op.reads (installRollout toShare) := by
  refine only_bind (only_ask trivial) fun reply => ?_
  split
  · split
    · exact only_pure _
    · exact only_ask trivial
  · exact only_ask trivial
  · split
    · exact only_ask trivial
    · exact only_throw _

theorem heldBack_only {allowed : Op → Prop} {rollout : Double} {share : Updating Double} (only : Only allowed share) :
    Only allowed (heldBack rollout share) := by
  unfold heldBack
  split
  · exact only_bind only fun _ => only_pure _
  · exact only_pure _

/-- Held back or not, nothing changes; an update that is not held back passes the rollout check. -/
theorem heldBack_spec {rollout value : Double} {share : Updating Double} (shares : Ends (Reacts app inputs) share
      (fun outcome t => (∀ given, outcome = .ok given → given = value) ∧ t = w) w) :
    Ends (Reacts app inputs) (heldBack rollout share) (fun outcome t =>
      (outcome = .ok false → rollout.gt (.finite 0) = true → value.gt rollout = false) ∧ t = w) w := by
  unfold heldBack
  by_cases positive : rollout.gt (.finite 0)
  · rw [if_pos positive]
    refine ensures_bind (ensures_mono shares ?_)
    rintro (thrown | given) t ⟨same,rfl⟩
    · exact ⟨nofun,rfl⟩
    · obtain rfl := same given rfl
      exact ⟨fun passes _ => Except.ok.inj passes,rfl⟩
  · rw [if_neg positive]
    exact ⟨fun _ set => absurd set positive,rfl⟩

/-! ## Checks, and then the attempt -/

/-- The attempt is recorded before the installation. -/
def attempting (checks : Updating (Option (Update × LauncherSettings))) (install : Update → Updating Unit) :
    Updating Unit := do
  match ← checks with
  | none => return ()
  | some (newestUpdate,settings) =>
    markAttempt settings newestUpdate
    install newestUpdate

def checksWindows (host : Surroundings) (bootstrap : Bootstrap) (launcherSettings : LauncherSettings) :
    Updating (Option (Update × LauncherSettings)) := do
  if ← checkWindows host then
    match ← offerWindows host bootstrap launcherSettings with
    | none => return none
    | some (newestUpdate,settings) =>
      if ← isAnotherLauncherProcessRunning host.properties then return none
      else if ← heldBack newestUpdate.rollout (installRollout host.toShare) then return none
      else return some (newestUpdate,settings)
  else return none

/-- The checks of `updateMacos` after those of the installation. -/
def checksMacos (host : Surroundings) (bootstrap : Bootstrap) (launcherSettings : LauncherSettings) :
    Updating (Option (Update × LauncherSettings)) := do
  match ← offerMacos host bootstrap launcherSettings with
  | none => return none
  | some (newestUpdate,settings) =>
    if ← heldBack newestUpdate.rollout random then return none
    else return some (newestUpdate,settings)

section
variable (sha256 : Bytes → String) (host : Surroundings) (bootstrap : Bootstrap) (launcherSettings : LauncherSettings)
  (args : List String)

theorem updateWindows_attempting : updateWindows sha256 host bootstrap launcherSettings args =
    attempting (checksWindows host bootstrap launcherSettings) fun newestUpdate =>
      tryCatch (runInstaller sha256 host newestUpdate args) fun thrown =>
        if thrown.isIOException then return () else throw thrown := by
  unfold updateWindows attempting checksWindows
  rw [LawfulMonad.bind_assoc]
  refine bind_congr fun installed => ?_
  cases installed with
  | false => rfl
  | true =>
    simp only [if_true]
    rw [LawfulMonad.bind_assoc]
    refine bind_congr fun offered => ?_
    cases offered with
    | none => rfl
    | some both =>
      obtain ⟨newestUpdate,settings⟩ := both
      dsimp only
      rw [LawfulMonad.bind_assoc]
      refine bind_congr fun another => ?_
      cases another with
      | true => rfl
      | false =>
        simp only [Bool.false_eq_true,if_false]
        rw [LawfulMonad.bind_assoc]
        refine bind_congr fun held => ?_
        cases held <;> rfl

theorem updateMacos_attempting : updateMacos sha256 host bootstrap launcherSettings args = (do
    match ← checkMacos host with
    | none => return ()
    | some path =>
      attempting (checksMacos host bootstrap launcherSettings) fun newestUpdate =>
        tryCatch (installImage sha256 host path newestUpdate args) fun thrown =>
          if thrown.isException then return () else throw thrown) := by
  unfold updateMacos attempting checksMacos
  refine bind_congr fun installed => ?_
  cases installed with
  | none => rfl
  | some path =>
    dsimp only
    rw [LawfulMonad.bind_assoc]
    refine bind_congr fun offered => ?_
    cases offered with
    | none => rfl
    | some both =>
      obtain ⟨newestUpdate,settings⟩ := both
      dsimp only
      rw [LawfulMonad.bind_assoc]
      refine bind_congr fun held => ?_
      cases held <;> rfl

theorem checksWindows_reads : Only Op.reads (checksWindows host bootstrap launcherSettings) := by
  refine only_bind (checkWindows_reads host) fun installed => ?_
  split
  · refine only_bind (offerWith_only host bootstrap launcherSettings trivial backoffWindows_reads) fun offered => ?_
    split
    · exact only_pure _
    · refine only_bind (isAnotherLauncherProcessRunning_reads host.properties) fun another => ?_
      split
      · exact only_pure _
      · refine only_bind (heldBack_only (installRollout_reads host.toShare)) fun held => ?_
        split <;> exact only_pure _
  · exact only_pure _

theorem checksMacos_reads : Only Op.reads (checksMacos host bootstrap launcherSettings) := by
  refine only_bind (offerWith_only host bootstrap launcherSettings trivial backoffMacos_reads) fun offered => ?_
  split
  · exact only_pure _
  · refine only_bind (heldBack_only (only_ask trivial)) fun held => ?_
    split <;> exact only_pure _

end

/-! ## The download -/

/-- The temporary file holds the bytes that the update announces. -/
def Announced (sha256 : Bytes → String) (update : Update) (file : String) (t : World) : Prop :=
  ∃ bytes, t.temp file = some bytes ∧ update.hash = some (sha256 bytes)

/-- Operations on the temporary file, and on the connection. -/
def Op.fetches : Op → Prop
  | .createTempFile _ | .newOutputStream _ | .write _ _ _ | .connect _ | .stage _ _ _ | .deleteTempFile _ => True
  | _ => False

theorem fetches_harmless (op : Op) (fetches : Op.fetches op) : Op.harmless op := by
  cases op with
  | startInstaller command environment | startAttach file | delete path => exact fetches.elim
  | _ => exact trivial

theorem fetch_fetches (sha256 : Bytes → String) (suffix : String) (update : Update) :
    Only Op.fetches (fetch sha256 suffix update) := by
  refine only_bind (only_ask trivial) fun _ => only_bind (only_ofOutcome _) fun file => ?_
  refine only_bind (only_ask trivial) fun _ => only_bind (only_ofOutcome _) fun _ => ?_
  refine only_bind (only_attempt (downloadTo_only (only_ask trivial) (fun _ => only_ask trivial) ?_)) ?_
  · exact fun _ _ => only_bind (only_ask trivial) fun _ => only_ofOutcome _
  · intro outcome
    split
    · exact only_pure _
    · exact only_bind (only_ask trivial) fun _ => only_pure _
    · exact only_throw _

theorem writeTemp_spec {file : String} {sofar : Bytes} (buffer : Bytes) (held : w.temp file = some sofar) :
    Ends (Reacts app inputs) (writeTemp file sofar.length buffer) (fun outcome t =>
      outcome = .ok () → t.temp file = some (sofar ++ buffer)) w := by
  refine ensures_perform trivial ?_
  rintro reply t (⟨rfl,rfl⟩ | ⟨⟨thrown,rfl⟩,-⟩)
  · intro _
    simp [held,overwrite_end]
  · exact nofun

theorem fetch_spec (sha256 : Bytes → String) (suffix : String) (update : Update) :
    Ends (Reacts app inputs) (fetch sha256 suffix update) (fun outcome t =>
      ∀ file, outcome = .ok (some file) → Announced sha256 update file t) w := by
  refine ensures_perform trivial fun created t first => ensures_outcome (fun file given => ?_) fun _ _ => nofun
  refine ensures_perform trivial fun opened u second => ensures_outcome (fun _ ok => ?_) fun _ _ => nofun
  have emptied : u.temp file = some [] := by
    rcases second with ⟨-,rfl⟩ | ⟨⟨thrown,failed⟩,-⟩
    · simp
    · rw [failed] at ok
      cases ok
  refine ensures_attempt (ensures_mono (@downloadTo_spec _ _ sha256 _ update.hash _ _ _ _
    (fun bytes v => v.temp file = some bytes) _ ?_ ?_ ?_) ?_)
  · refine ⟨trivial,?_⟩
    rintro reply v rfl
    exact emptied
  · intro sofar buffer v held
    exact writeTemp_spec buffer held
  · intro completed sofar v held
    refine ⟨trivial,?_⟩
    rintro reply x rfl
    exact held
  · intro outcome v announced
    split
    · rintro found ⟨⟩
      obtain ⟨hashed,held⟩ := announced _ rfl
      exact ⟨_,held,hashed⟩
    · exact ⟨trivial,fun _ _ _ => nofun⟩
    · exact nofun

/-! ## The gate -/

/-- The checks that an update passes before it is recorded as attempted. -/
structure Passed (host : Surroundings) (bootstrap : Bootstrap) (launcherSettings stored : LauncherSettings)
    (inputs : Inputs) (share : Double) (update : Update) : Prop where
  available : findAvailableUpdate host.machine (some host.properties.version) bootstrap = .ok (some update)
  wanted : launcherSettings.noupdates = false
  noUpgrade : host.upgrade = none
  noBackoff : backedOff stored update inputs.now = .ok false
  rolledOut : update.rollout.gt (.finite 0) = true → share.gt update.rollout = false

/-- An update that may be installed from a file. -/
def Allowed (sha256 : Bytes → String) (host : Surroundings) (bootstrap : Bootstrap)
    (launcherSettings stored : LauncherSettings) (inputs : Inputs) (share : Double) (file : String) (t : World) : Prop :=
  ∃ update, Passed host bootstrap launcherSettings stored inputs share update ∧ Announced sha256 update file t

/-- What may start the installer, attach an image, and delete files. -/
def gate (paths : Paths) (allowed : String → World → Prop) : Op → World → Prop
  | .startInstaller command _, t => ∃ file, command = [paths.toAbsolutePath file,"/SILENT"] ∧ allowed file t
  | .startAttach file, t => allowed file t
  | .delete _, t => ∃ file, allowed file t
  | _, _ => True

theorem gate_harmless {paths : Paths} {allowed : String → World → Prop} {op : Op} {t : World}
    (harmless : Op.harmless op) : gate paths allowed op t := by
  cases op with
  | startInstaller command environment | startAttach file | delete path => exact harmless.elim
  | _ => exact trivial

theorem looks_harmless (op : Op) (looks : Op.looks op) : Op.harmless op := by
  cases op with
  | startInstaller command environment | startAttach file | delete path => exact looks.elim
  | _ => exact trivial

section
variable {paths : Paths} {allowed : String → World → Prop}

theorem passes_harmless {α : Type} {p : Updating α} (only : Only Op.harmless p) :
    Ensures (Reacts app inputs) (gate paths allowed) p (fun _ _ => True) w :=
  ensures_only only trivial (fun _ _ harmless _ => gate_harmless harmless) fun _ _ _ _ _ _ _ => trivial

theorem passes_spec {α : Type} {p : Updating α} {post : Except Thrown α → World → Prop} (only : Only Op.harmless p)
    (ends : Ends (Reacts app inputs) p post w) : Ensures (Reacts app inputs) (gate paths allowed) p post w :=
  ensures_mono (ensures_and ends (passes_harmless only)) fun _ _ both => both.1

end

theorem offer_some {host : Surroundings} {bootstrap : Bootstrap} {launcherSettings stored settings : LauncherSettings}
    {now : Int} {update : Update} (offered : offer host bootstrap launcherSettings stored now = .ok (some (update,settings))) :
    settings = stored ∧ findAvailableUpdate host.machine (some host.properties.version) bootstrap = .ok (some update) ∧
      launcherSettings.noupdates = false ∧ host.upgrade = none ∧ backedOff stored update now = .ok false := by
  unfold offer at offered
  cases found : findAvailableUpdate host.machine (some host.properties.version) bootstrap with
  | error thrown => simp [found] at offered
  | ok newest =>
    cases newest with
    | none => simp [found] at offered
    | some newestUpdate =>
      simp only [found,ok_bind] at offered
      by_cases noupdates : launcherSettings.noupdates
      · simp [noupdates] at offered
      by_cases upgrade : host.upgrade.isSome
      · simp [noupdates,upgrade] at offered
      cases recent : backedOff stored newestUpdate now with
      | error thrown => simp [noupdates,upgrade,recent] at offered
      | ok recent' =>
        cases recent' with
        | true => simp [noupdates,upgrade,recent] at offered
        | false =>
          simp only [noupdates,upgrade,recent,ok_bind,if_false,Bool.false_eq_true,pure_ok,Except.ok.injEq,
            Option.some.injEq,Prod.mk.injEq] at offered
          obtain ⟨rfl,rfl⟩ := offered
          exact ⟨rfl,rfl,by simpa using noupdates,by simpa using upgrade,recent⟩

/-- What can be installed from its file: a temporary file changes only while it is fetched. -/
def Op.replaces : Op → Prop
  | .waitFor | .destroy | .exitValue | .plist | .tree _ | .visit _ | .delete _ | .copy _ _ | .isDirectory _
  | .startDetach _ | .relaunch _ _ => True
  | _ => False

/-- The steps of a walk. -/
def Op.walks : Op → Prop
  | .tree _ | .visit _ | .delete _ | .copy _ _ => True
  | _ => False

/-- What one operation can change: the settings, the temporary files, the files
    along a walk, the mounted image, or at most what is known of `hdiutil`. -/
theorem reacts_cases {op : Op} {w' : World} {reply : Reply op} (reacts : Reacts app inputs op w reply w') :
    ((∃ settings, op = .saveSettings settings) ∧ ∃ stored saved, w' = { w with stored := stored, saved := saved }) ∨
    (Op.fetches op ∧ ∃ temp, w' = { w with temp := temp }) ∨
    (Op.walks op ∧ ∃ files failed, w' = { w with files := files, failed := failed }) ∨
    (∃ files mounted, Spares app w.files files ∧ w' = { w with files := files, mounted := mounted }) ∨
    ∃ exitValue plist, w' = { w with exitValue := exitValue, plist := plist } := by
  by_cases looks : Op.looks op
  · obtain rfl := reacts_looks reacts looks
    exact .inr (.inr (.inr (.inr ⟨_,_,rfl⟩)))
  cases op with
  | saveSettings settings => rcases reacts with ⟨-,rfl | rfl⟩ | ⟨-,rfl⟩ <;> exact .inl ⟨⟨_,rfl⟩,_,_,rfl⟩
  | createTempFile suffix =>
    cases reply with
    | ok file =>
      obtain ⟨-,rfl⟩ := reacts
      exact .inr (.inl ⟨trivial,_,rfl⟩)
    | error thrown =>
      obtain rfl : w' = w := reacts
      exact .inr (.inl ⟨trivial,_,rfl⟩)
  | newOutputStream file => rcases reacts with ⟨-,rfl⟩ | ⟨-,rfl⟩ <;> exact .inr (.inl ⟨trivial,_,rfl⟩)
  | write file position buffer => rcases reacts with ⟨-,rfl⟩ | ⟨-,n,rfl⟩ <;> exact .inr (.inl ⟨trivial,_,rfl⟩)
  | deleteTempFile file =>
    obtain ⟨gone,rfl⟩ : ∃ gone : Bool, w' = if gone = true then { w with temp := Function.update w.temp file none } else w :=
      ⟨reply,reacts⟩
    split <;> exact .inr (.inl ⟨trivial,_,rfl⟩)
  | tree root => exact .inr (.inr (.inl ⟨trivial,_,_,reacts.2⟩))
  | visit path => exact .inr (.inr (.inl ⟨trivial,_,_,reacts⟩))
  | delete path => rcases reacts with ⟨-,-,rfl⟩ | ⟨-,rfl⟩ <;> exact .inr (.inr (.inl ⟨trivial,_,_,rfl⟩))
  | copy source target =>
    rcases reacts with ⟨-,parent,name,node,-,-,-,-,rfl⟩ | ⟨-,files,-,rfl⟩ <;>
      exact .inr (.inr (.inl ⟨trivial,_,_,rfl⟩))
  | waitFor | startDetach mountPoint =>
    obtain ⟨files,spares,rfl⟩ := reacts
    exact .inr (.inr (.inr (.inl ⟨_,_,spares,rfl⟩)))
  | plist => exact .inr (.inr (.inr (.inr ⟨_,_,reacts⟩)))
  | exitValue => exact .inr (.inr (.inr (.inr ⟨_,_,reacts⟩)))
  | isDirectory path => exact .inr (.inr (.inr (.inr ⟨_,_,reacts.1⟩)))
  | startInstaller command environment | startAttach file | destroy | relaunch command environment =>
    exact .inr (.inr (.inr (.inr ⟨_,_,reacts⟩)))
  | _ => exact absurd trivial looks

theorem reacts_temp {op : Op} {w' : World} {reply : Reply op} (reacts : Reacts app inputs op w reply w')
    (replaces : Op.replaces op) : w'.temp = w.temp := by
  rcases reacts_cases reacts with ⟨⟨settings,rfl⟩,-⟩ | ⟨fetches,-⟩ | ⟨-,files,failed,rfl⟩ | ⟨files,mounted,-,rfl⟩ | ⟨exitValue,plist,rfl⟩
  · exact replaces.elim
  · cases op <;> first | exact replaces.elim | exact fetches.elim
  · rfl
  · rfl
  · rfl

theorem walkFileTree_replaces {visitor : Event Leaf → Updating Unit} (root : Path)
    (visits : ∀ event, Only Op.replaces (visitor event)) : Only Op.replaces (walkFileTree root visitor) := by
  refine only_bind (only_ask trivial) fun entry => ?_
  split
  · exact only_throw _
  · refine only_forM (fun event => ?_) _
    unfold visitEvent
    split
    · exact visits _
    · exact only_bind (only_ask trivial) fun _ => only_bind (only_ofOutcome _) fun _ => visits event

theorem delete_replaces (directory : Path) : Only Op.replaces (delete directory) := by
  refine walkFileTree_replaces directory fun event => ?_
  cases event with
  | preVisitDirectory path => exact only_pure _
  | visitFile path leaf => exact only_bind (only_ask trivial) fun _ => only_ofOutcome _
  | postVisitDirectory path => exact only_bind (only_ask trivial) fun _ => only_ofOutcome _

theorem copy_replaces (source target : Path) : Only Op.replaces (copy source target) := by
  refine walkFileTree_replaces source fun event => ?_
  cases event with
  | preVisitDirectory path =>
    refine only_bind (only_ask trivial) fun reply => ?_
    split
    · exact only_pure _
    · refine only_bind (only_ask trivial) fun there => ?_
      split
      · exact only_pure _
      · exact only_throw _
    · exact only_throw _
  | visitFile path leaf =>
    refine only_bind (only_ask trivial) fun reply => ?_
    split
    · exact only_pure _
    · exact only_throw _
    · exact only_throw _
  | postVisitDirectory path => exact only_pure _

theorem replaceApp_replaces (host : Surroundings) (path : String) (mountPoint : Option String) (args : List String) :
    Only Op.replaces (replaceApp host path mountPoint args) := by
  refine only_bind (delete_replaces _) fun _ => only_bind (only_ofOutcome _) fun source => ?_
  refine only_bind (copy_replaces _ _) fun _ => only_bind (only_ofOutcome _) fun _ => ?_
  refine only_bind (only_ask trivial) fun _ => only_bind (only_ofOutcome _) fun _ => ?_
  exact only_bind (only_ask trivial) fun _ => only_bind (only_ofOutcome _) fun _ => only_throw _

theorem waitForImage_replaces : Only Op.replaces waitForImage := by
  refine only_bind (only_ask trivial) fun waited => only_bind (only_ofOutcome _) fun ended => ?_
  split
  · exact only_bind (only_ask trivial) fun _ => only_pure _
  · exact only_bind (only_ask trivial) fun _ => only_pure _

section
variable {sha256 : Bytes → String} {host : Surroundings} {bootstrap : Bootstrap}
  {launcherSettings stored : LauncherSettings} {args : List String} {share : Double} {update : Update}

/-- What the checks have found out of the update that they let through. -/
def Checked (host : Surroundings) (bootstrap : Bootstrap) (launcherSettings stored : LauncherSettings) (inputs : Inputs)
    (share : Double) : Except Thrown (Option (Update × LauncherSettings)) → Prop
  | .ok (some (newestUpdate,settings)) =>
    settings = stored ∧ Passed host bootstrap launcherSettings stored inputs share newestUpdate
  | _ => True

theorem checksWindows_spec : Ends (Reacts app inputs) (checksWindows host bootstrap launcherSettings) (fun outcome t =>
    Checked host bootstrap launcherSettings w.stored inputs (shareOf host.toShare inputs) outcome ∧ t = w) w := by
  refine ensures_bind (ensures_mono (ends_looks (only_mono (checkWindows_reads host) reads_looks)) ?_)
  rintro (thrown | installed) t rfl
  · exact ⟨trivial,rfl⟩
  cases installed with
  | false => exact ⟨trivial,rfl⟩
  | true =>
    refine ensures_bind (ensures_mono (offerWith_spec backoffWindows_spec) ?_)
    rintro (thrown | offered) u ⟨same,rfl⟩
    · exact ⟨trivial,rfl⟩
    cases offered with
    | none => exact ⟨trivial,rfl⟩
    | some both =>
      obtain ⟨newestUpdate,settings⟩ := both
      obtain ⟨rfl,available,wanted,noUpgrade,noBackoff⟩ := offer_some same.symm
      have running := only_mono (isAnotherLauncherProcessRunning_reads host.properties) reads_looks
      refine ensures_bind (ensures_mono (ends_looks running) ?_)
      rintro (thrown | another) v rfl
      · exact ⟨trivial,rfl⟩
      cases another with
      | true => exact ⟨trivial,rfl⟩
      | false =>
        refine ensures_bind (ensures_mono (heldBack_spec (installRollout_spec host.toShare)) ?_)
        rintro (thrown | held) x ⟨rolledOut,rfl⟩
        · exact ⟨trivial,rfl⟩
        cases held with
        | true => exact ⟨trivial,rfl⟩
        | false => exact ⟨⟨rfl,available,wanted,noUpgrade,noBackoff,rolledOut rfl⟩,rfl⟩

theorem checksMacos_spec : Ends (Reacts app inputs) (checksMacos host bootstrap launcherSettings) (fun outcome t =>
    Checked host bootstrap launcherSettings w.stored inputs inputs.random outcome ∧ t = w) w := by
  refine ensures_bind (ensures_mono (offerWith_spec backoffMacos_spec) ?_)
  rintro (thrown | offered) u ⟨same,rfl⟩
  · exact ⟨trivial,rfl⟩
  cases offered with
  | none => exact ⟨trivial,rfl⟩
  | some both =>
    obtain ⟨newestUpdate,settings⟩ := both
    obtain ⟨rfl,available,wanted,noUpgrade,noBackoff⟩ := offer_some same.symm
    refine ensures_bind (ensures_mono (heldBack_spec random_spec) ?_)
    rintro (thrown | held) x ⟨rolledOut,rfl⟩
    · exact ⟨trivial,rfl⟩
    cases held with
    | true => exact ⟨trivial,rfl⟩
    | false => exact ⟨⟨rfl,available,wanted,noUpgrade,noBackoff,rolledOut rfl⟩,rfl⟩

/-- Marking the attempt is harmless, and nothing is installed before. -/
theorem markAttempt_passes {allowed : String → World → Prop} (settings : LauncherSettings) (update : Update) :
    Ensures (Reacts app inputs) (gate host.paths allowed) (markAttempt settings update) (fun _ _ => True) w :=
  passes_harmless (only_bind (only_ask trivial) fun _ => only_bind (only_ask trivial) fun _ => only_ofOutcome _)

theorem runInstaller_passes (passed : Passed host bootstrap launcherSettings stored inputs share update) :
    Ensures (Reacts app inputs) (gate host.paths (Allowed sha256 host bootstrap launcherSettings stored inputs share))
      (runInstaller sha256 host update args) (fun _ _ => True) w := by
  refine ensures_bind (ensures_mono (passes_spec
    (only_mono (fetch_fetches sha256 "exe" update) fetches_harmless) (fetch_spec sha256 "exe" update)) ?_)
  rintro (thrown | fetched) t announced
  · exact trivial
  cases fetched with
  | none => exact trivial
  | some file =>
    refine ensures_perform ⟨file,rfl,update,passed,announced file rfl⟩ fun started u _ => ?_
    exact ensures_outcome (fun _ _ => trivial) fun _ _ => trivial

theorem installImage_passes {path : String} (passed : Passed host bootstrap launcherSettings stored inputs share update) :
    Ensures (Reacts app inputs) (gate host.paths (Allowed sha256 host bootstrap launcherSettings stored inputs share))
      (installImage sha256 host path update args) (fun _ _ => True) w := by
  refine ensures_bind (ensures_mono (passes_spec
    (only_mono (fetch_fetches sha256 "dmg" update) fetches_harmless) (fetch_spec sha256 "dmg" update)) ?_)
  rintro (thrown | fetched) t announced
  · exact trivial
  cases fetched with
  | none => exact trivial
  | some file =>
    have allowed : Allowed sha256 host bootstrap launcherSettings stored inputs share file t :=
      ⟨update,passed,announced file rfl⟩
    have kept {α : Type} {p : Updating α} {u : World} (same : u.temp = t.temp) (only : Only Op.replaces p) :
        Ensures (Reacts app inputs) (gate host.paths (Allowed sha256 host bootstrap launcherSettings stored inputs share))
          p (fun _ v => v.temp = t.temp) u := by
      refine ensures_only only same ?_ ?_
      · intro op v replaces still
        cases op with
        | delete path =>
          obtain ⟨update,passed,bytes,held,hashed⟩ := allowed
          exact ⟨file,update,passed,bytes,by rw [still,held],hashed⟩
        | startInstaller command environment | startAttach file' => exact replaces.elim
        | _ => exact trivial
      · exact fun op v reply x replaces still reacts => (reacts_temp reacts replaces).trans still
    refine ensures_bind (ensures_perform allowed fun started u same => ensures_outcome ?_ fun _ _ => trivial)
    obtain rfl : u = t := same
    intro _ _
    refine ensures_mono (kept rfl waitForImage_replaces) ?_
    · rintro (thrown | attached) v same
      · exact trivial
      cases attached with
      | false => exact trivial
      | true =>
        refine ensures_mono (kept same ?_) fun _ _ _ => trivial
        refine only_bind (only_ask trivial) fun _ => only_bind (only_ofOutcome _) fun _ => ?_
        exact only_bind (only_ofOutcome _) fun mountPoint => replaceApp_replaces host path mountPoint args

private theorem caught_passes {p : Updating Unit} {caught : Thrown → Bool} {allowed : String → World → Prop}
    (body : Ensures (Reacts app inputs) (gate host.paths allowed) p (fun _ _ => True) w) :
    Ensures (Reacts app inputs) (gate host.paths allowed)
      (tryCatch p fun thrown => if caught thrown then return () else throw thrown) (fun _ _ => True) w := by
  refine ensures_handle (ensures_mono body ?_)
  rintro (thrown | done) t -
  · dsimp only
    split <;> exact trivial
  · exact trivial

/-- Nothing is installed before the checks, and afterwards only what has passed them. -/
theorem attempting_gate {checks : Updating (Option (Update × LauncherSettings))} {install : Update → Updating Unit}
    (reads : Only Op.reads checks) (checked : Ends (Reacts app inputs) checks (fun outcome t =>
      Checked host bootstrap launcherSettings w.stored inputs share outcome ∧ t = w) w)
    (installs : ∀ {update u}, Passed host bootstrap launcherSettings w.stored inputs share update →
      Ensures (Reacts app inputs) (gate host.paths (Allowed sha256 host bootstrap launcherSettings w.stored inputs share))
        (install update) (fun _ _ => True) u) :
    Ensures (Reacts app inputs) (gate host.paths (Allowed sha256 host bootstrap launcherSettings w.stored inputs share))
      (attempting checks install) (fun _ _ => True) w := by
  have harmless : Only Op.harmless checks := only_mono reads fun op reads => looks_harmless op (reads_looks op reads)
  refine ensures_bind (ensures_mono (passes_spec harmless checked) ?_)
  rintro (thrown | attempt) t ⟨passed,rfl⟩
  · exact trivial
  cases attempt with
  | none => exact trivial
  | some both =>
    obtain ⟨newestUpdate,settings⟩ := both
    refine ensures_bind (ensures_mono (markAttempt_passes settings newestUpdate) ?_)
    rintro (thrown | marked) u -
    · exact trivial
    · exact installs passed.2

theorem updateWindows_gate : Ensures (Reacts app inputs) (gate host.paths (Allowed sha256 host bootstrap
    launcherSettings w.stored inputs (shareOf host.toShare inputs)))
    (updateWindows sha256 host bootstrap launcherSettings args) (fun _ _ => True) w := by
  rw [updateWindows_attempting]
  exact attempting_gate (checksWindows_reads host bootstrap launcherSettings) checksWindows_spec
    fun passed => caught_passes (runInstaller_passes passed)

theorem updateMacos_gate : Ensures (Reacts app inputs) (gate host.paths (Allowed sha256 host bootstrap
    launcherSettings w.stored inputs inputs.random))
    (updateMacos sha256 host bootstrap launcherSettings args) (fun _ _ => True) w := by
  rw [updateMacos_attempting]
  have looks := checkMacos_looks host
  refine ensures_bind (ensures_mono (passes_spec (only_mono looks looks_harmless) (ends_looks looks)) ?_)
  rintro (thrown | installed) t rfl
  · exact trivial
  cases installed with
  | none => exact trivial
  | some path =>
    exact attempting_gate (checksMacos_reads host bootstrap launcherSettings) checksMacos_spec
      fun passed => caught_passes (installImage_passes passed)

end
/-- The checks have one outcome, and change nothing. -/
theorem offer_runs {host : Surroundings} {bootstrap : Bootstrap} {launcherSettings : LauncherSettings}
    {backoff : LauncherSettings → Update → Updating Bool}
    (decides : ∀ settings update, Ends (Reacts (runeliteApp host.properties) inputs) (backoff settings update)
      (fun outcome t => outcome = backedOff settings update inputs.now ∧ t = w) w)
    (outcome : Except Thrown (Option (Update × LauncherSettings))) (t : World) :
    Runs (Reacts (runeliteApp host.properties) inputs) (offerWith backoff host bootstrap launcherSettings) w outcome t ↔
      outcome = offer host bootstrap launcherSettings w.stored inputs.now ∧ t = w := by
  have decided := @offerWith_spec (runeliteApp host.properties) inputs w backoff host bootstrap launcherSettings decides
  constructor
  · exact ensures_runs decided
  · rintro ⟨rfl,rfl⟩
    have executed := execute_runs (calm_reacts host.properties inputs { serve := fun _ => [] })
      (offerWith backoff host bootstrap launcherSettings) t
    obtain ⟨same,still⟩ := ensures_runs decided executed
    rwa [same,still] at executed

/-- The update gate: on both platforms an update that is installed has passed the
    checks and is what was announced, and the checks agree. -/
theorem update_gate {sha256 : Bytes → String} {host : Surroundings} {bootstrap : Bootstrap}
    {launcherSettings : LauncherSettings} {args : List String} :
    (∀ command environment t, Calls (Reacts (runeliteApp host.properties) inputs)
        (updateWindows sha256 host bootstrap launcherSettings args) w (.startInstaller command environment) t →
      ∃ file, command = [host.paths.toAbsolutePath file,"/SILENT"] ∧
        Allowed sha256 host bootstrap launcherSettings w.stored inputs (shareOf host.toShare inputs) file t) ∧
    (∀ file t, Calls (Reacts (runeliteApp host.properties) inputs)
        (updateMacos sha256 host bootstrap launcherSettings args) w (.startAttach file) t →
      Allowed sha256 host bootstrap launcherSettings w.stored inputs inputs.random file t) ∧
    (∀ path t, Calls (Reacts (runeliteApp host.properties) inputs)
        (updateMacos sha256 host bootstrap launcherSettings args) w (.delete path) t →
      ∃ file, Allowed sha256 host bootstrap launcherSettings w.stored inputs inputs.random file t) ∧
    ∀ outcome t, Runs (Reacts (runeliteApp host.properties) inputs)
        (offerWindows host bootstrap launcherSettings) w outcome t ↔
      Runs (Reacts (runeliteApp host.properties) inputs) (offerMacos host bootstrap launcherSettings) w outcome t := by
  refine ⟨?_,?_,?_,?_⟩
  · exact fun command environment t starts => ensures_calls updateWindows_gate starts
  · exact fun file t attaches => ensures_calls updateMacos_gate attaches
  · exact fun path t deletes => ensures_calls updateMacos_gate deletes
  · intro outcome t
    exact (offer_runs backoffWindows_spec outcome t).trans (offer_runs backoffMacos_spec outcome t).symm

end

private def sampleUpdate (os : String) : Update where
  os := some os
  version := some "2.0"
  hash := some "e3b0c442"

private def sampleInputs : Inputs where
  now := 0
  currentTimeMillis := 0
  tasklist := .ok []
  installId := .ok none
  random := .finite 0

private def sampleWorld : World where
  stored := {}
  files := .directory "Applications" (.directory "OpenRune.app" .nil .nil) .nil

/-- One entity, with a mount point. -/
private def sampleDocument : Plist.Nodes :=
  .element "plist" (.element "dict" (.element "array" (.element "dict" (.element "key" (.text "mount-point" .nil)
    (.element "string" (.text "/Volumes/OpenRune" .nil) .nil)) .nil) .nil) .nil) .nil

private def sampleAnswers : Answers where
  installLocation := some "/launcher"
  command := some "/Applications/OpenRune.app/Contents/MacOS/OpenRune"
  serve _ := [0]
  document := sampleDocument

private def sampleSha (_ : Bytes) : String := "e3b0c442"

/-- Windows, with a launcher that is called like its `java.exe`. -/
private theorem sample_installs : ∃ environment next,
    (advance (calm sampleInputs sampleAnswers) 11 (updateWindows sampleSha (sampleSurroundings "java" "Windows 10")
      { updates := some [some (sampleUpdate "windows")] } {} []) sampleWorld).1 =
      .call (.startInstaller ["exe","/SILENT"] environment) next := ⟨_,_,rfl⟩

private theorem sample_attaches : ∃ next,
    (advance (calm sampleInputs sampleAnswers) 10 (updateMacos sampleSha (sampleSurroundings "OpenRune" "Mac OS X")
      { updates := some [some (sampleUpdate "macos")] } {} []) sampleWorld).1 = .call (.startAttach "dmg") next := ⟨_,rfl⟩

private theorem sample_deletes : ∃ next,
    (advance (calm sampleInputs sampleAnswers) 16 (updateMacos sampleSha (sampleSurroundings "OpenRune" "Mac OS X")
      { updates := some [some (sampleUpdate "macos")] } {} []) sampleWorld).1 =
      .call (.delete ["Applications","OpenRune.app"]) next := ⟨_,rfl⟩

theorem update_gate_sample :
    (∃ file t, Allowed sampleSha (sampleSurroundings "java" "Windows 10") { updates := some [some (sampleUpdate "windows")] } {}
      {} sampleInputs (.finite 0) file t) ∧
    (∃ t, Allowed sampleSha (sampleSurroundings "OpenRune" "Mac OS X") { updates := some [some (sampleUpdate "macos")] } {}
      {} sampleInputs (.finite 0) "dmg" t) ∧
    ∃ file t, Allowed sampleSha (sampleSurroundings "OpenRune" "Mac OS X") { updates := some [some (sampleUpdate "macos")] } {}
      {} sampleInputs (.finite 0) file t := by
  obtain ⟨_,_,installs⟩ := sample_installs
  obtain ⟨_,attaches⟩ := sample_attaches
  obtain ⟨_,deletes⟩ := sample_deletes
  refine ⟨?_,?_,?_⟩
  · obtain ⟨file,-,allowed⟩ := update_gate.1 _ _ _ (advance_calls (calm_reacts _ _ _) installs)
    exact ⟨file,_,allowed⟩
  · exact ⟨_,update_gate.2.1 _ _ (advance_calls (calm_reacts _ _ _) attaches)⟩
  · obtain ⟨file,allowed⟩ := update_gate.2.2.1 _ _ (advance_calls (calm_reacts _ _ _) deletes)
    exact ⟨file,_,allowed⟩

end OpenRune.UpdateGate
