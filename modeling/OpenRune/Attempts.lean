import OpenRune.Backoff

/-!
# What an update leaves in the settings file

What the updater records depends on the bootstrap, on what it reads of the system and
on whether updates are wanted. Of the settings that it saves only the attempt is new.
-/
namespace OpenRune.Attempts
open OpenRune.Java OpenRune.Beans OpenRune.Updates OpenRune.Settings OpenRune.Programs OpenRune.Trees
  OpenRune.SelfUpdate OpenRune.UpdateGate OpenRune.Backoff
open OpenRune.Operations (Bytes)

/-- Settings without what they tell of attempts. -/
def configuration (settings : LauncherSettings) : LauncherSettings :=
  { settings with lastUpdateAttemptTime := 0, lastUpdateHash := none, lastUpdateAttemptNum := 0 }

/-- Neither a list nor a mode is null. -/
def Complete (settings : LauncherSettings) : Prop := settings.reloaded = settings

theorem configuration_reloaded (settings : LauncherSettings) (time : Int) (hash : Option String) :
    configuration (recordAttempt settings time hash).reloaded = (configuration settings).reloaded := rfl

section
variable (host : Surroundings) (bootstrap : Bootstrap) (launcherSettings : LauncherSettings)

/-- Only whether updates are wanted counts. -/
theorem checksWindows_noupdates : checksWindows host bootstrap launcherSettings =
    checksWindows host bootstrap { noupdates := launcherSettings.noupdates } := rfl

theorem checksMacos_noupdates : checksMacos host bootstrap launcherSettings =
    checksMacos host bootstrap { noupdates := launcherSettings.noupdates } := rfl

end

/-! ## What is recorded -/

section
variable {app : Path} {inputs : Inputs} {w : World} {host : Surroundings} {bootstrap : Bootstrap}
  {launcherSettings : LauncherSettings} {checks : Updating (Option (Update × LauncherSettings))}
  {install : Update → Updating Unit}

/-- A program that saves nothing. -/
theorem keeps_stored {α : Type} {p : Updating α} (only : Only Op.keeps p) :
    Ends (Saving app inputs) p (fun _ t => t.stored = w.stored) w := by
  refine ensures_only only rfl (fun _ _ _ _ => trivial) ?_
  exact fun op t reply u keeps same reacts => (reacts_keeps reacts.1 keeps).1.trans same

theorem markAttempt_stored (settings : LauncherSettings) (update : Update) : Ends (Saving app inputs)
    (markAttempt settings update)
    (fun _ t => t.stored = (recordAttempt settings inputs.currentTimeMillis update.hash).reloaded) w := by
  refine ensures_perform trivial ?_
  rintro time t ⟨⟨rfl,rfl⟩,-⟩
  refine ensures_perform trivial ?_
  rintro reply u ⟨-,saves⟩
  exact ensures_ofOutcome (congrArg World.stored (saves _ rfl))

theorem install_stored (installs : ∀ update, Only Op.keeps (install update)) (settings : LauncherSettings) (update : Update) :
    Ends (Saving app inputs) (do markAttempt settings update; install update)
      (fun _ t => t.stored = (recordAttempt settings inputs.currentTimeMillis update.hash).reloaded) w := by
  refine ensures_bind (ensures_mono (markAttempt_stored settings update) ?_)
  rintro (thrown | marked) t recorded
  · exact recorded
  · exact ensures_mono (keeps_stored (installs update)) fun _ _ same => same.trans recorded

/-- The configuration is that of before, as it is read of what was saved. -/
def Keeps (stored stored' : LauncherSettings) : Prop :=
  stored' = stored ∨ configuration stored' = (configuration stored).reloaded

theorem attempting_keeps {share : Double} (checked : Ends (Reacts app inputs) checks (fun outcome t =>
      Checked host bootstrap launcherSettings w.stored inputs share outcome ∧ t = w) w)
    (installs : ∀ update, Only Op.keeps (install update)) :
    Ends (Saving app inputs) (attempting checks install) (fun _ t => Keeps w.stored t.stored) w := by
  refine ensures_bind (ensures_mono (ensures_env checked fun _ _ _ _ reacts => reacts.1) ?_)
  rintro (thrown | attempt) t ⟨passed,rfl⟩
  · exact .inl rfl
  cases attempt with
  | none => exact .inl rfl
  | some both =>
    obtain ⟨newestUpdate,settings⟩ := both
    obtain ⟨rfl,-⟩ := passed
    refine ensures_mono (install_stored installs t.stored newestUpdate) ?_
    intro outcome u recorded
    exact .inr (recorded ▸ configuration_reloaded _ _ _)

/-- Whatever follows the attempt, and whatever of it is caught. -/
theorem caught_keeps {p : Updating Unit} {caught : Thrown → Bool} (only : Only Op.keeps p) :
    Only Op.keeps (tryCatch p fun thrown => if caught thrown then return () else throw thrown) := by
  refine only_handle only fun thrown => ?_
  split
  · exact only_pure _
  · exact only_throw _

/-- Of the settings that are stored an update changes the attempt only. -/
theorem update_keeps (sha256 : Bytes → String) (args : List String) : Ends (Saving app inputs)
    (SelfUpdate.update sha256 host bootstrap launcherSettings args) (fun _ t => Keeps w.stored t.stored) w := by
  unfold SelfUpdate.update
  split
  · rw [updateWindows_attempting]
    exact attempting_keeps checksWindows_spec fun newestUpdate => caught_keeps (runInstaller_keeps newestUpdate)
  · rw [updateMacos_attempting]
    have looks : Ends (Saving app inputs) (checkMacos host) (fun _ t => t = w) w :=
      ensures_env (ends_looks (checkMacos_looks host)) fun _ _ _ _ reacts => reacts.1
    refine ensures_bind (ensures_mono looks ?_)
    rintro (thrown | path) t rfl
    · exact .inl rfl
    cases path with
    | none => exact .inl rfl
    | some path =>
      exact attempting_keeps checksMacos_spec fun newestUpdate => caught_keeps (installImage_keeps path newestUpdate)
  · exact .inl rfl

end

/-! ## What decides -/

/-- What the updater reads of the system besides its inputs. -/
structure Readings where
  found : String → Bool
  installLocation : Except Thrown (Option String)
  command : Except Thrown (Option String)

/-- What `checkMacos` uses of the command of the process, which shows the options too. -/
def executableOf (command : Except Thrown (Option String)) : Except Thrown (Option (Option (List Char))) :=
  command.map fun text =>
    if text.getD "" = "" then none else some (split (fun c => c == ' ') (text.getD "").toList)[0]?

/-- Surroundings in which settings are saved, with the readings. -/
def Answering (app : Path) (inputs : Inputs) (readings : Readings) : Environment updater World := fun op w reply w' =>
  Saving app inputs op w reply w' ∧ match op, reply with
    | .fileExists path, reply => reply = readings.found path
    | .regQueryString, reply => reply = readings.installLocation
    | .processCommand, reply => executableOf reply = executableOf readings.command
    | _, _ => True

/-- The answers to what is read. -/
def answer (inputs : Inputs) (readings : Readings) (stored : LauncherSettings) : (op : Op) → Reply op
  | .fileExists path => readings.found path
  | .regQueryString => readings.installLocation
  | op => (calm inputs { serve := fun _ => [] } op { stored := stored }).1

/-- The outcome of `checkMacos`. -/
def located (host : Surroundings) : Except Thrown (Option String) → Except Thrown (Option String)
  | .error thrown => if thrown.isException then .ok none else .error thrown
  | .ok command => if command.getD "" = "" then .ok none else installedMacos host (command.getD "")

/-- What the outcome of the checks leaves in the settings file. -/
def recordedAfter (inputs : Inputs) (stored : LauncherSettings) :
    Except Thrown (Option (Update × LauncherSettings)) → LauncherSettings
  | .ok (some (newestUpdate,settings)) => (recordAttempt settings inputs.currentTimeMillis newestUpdate.hash).reloaded
  | _ => stored

/-- What `update` leaves in the settings file. -/
def left (inputs : Inputs) (readings : Readings) (host : Surroundings) (bootstrap : Bootstrap) (noupdates : Bool)
    (stored : LauncherSettings) : LauncherSettings :=
  let after (checks : Updating (Option (Update × LauncherSettings))) :=
    recordedAfter inputs stored (checks.answered (answer inputs readings stored))
  match getOs host.machine with
  | .Windows => after (checksWindows host bootstrap { noupdates := noupdates })
  | .MacOS => match located host readings.command with
    | .ok (some _) => after (checksMacos host bootstrap { noupdates := noupdates })
    | _ => stored
  | _ => stored

theorem located_alike (host : Surroundings) {command command' : Except Thrown (Option String)}
    (alike : executableOf command = executableOf command') : located host command = located host command' := by
  cases command with
  | error thrown =>
    cases command' with
    | error thrown' =>
      obtain rfl : thrown = thrown' := Except.error.inj alike
      rfl
    | ok text' => cases alike
  | ok text =>
    cases command' with
    | error thrown' => cases alike
    | ok text' =>
      have same := Except.ok.inj alike
      dsimp only at same
      simp only [located]
      by_cases empty : text.getD "" = ""
      · by_cases empty' : text'.getD "" = ""
        · rw [if_pos empty,if_pos empty']
        · rw [if_pos empty,if_neg empty'] at same
          cases same
      · by_cases empty' : text'.getD "" = ""
        · rw [if_neg empty,if_pos empty'] at same
          cases same
        · rw [if_neg empty,if_neg empty'] at same
          rw [if_neg empty,if_neg empty',installedMacos,installedMacos,Option.some.inj same]

section
variable {app : Path} {inputs : Inputs} {readings : Readings} {w : World} {host : Surroundings} {bootstrap : Bootstrap}
  {launcherSettings : LauncherSettings} {checks : Updating (Option (Update × LauncherSettings))}
  {install : Update → Updating Unit}

theorem answering_reads {op : Op} {reply : Reply op} {t : World} (reads : Op.reads op)
    (answers : Answering app inputs readings op w reply t) : reply = answer inputs readings w.stored op ∧ t = w := by
  obtain ⟨⟨reacts,-⟩,read⟩ := answers
  cases op with
  | fileExists path | regQueryString => exact ⟨read,reacts⟩
  | loadSettings | now | currentTimeMillis | tasklist | installId | random => exact reacts
  | _ => exact reads.elim

theorem checkMacos_located : Ends (Answering app inputs readings) (checkMacos host)
    (fun outcome t => outcome = located host readings.command ∧ t = w) w := by
  refine ensures_perform trivial ?_
  rintro command t ⟨⟨same,-⟩,alike⟩
  obtain rfl : t = w := same
  rw [← located_alike host alike]
  cases command with
  | error thrown =>
    dsimp only [located]
    split <;> exact ⟨rfl,rfl⟩
  | ok command =>
    dsimp only [located]
    split
    · exact ⟨rfl,rfl⟩
    · exact ensures_ofOutcome ⟨rfl,rfl⟩

theorem attempting_left (reads : Only Op.reads checks) (installs : ∀ update, Only Op.keeps (install update)) :
    Ends (Answering app inputs readings) (attempting checks install) (fun _ t =>
      t.stored = recordedAfter inputs w.stored (checks.answered (answer inputs readings w.stored))) w := by
  refine ensures_bind (ensures_mono (answered_ends reads fun _ _ _ => answering_reads) ?_)
  rintro outcome t ⟨same,rfl⟩
  rw [← same]
  rcases outcome with thrown | (- | ⟨newestUpdate,settings⟩)
  · exact rfl
  · exact rfl
  · exact ensures_env (install_stored installs settings newestUpdate) fun _ _ _ _ answers => answers.1

theorem update_left (sha256 : Bytes → String) (args : List String) : Ends (Answering app inputs readings)
    (SelfUpdate.update sha256 host bootstrap launcherSettings args)
    (fun _ t => t.stored = left inputs readings host bootstrap launcherSettings.noupdates w.stored) w := by
  unfold SelfUpdate.update left
  cases getOs host.machine with
  | Windows =>
    dsimp only
    rw [updateWindows_attempting,checksWindows_noupdates]
    exact attempting_left (checksWindows_reads _ _ _) fun newestUpdate => caught_keeps (runInstaller_keeps newestUpdate)
  | MacOS =>
    dsimp only
    rw [updateMacos_attempting,checksMacos_noupdates]
    refine ensures_bind (ensures_mono checkMacos_located ?_)
    rintro outcome t ⟨same,rfl⟩
    rw [← same]
    rcases outcome with thrown | (- | path)
    · exact rfl
    · exact rfl
    · exact attempting_left (checksMacos_reads _ _ _) fun newestUpdate => caught_keeps (installImage_keeps path newestUpdate)
  | Linux | Other => exact rfl

end
end OpenRune.Attempts
