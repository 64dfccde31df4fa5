import OpenRune.Attempts
import OpenRune.FatalErrors

/-!
# Options override settings, and are not stored

`main` lets the options of the command line override the settings that it has read,
and hands them to the updater, which saves settings of its own in the middle of the
run. These are read again, and of the options only `noupdate` has a say in whether
there is an attempt to record.
-/
namespace OpenRune.Overrides
open OpenRune.Java OpenRune.Beans OpenRune.Updates OpenRune.Settings OpenRune.Programs OpenRune.Launchers
  OpenRune.Startup OpenRune.FatalErrors OpenRune.Stages OpenRune.Attempts
open OpenRune.Operations (Op Reply launcher Method ask only_ask)

/-- Whether a command line says `noupdate`. -/
def noupdate (library : Library) (host : Host) (args : List String) : Bool :=
  match library.parse (declaredOptions (getOs host.machine)) (parseApplicationURI args) with
  | .ok options => options.has "noupdate"
  | .error _ => false

/-- Every operation but the update. -/
def Op.idle : Op → Prop
  | .update _ _ _ => False
  | _ => True

theorem plain_idle (op : Op) (plain : Op.plain op) : Op.idle op := by
  cases op <;> first | exact trivial | exact plain.elim

theorem silent_idle (op : Op) (silent : Op.silent op) : Op.idle op := by
  cases op <;> first | exact trivial | exact silent.elim

/-- No update yet. -/
def Untouched (s t : World) : Prop := t.updater.stored = s.updater.stored ∧ t.updates = s.updates

/-- What an update of the bootstrap may leave, of which settings. -/
abbrev Leaving := Bootstrap → Bool → LauncherSettings → LauncherSettings → Prop

/-- No update yet, or one, and what it left. -/
def Touched (leaves : Leaving) (noupdate : Bool) (s t : World) : Prop :=
  Untouched s t ∨ ∃ bootstrap, t.updates = s.updates ++ [bootstrap] ∧
    leaves bootstrap (s.updater.stored.noupdates || noupdate) s.updater.stored t.updater.stored

section
variable {library : Library} {host : Host} {locate : String → String} {inside : Inside host} {s t u : World}
  {leaves : Leaving} {given : Bool}

theorem reacts_idle {op : Op} {reply : Reply op} (idle : Op.idle op)
    (reacts : Stages.Reacts library locate inside op s reply t) : t.updater = s.updater ∧ t.updates = s.updates := by
  obtain ⟨-,within⟩ := reacts
  cases op with
  | update bootstrap settings args => exact idle.elim
  | checkPermissions | initJava | loadSettings =>
    rw [within.1]
    exact ⟨rfl,rfl⟩
  | _ =>
    have same : t = { s with launcher := t.launcher } := within
    rw [same]
    exact ⟨rfl,rfl⟩

/-- What comes before the update. -/
theorem idle_untouched {α : Type} {p : Method α} (only : Only Op.idle p) (untouched : Untouched s t) :
    Ensures (Stages.Reacts library locate inside) (fun _ u => Touched leaves given s u) p (fun _ u => Untouched s u) t := by
  refine ensures_only only untouched (fun _ _ _ untouched => .inl untouched) ?_
  intro op u reply v idle untouched reacts
  obtain ⟨updater,updates⟩ := reacts_idle idle reacts
  rw [Untouched,updater,updates]
  exact untouched

/-- What comes after it. -/
theorem idle_touched {α : Type} {p : Method α} (only : Only Op.idle p) (touched : Touched leaves given s t) :
    Ensures (Stages.Reacts library locate inside) (fun _ u => Touched leaves given s u) p
      (fun _ u => Touched leaves given s u) t := by
  refine ensures_only only touched (fun _ _ _ touched => touched) ?_
  intro op u reply v idle touched reacts
  obtain ⟨updater,updates⟩ := reacts_idle idle reacts
  rw [Touched,Untouched,updater,updates]
  exact touched

theorem withBootstrap_touched {args : List String} {settings : LauncherSettings} {jvmProps : List (String × String)}
    (bootstrap : Bootstrap) (overridden : settings.noupdates = (s.updater.stored.noupdates || given))
    (updates : ∀ args w, Ends inside.updating (SelfUpdate.update library.sha256 inside.updater bootstrap settings args)
      (fun _ w' => leaves bootstrap settings.noupdates w.stored w'.stored) w) (untouched : Untouched s t) :
    Ensures (Stages.Reacts library locate inside) (fun _ u => Touched leaves given s u)
      (withBootstrap library host args settings jvmProps bootstrap) (fun _ u => Touched leaves given s u) t := by
  refine ensures_perform (.inl untouched) ?_
  rintro updated t₁ ⟨-,changed,-,runs⟩
  have touched : Touched leaves given s t₁ := by
    refine .inr ⟨bootstrap,?_,?_⟩
    · rw [changed,← untouched.2]
    · have leavesThem := ensures_runs (updates args t.updater) runs
      rwa [overridden,untouched.1] at leavesThem
  refine ensures_outcome (fun _ _ => ?_) fun _ _ => touched
  refine idle_touched ?_ touched
  refine only_bind (only_mono (jvmOutdated_plain host bootstrap) plain_idle) fun outdated => ?_
  split
  · exact only_pure _
  refine only_bind (only_ask trivial) fun _ => only_bind (only_ofOutcome _) fun _ => ?_
  refine only_bind (only_ofOutcome _) fun artifacts => ?_
  refine only_bind (only_mono (sync_plain library settings artifacts) plain_idle) fun synced => ?_
  split
  · exact only_mono (launch_silent bootstrap settings jvmProps artifacts) silent_idle
  · exact only_pure _

theorem start_touched {args : List String} {options : OptionSet} {settings : LauncherSettings}
    (overridden : settings.noupdates = (s.updater.stored.noupdates || given))
    (updates : ∀ bootstrap args w, Ends inside.updating
      (SelfUpdate.update library.sha256 inside.updater bootstrap settings args)
      (fun _ w' => leaves bootstrap settings.noupdates w.stored w'.stored) w) (untouched : Untouched s t) :
    Ensures (Stages.Reacts library locate inside) (fun _ u => Touched leaves given s u)
      (start library host args options settings) (fun _ u => Touched leaves given s u) t := by
  have idle {α : Type} {p : Method α} {u : World} (only : Only Op.plain p) (untouched : Untouched s u) :=
    @idle_untouched library host locate inside s u leaves given _ _ (only_mono only plain_idle) untouched
  unfold start
  split
  · refine ensures_mono (idle_untouched (only_mono (launchForked_silent options settings) silent_idle) untouched) ?_
    exact fun _ _ => .inl
  refine ensures_outcome (fun jvmProps _ => ?_) fun _ _ => .inl untouched
  refine ensures_outcome (fun _ _ => ?_) fun _ _ => .inl untouched
  refine ensures_bind (ensures_mono (idle (only_perform trivial) untouched) ?_)
  rintro (thrown | trusted) t₁ untouched
  · exact .inl untouched
  refine ensures_outcome (fun _ _ => ?_) fun _ _ => .inl untouched
  split
  · exact ensures_mono (idle (postInstall_plain library host settings) untouched) fun _ _ => .inl
  refine ensures_bind (ensures_mono (idle (prepare_plain host) untouched) ?_)
  rintro (thrown | prepared) t₂ untouched
  · exact .inl untouched
  cases prepared with
  | false => exact .inl untouched
  | true =>
    refine ensures_attempt (ensures_mono (idle (getBootstrap_plain library host) untouched) ?_)
    rintro (thrown | fetched) t₃ untouched
    · dsimp only
      split
      · exact ensures_mono (idle showFatalErrorDialog_plain untouched) fun _ _ => .inl
      · exact .inl untouched
    · refine ensures_outcome (fun bootstrap _ => ?_) fun _ _ => .inl untouched
      exact withBootstrap_touched bootstrap overridden (updates bootstrap) untouched

/-- In every state that `main` comes to, there was no update yet, or one, with the
    settings that were stored and the option. -/
theorem main_touched {args : List String} (updates : ∀ bootstrap settings args w, Ends inside.updating
      (SelfUpdate.update library.sha256 inside.updater bootstrap settings args)
      (fun _ w' => leaves bootstrap settings.noupdates w.stored w'.stored) w) :
    Ensures (Stages.Reacts library locate inside) (fun _ u => Touched leaves (noupdate library host args) s u)
      (main library host args) (fun _ u => Touched leaves (noupdate library host args) s u) s := by
  have parses : Ends (Stages.Reacts library locate inside) (parseArgs library host args)
      (fun outcome _ => ∀ options, outcome = .ok options → noupdate library host args = options.has "noupdate") s := by
    unfold parseArgs noupdate
    cases library.parse (declaredOptions (getOs host.machine)) (parseApplicationURI args) with
    | error thrown => exact ends_after (fun _ _ => nofun) fun _ _ => nofun
    | ok options =>
      dsimp only
      split
      · exact nofun
      · rintro options' ⟨⟩
        rfl
  refine ensures_bind (ensures_mono (ensures_and parses
    (idle_untouched (only_mono (parseArgs_plain library host args) plain_idle) ⟨rfl,rfl⟩)) ?_)
  rintro (thrown | options) t ⟨same,untouched⟩
  · exact .inl untouched
  dsimp only
  split
  · exact .inl untouched
  refine ensures_perform (.inl untouched) ?_
  rintro stored t₁ ⟨-,changed,rfl⟩
  have untouched : Untouched s t₁ := by
    rw [Untouched,changed]
    exact untouched
  refine ensures_outcome (fun settings applied => ?_) fun _ _ => .inl untouched
  have overridden : settings.noupdates = (s.updater.stored.noupdates || noupdate library host args) := by
    rw [(apply_ok applied).2.2.2,same options rfl,← untouched.1,changed]
  refine ensures_handle (ensures_mono (start_touched overridden (fun bootstrap => updates bootstrap settings) untouched) ?_)
  rintro (thrown | done) t₂ touched
  · exact idle_touched (only_mono (startupFailed_plain options thrown) plain_idle) touched
  · exact touched

/-- Complete settings are read as they were saved. -/
theorem keeps_complete {stored stored' : LauncherSettings} (keeps : Keeps stored stored') (complete : Complete stored) :
    configuration stored' = configuration stored := by
  rcases keeps with rfl | keeps
  · rfl
  · exact keeps.trans (congrArg configuration complete)

/-- The command line is not stored: `main` leaves the configuration that it has
    found, and what it leaves at all does not depend on an option but `noupdate`. -/
theorem overrides_not_stored {args : List String} {p : Method Unit}
    (saves : ∀ op w reply w', inside.updating op w reply w' →
      Backoff.Saving (SelfUpdate.runeliteApp host.properties) inside.inputs op w reply w')
    (steps : Steps (Stages.Reacts library locate inside) (main library host args) s p t) :
    Keeps s.updater.stored t.updater.stored ∧
    (Complete s.updater.stored → configuration t.updater.stored = configuration s.updater.stored) ∧
    ∀ readings, (∀ op w reply w', inside.updating op w reply w' →
        Answering (SelfUpdate.runeliteApp host.properties) inside.inputs readings op w reply w') →
      ∀ args' p' s' t', Steps (Stages.Reacts library locate inside) (main library host args') s' p' t' →
        s'.updater.stored = s.updater.stored → noupdate library host args' = noupdate library host args →
        ∀ bootstrap, t.updates = s.updates ++ [bootstrap] → t'.updates = s'.updates ++ [bootstrap] →
          t'.updater.stored = t.updater.stored := by
  have keeps : Keeps s.updater.stored t.updater.stored := by
    have touched := ensures_reached (@main_touched library host locate inside s (fun _ _ => Keeps) args fun bootstrap settings args w =>
      ensures_env (update_keeps library.sha256 args) saves) steps
    rcases touched with ⟨same,-⟩ | ⟨bootstrap,-,keeps⟩
    · exact .inl same
    · exact keeps
  refine ⟨keeps,keeps_complete keeps,?_⟩
  intro readings answers args' p' s' t' steps' stored alike bootstrap updated updated'
  have once {args : List String} {p : Method Unit} {s t : World} (updated : t.updates = s.updates ++ [bootstrap])
      (steps : Steps (Stages.Reacts library locate inside) (main library host args) s p t) : t.updater.stored =
        left inside.inputs readings inside.updater bootstrap (s.updater.stored.noupdates || noupdate library host args)
          s.updater.stored := by
    have touched := ensures_reached (@main_touched library host locate inside s (fun bootstrap noupdates stored stored' =>
      stored' = left inside.inputs readings inside.updater bootstrap noupdates stored) args fun bootstrap settings args w =>
        ensures_env (update_left library.sha256 args) answers) steps
    rcases touched with ⟨-,none⟩ | ⟨bootstrap',another,same⟩
    · rw [none] at updated
      simp at updated
    · obtain rfl : bootstrap = bootstrap' := by simpa [updated] using another
      exact same
  rw [once updated steps,once updated' steps',stored,alike]

end
/-! ## An update on macOS -/

private def mac : Host := { sampleHost with machine := ⟨some "Mac OS X",some "amd64",none⟩ }

/-- The bytes of the update are not those that are announced. -/
private def macLibrary : Library where
  sha256 _ := "e3b0c44298fc1c149afbf4c8996fb92427ae41e4649b934ca495991b7852b855"
  verifySignature _ _ := .ok true
  fromJson _ := .ok (some {
    artifacts := some []
    updates := some [some { os := some "macos", version := some "2.0", hash := some "ab" }] })
  parse _ args := .ok (if args = ["--debug"] then ⟨[("debug",none)],[]⟩ else ⟨[],args⟩)
  parseDouble _ := none
  showDouble _ := "1.0"

private def macInputs : SelfUpdate.Inputs := ⟨0,0,.ok [],.ok none,.finite 0,SelfUpdate.nowhere⟩

private def macReadings : Readings where
  found _ := true
  installLocation := .ok none
  command := .ok (some "/Applications/OpenRune.app/Contents/MacOS/OpenRune")

private def macUpdater : Handler SelfUpdate.updater SelfUpdate.World :=
  SelfUpdate.calm macInputs { command := some "/Applications/OpenRune.app/Contents/MacOS/OpenRune", serve := fun _ => [] }

private def macInside : Inside mac where
  runeliteDir := "/runelite"
  java := sampleJava
  lines := []
  installing := JavaInstaller.Reacts sampleJava
  installs _ _ _ _ reacts := reacts
  updater := { SelfUpdate.sampleSurroundings "OpenRune" "Mac OS X" with
    properties := mac.properties
    machine := mac.machine }
  sameProperties := rfl
  sameMachine := rfl
  inputs := macInputs
  updating := Answering (SelfUpdate.runeliteApp mac.properties) macInputs macReadings
  updates _ _ _ _ answers := answers.1.1

private theorem mac_saves (op : SelfUpdate.Op) (w : SelfUpdate.World) (reply : SelfUpdate.Reply op) (w' : SelfUpdate.World)
    (answers : macInside.updating op w reply w') :
    Backoff.Saving (SelfUpdate.runeliteApp mac.properties) macInside.inputs op w reply w' := answers.1

private def macRun : Handler launcher World :=
  staged macLibrary macInside (Operations.calm macLibrary.sha256 (fun _ => []) []) unloaded
    (JavaInstaller.calm sampleJava fun _ => []) macUpdater

private theorem macRun_reacts (op : Op) (s : World) :
    Stages.Reacts macLibrary id macInside op s (macRun op s).1 (macRun op s).2 := by
  refine staged_reacts (Operations.calm_reacts _ _ _) (JavaInstaller.calm_reacts _ _) ?_ op s
  intro op w
  refine ⟨⟨SelfUpdate.calm_reacts mac.properties macInputs _ op w,?_⟩,?_⟩
  · rintro settings rfl
    rfl
  · cases op <;> first | exact rfl | exact trivial

private def macWorld (stored : LauncherSettings) : World where
  launcher := { files := fun _ => none }
  java := { files := fun _ => none }
  updater := { stored := stored }

private theorem mac_runs {args : List String} {stored : LauncherSettings}
    (ended : (execute macRun (main macLibrary mac args) (macWorld stored)).1 = .ok ()) :
    Runs (Stages.Reacts macLibrary id macInside) (main macLibrary mac args) (macWorld stored) (.ok ())
      (execute macRun (main macLibrary mac args) (macWorld stored)).2 := by
  rw [← ended]
  exact execute_runs macRun_reacts _ _

/-- With `--debug` and without, the attempt is recorded, and nothing else. -/
theorem overrides_not_stored_sample : ∃ t t',
    Runs (Stages.Reacts macLibrary id macInside) (main macLibrary mac []) (macWorld {}) (.ok ()) t ∧
    Runs (Stages.Reacts macLibrary id macInside) (main macLibrary mac ["--debug"]) (macWorld {}) (.ok ()) t' ∧
    t.updater.stored.lastUpdateHash = some "ab" ∧ t'.updater.stored = t.updater.stored := by
  have runs := @mac_runs [] {} rfl
  have runs' := @mac_runs ["--debug"] {} rfl
  refine ⟨_,_,runs,runs',rfl,?_⟩
  exact (overrides_not_stored mac_saves runs).2.2 macReadings (fun _ _ _ _ answers => answers) _ _ _ _ runs' rfl rfl _
    rfl rfl

/-- A launch mode that is null is stored as the default one by an update. -/
theorem null_not_kept : (∀ op w reply w', macInside.updating op w reply w' →
      Backoff.Saving (SelfUpdate.runeliteApp mac.properties) macInside.inputs op w reply w') ∧ ∃ stored t,
    Runs (Stages.Reacts macLibrary id macInside) (main macLibrary mac []) (macWorld stored) (.ok ()) t ∧
    stored.launchMode = none ∧ t.updater.stored.launchMode = some .AUTO := by
  have runs := @mac_runs [] { launchMode := none } rfl
  exact ⟨mac_saves,_,_,runs,rfl,rfl⟩

end OpenRune.Overrides
