import OpenRune.UpdateGate

/-!
# Backoff

The settings file remembers the last attempt at an update, and counts attempts.
Over a history of launches the count is that of all attempts, not of the attempts
at the last update, so the backoff window can be longer than it should be.
-/
namespace OpenRune.Backoff
open OpenRune.Java OpenRune.Beans OpenRune.Updates OpenRune.Settings OpenRune.Programs OpenRune.Trees
  OpenRune.SelfUpdate OpenRune.UpdateGate
open OpenRune.Operations (Bytes)

/-- Surroundings in which settings are saved. -/
def Saving (app : Path) (inputs : Inputs) : Environment updater World := fun op w reply w' =>
  Reacts app inputs op w reply w' ∧
    ∀ settings, op = .saveSettings settings →
      w' = { w with stored := settings.reloaded, saved := w.saved ++ [settings] }

/-- The settings file tells of the last attempt, and of the number of attempts. -/
structure Agrees (w : World) : Prop where
  fresh : w.saved = [] → w.stored.lastUpdateHash = none
  hash : ∀ last, w.saved.getLast? = some last → last.lastUpdateHash = w.stored.lastUpdateHash
  time : ∀ last, w.saved.getLast? = some last → last.lastUpdateAttemptTime = w.stored.lastUpdateAttemptTime
  count : w.stored.lastUpdateAttemptNum = int32 w.saved.length

/-- Operations that do not save settings. -/
def Op.keeps : Op → Prop
  | .saveSettings _ => False
  | _ => True

theorem int32_succ (n : Int) : int32 (int32 n + 1) = int32 (n + 1) := by
  unfold int32
  rw [Int.bmod_add_bmod]

section
variable {app : Path} {inputs : Inputs} {w : World}

theorem reacts_keeps {op : Op} {w' : World} {reply : Reply op} (reacts : Reacts app inputs op w reply w')
    (keeps : Op.keeps op) : w'.stored = w.stored ∧ w'.saved = w.saved := by
  rcases reacts_cases reacts with ⟨⟨settings,rfl⟩,-⟩ | ⟨-,temp,rfl⟩ | ⟨-,files,failed,rfl⟩ | ⟨files,mounted,-,rfl⟩ | ⟨exitValue,plist,rfl⟩
  · exact keeps.elim
  · exact ⟨rfl,rfl⟩
  · exact ⟨rfl,rfl⟩
  · exact ⟨rfl,rfl⟩
  · exact ⟨rfl,rfl⟩

theorem agrees_kept {w' : World} (agrees : Agrees w) (stored : w'.stored = w.stored) (saved : w'.saved = w.saved) :
    Agrees w' := by
  obtain ⟨fresh,hash,time,count⟩ := agrees
  exact ⟨by rwa [stored,saved],by rwa [stored,saved],by rwa [stored,saved],by rwa [stored,saved]⟩

/-- An attempt is recorded. -/
theorem agrees_recorded {w' : World} {recordTime : Int} {recordHash : Option String} (agrees : Agrees w)
    (recorded : w' = { w with
      stored := (recordAttempt w.stored recordTime recordHash).reloaded
      saved := w.saved ++ [recordAttempt w.stored recordTime recordHash] }) : Agrees w' := by
  subst recorded
  refine ⟨fun none => by simp at none,?_,?_,?_⟩
  · intro last given
    rw [List.getLast?_concat] at given
    cases given
    rfl
  · intro last given
    rw [List.getLast?_concat] at given
    cases given
    rfl
  · simp only [recordAttempt,LauncherSettings.reloaded,agrees.count,int32_succ,List.length_append,List.length_singleton]
    push_cast
    rfl

theorem looks_keeps (op : Op) (looks : Op.looks op) : Op.keeps op := by
  cases op with
  | saveSettings settings => exact looks.elim
  | _ => exact trivial

theorem fetches_keeps (op : Op) (fetches : Op.fetches op) : Op.keeps op := by
  cases op with
  | saveSettings settings => exact fetches.elim
  | _ => exact trivial

theorem replaces_keeps (op : Op) (replaces : Op.replaces op) : Op.keeps op := by
  cases op with
  | saveSettings settings => exact replaces.elim
  | _ => exact trivial

/-! ## Launches -/

/-- A program that saves no settings. -/
theorem keeps_agrees {α : Type} {p : Updating α} (only : Only Op.keeps p) (agrees : Agrees w) :
    Ensures (Saving app inputs) (fun _ t => Agrees t) p (fun _ t => Agrees t) w := by
  refine ensures_only only agrees (fun _ _ _ agrees => agrees) ?_
  intro op t reply u keeps agrees reacts
  obtain ⟨stored,saved⟩ := reacts_keeps reacts.1 keeps
  exact agrees_kept agrees stored saved

/-- A program that only looks, with what is known about its end. -/
theorem looks_agrees {α : Type} {p : Updating α} {post : Except Thrown α → World → Prop} (only : Only Op.looks p)
    (ends : Ends (Reacts app inputs) p post w) (agrees : Agrees w) :
    Ensures (Saving app inputs) (fun _ t => Agrees t) p (fun outcome t => post outcome t ∧ Agrees t) w :=
  ensures_and (ensures_env ends fun _ _ _ _ reacts => reacts.1) (keeps_agrees (only_mono only looks_keeps) agrees)

theorem markAttempt_agrees (update : Update) (agrees : Agrees w) : Ensures (Saving app inputs) (fun _ t => Agrees t)
    (markAttempt w.stored update) (fun _ t => Agrees t) w := by
  refine ensures_perform agrees ?_
  rintro time t ⟨⟨-,rfl⟩,-⟩
  refine ensures_perform agrees ?_
  rintro reply u ⟨-,saves⟩
  exact ensures_ofOutcome (agrees_recorded agrees (saves _ rfl))

/-- Whatever follows the attempt saves no settings. -/
theorem caught_agrees {p : Updating Unit} {caught : Thrown → Bool} (only : Only Op.keeps p) (agrees : Agrees w) :
    Ensures (Saving app inputs) (fun _ t => Agrees t)
      (tryCatch p fun thrown => if caught thrown then return () else throw thrown) (fun _ t => Agrees t) w := by
  refine ensures_handle (ensures_mono (keeps_agrees only agrees) ?_)
  rintro (thrown | done) t agrees
  · dsimp only
    split <;> exact agrees
  · exact agrees

section
variable {sha256 : Bytes → String} {host : Surroundings} {bootstrap : Bootstrap}
  {launcherSettings : LauncherSettings} {args : List String}

theorem runInstaller_keeps (update : Update) : Only Op.keeps (runInstaller sha256 host update args) := by
  refine only_bind (only_mono (fetch_fetches sha256 "exe" update) fetches_keeps) fun fetched => ?_
  split
  · exact only_pure _
  · exact only_bind (only_ask trivial) fun _ => only_bind (only_ofOutcome _) fun _ => only_throw _

theorem installImage_keeps (path : String) (update : Update) :
    Only Op.keeps (installImage sha256 host path update args) := by
  refine only_bind (only_mono (fetch_fetches sha256 "dmg" update) fetches_keeps) fun fetched => ?_
  split
  · exact only_pure _
  · refine only_bind (only_bind (only_ask trivial) fun _ => only_bind (only_ofOutcome _) fun _ =>
      only_mono waitForImage_replaces replaces_keeps) fun attached => ?_
    split
    · refine only_bind (only_ask trivial) fun _ => only_bind (only_ofOutcome _) fun doc => ?_
      exact only_bind (only_ofOutcome _) fun mountPoint =>
        only_mono (replaceApp_replaces host path mountPoint args) replaces_keeps
    · exact only_pure _

theorem attempting_agrees {checks : Updating (Option (Update × LauncherSettings))} {install : Update → Updating Unit}
    {share : Double} (reads : Only Op.reads checks) (checked : Ends (Reacts app inputs) checks (fun outcome t =>
      Checked host bootstrap launcherSettings w.stored inputs share outcome ∧ t = w) w)
    (installs : ∀ {update u}, Agrees u → Ensures (Saving app inputs) (fun _ t => Agrees t) (install update)
      (fun _ t => Agrees t) u) (agrees : Agrees w) :
    Ensures (Saving app inputs) (fun _ t => Agrees t) (attempting checks install) (fun _ t => Agrees t) w := by
  refine ensures_bind (ensures_mono (looks_agrees (only_mono reads reads_looks) checked agrees) ?_)
  rintro (thrown | attempt) t ⟨⟨passed,rfl⟩,agrees⟩
  · exact agrees
  cases attempt with
  | none => exact agrees
  | some both =>
    obtain ⟨newestUpdate,settings⟩ := both
    obtain ⟨rfl,-⟩ := passed
    refine ensures_bind (ensures_mono (markAttempt_agrees newestUpdate agrees) ?_)
    rintro (thrown | marked) u agrees
    · exact agrees
    · exact installs agrees

theorem updateWindows_agrees (agrees : Agrees w) : Ensures (Saving app inputs) (fun _ t => Agrees t)
    (updateWindows sha256 host bootstrap launcherSettings args) (fun _ t => Agrees t) w := by
  rw [updateWindows_attempting]
  exact attempting_agrees (checksWindows_reads host bootstrap launcherSettings) checksWindows_spec
    (fun agrees => caught_agrees (runInstaller_keeps _) agrees) agrees

theorem updateMacos_agrees (agrees : Agrees w) : Ensures (Saving app inputs) (fun _ t => Agrees t)
    (updateMacos sha256 host bootstrap launcherSettings args) (fun _ t => Agrees t) w := by
  rw [updateMacos_attempting]
  refine ensures_bind (ensures_mono (looks_agrees (checkMacos_looks host) (ends_looks (checkMacos_looks host))
    agrees) ?_)
  rintro (thrown | installed) t ⟨rfl,agrees⟩
  · exact agrees
  cases installed with
  | none => exact agrees
  | some path =>
    exact attempting_agrees (checksMacos_reads host bootstrap launcherSettings) checksMacos_spec
      (fun agrees => caught_agrees (installImage_keeps path _) agrees) agrees

end

/-! ## Histories -/

/-- Launches one after the other, on either platform, each run up to any point.
    Between them anything may happen that keeps what is known of the attempts. -/
inductive History : World → Prop
  | fresh {w : World} (unknown : w.stored.lastUpdateHash = none) (uncounted : w.stored.lastUpdateAttemptNum = 0)
      (none : w.saved = []) : History w
  | windows {w t : World} {q : Updating Unit} (before : History w) (sha256 : Bytes → String) (host : Surroundings)
      (bootstrap : Bootstrap) (launcherSettings : LauncherSettings) (args : List String) (inputs : Inputs)
      (steps : Steps (Saving (runeliteApp host.properties) inputs)
        (updateWindows sha256 host bootstrap launcherSettings args) w q t) : History t
  | macos {w t : World} {q : Updating Unit} (before : History w) (sha256 : Bytes → String) (host : Surroundings)
      (bootstrap : Bootstrap) (launcherSettings : LauncherSettings) (args : List String) (inputs : Inputs)
      (steps : Steps (Saving (runeliteApp host.properties) inputs)
        (updateMacos sha256 host bootstrap launcherSettings args) w q t) : History t
  | between {w t : World} (before : History w) (saved : t.saved = w.saved)
      (hash : t.stored.lastUpdateHash = w.stored.lastUpdateHash)
      (time : t.stored.lastUpdateAttemptTime = w.stored.lastUpdateAttemptTime)
      (num : t.stored.lastUpdateAttemptNum = w.stored.lastUpdateAttemptNum) : History t

theorem history_agrees {w : World} (history : History w) : Agrees w := by
  induction history with
  | fresh unknown uncounted none =>
    refine ⟨fun _ => unknown,?_,?_,?_⟩
    · simp [none]
    · simp [none]
    · simp [none,uncounted,int32]
  | windows before sha256 host bootstrap launcherSettings args inputs steps ih =>
    exact ensures_reached (updateWindows_agrees ih) steps
  | macos before sha256 host bootstrap launcherSettings args inputs steps ih =>
    exact ensures_reached (updateMacos_agrees ih) steps
  | between before saved hash time num ih =>
    obtain ⟨fresh,hash',time',count⟩ := ih
    exact ⟨by rwa [saved,hash],by rwa [saved,hash],by rwa [saved,time],by rwa [saved,num]⟩

/-! ## The decision -/

/-- The attempts at an update since it became the last attempted one. -/
def series (saved : List LauncherSettings) (hash : String) : Nat :=
  (saved.reverse.takeWhile fun settings => settings.lastUpdateHash = some hash).length

/-- The time since an attempt, in nanoseconds. -/
def elapsed (last : LauncherSettings) (now : Int) : Int := now - last.lastUpdateAttemptTime * nanosPerMilli

/-- Backoff per update: the last attempt was at this one, and less than
    `2^min(9,k)` hours ago, after `k` attempts at it. -/
def Expected (saved : List LauncherSettings) (hash : String) (now : Int) : Prop :=
  ∃ last, saved.getLast? = some last ∧ last.lastUpdateHash = some hash ∧
    elapsed last now < 2 ^ min 9 (series saved hash) * nanosPerHour

/-- The window that counts all attempts gives the same answer. -/
def SameSide (saved : List LauncherSettings) (hash : String) (now : Int) : Prop :=
  ∀ last, saved.getLast? = some last → last.lastUpdateHash = some hash →
    (elapsed last now < 2 ^ min 9 (series saved hash) * nanosPerHour ↔
      elapsed last now < backoffHours (int32 saved.length) * nanosPerHour)

theorem backedOff_recorded {w : World} (agrees : Agrees w) {update : Update} {hash : String}
    (given : update.hash = some hash) (now : Int) :
    backedOff w.stored update now = .ok true ↔ ∃ last, w.saved.getLast? = some last ∧
      last.lastUpdateHash = some hash ∧ elapsed last now < backoffHours (int32 w.saved.length) * nanosPerHour := by
  have recent (last : LauncherSettings) (found : w.saved.getLast? = some last) : isRecent w.stored now = true ↔
      elapsed last now < backoffHours (int32 w.saved.length) * nanosPerHour := by
    simp only [isRecent,elapsed,decide_eq_true_eq,agrees.time last found,agrees.count]
    omega
  simp only [backedOff,given,deref_some,ok_bind,pure_ok,Except.ok.injEq,Bool.and_eq_true,decide_eq_true_eq]
  constructor
  · rintro ⟨same,isRecent⟩
    cases found : w.saved.getLast? with
    | none =>
      rw [agrees.fresh (List.getLast?_eq_none_iff.mp found)] at same
      cases same
    | some last => exact ⟨last,rfl,(agrees.hash last found).trans same.symm,(recent last found).mp isRecent⟩
  · rintro ⟨last,found,same,within⟩
    exact ⟨same.symm.trans (agrees.hash last found),(recent last found).mpr within⟩

/-- An update that is otherwise allowed is held back by the backoff check as it
    should be exactly when both windows give the same answer. -/
theorem backoff_exact {w t : World} (history : History w) {host : Surroundings} {bootstrap : Bootstrap}
    {launcherSettings : LauncherSettings} {inputs : Inputs} {update : Update} {hash : String}
    (available : findAvailableUpdate host.machine (some host.properties.version) bootstrap = .ok (some update))
    (wanted : launcherSettings.noupdates = false) (noUpgrade : host.upgrade = none) (given : update.hash = some hash)
    {offered : Updating (Option (Update × LauncherSettings))}
    (platform : offered = offerWindows host bootstrap launcherSettings ∨ offered = offerMacos host bootstrap launcherSettings)
    {outcome : Except Thrown (Option (Update × LauncherSettings))}
    (runs : Runs (Saving (runeliteApp host.properties) inputs) offered w outcome t) :
    (outcome = .ok none ↔ Expected w.saved hash inputs.now) ↔ SameSide w.saved hash inputs.now := by
  have decided : outcome = offer host bootstrap launcherSettings w.stored inputs.now := by
    have fewer (op : Op) (s : World) (reply : Reply op) (u : World)
      (reacts : Saving (runeliteApp host.properties) inputs op s reply u) := reacts.1
    rcases platform with rfl | rfl
    · exact (ensures_runs (ensures_env (offerWith_spec backoffWindows_spec) fewer) runs).1
    · exact (ensures_runs (ensures_env (offerWith_spec backoffMacos_spec) fewer) runs).1
  have heldBack : outcome = .ok none ↔ backedOff w.stored update inputs.now = .ok true := by
    rw [decided,offer,available]
    simp only [ok_bind,wanted,noUpgrade,Option.isSome_none,Bool.false_eq_true,if_false]
    cases recent : backedOff w.stored update inputs.now with
    | error thrown => simp
    | ok value => cases value <;> simp
  rw [heldBack,backedOff_recorded (history_agrees history) given]
  constructor
  · intro same last found ours
    constructor
    · intro within
      obtain ⟨last',found',-,within'⟩ := same.mpr ⟨last,found,ours,within⟩
      rw [found] at found'
      cases found'
      exact within'
    · intro within
      obtain ⟨last',found',-,within'⟩ := same.mp ⟨last,found,ours,within⟩
      rw [found] at found'
      cases found'
      exact within'
  · intro same
    constructor
    · rintro ⟨last,found,ours,within⟩
      exact ⟨last,found,ours,(same last found ours).mpr within⟩
    · rintro ⟨last,found,ours,within⟩
      exact ⟨last,found,ours,(same last found ours).mp within⟩

theorem backoffHours_count {n : Nat} (few : n < 2 ^ 31) : backoffHours (int32 n) = 2 ^ min 9 n := by
  have counted : int32 n = n := int32_eq (by omega) (by omega)
  have shift : (min 9 (n : Int) % 32).toNat = min 9 n := by omega
  rw [backoffHours,counted,shift]
  have small : min 9 n ≤ 9 := Nat.min_le_left 9 n
  interval_cases min 9 n <;> rfl

/-- Up to the overflow of the count the window is at most too long. -/
theorem sameSide_iff {saved : List LauncherSettings} {hash : String} {now : Int} (few : saved.length < 2 ^ 31) :
    SameSide saved hash now ↔ ∀ last, saved.getLast? = some last → last.lastUpdateHash = some hash →
      ¬ (2 ^ min 9 (series saved hash) * nanosPerHour ≤ elapsed last now ∧
        elapsed last now < 2 ^ min 9 saved.length * nanosPerHour) := by
  have shorter : (2 : Int) ^ min 9 (series saved hash) * nanosPerHour ≤ 2 ^ min 9 saved.length * nanosPerHour := by
    have counted : series saved hash ≤ saved.length := by
      simpa [series] using (List.takeWhile_prefix (fun settings : LauncherSettings =>
        decide (settings.lastUpdateHash = some hash)) (l := saved.reverse)).length_le
    have powers : (2 : Int) ^ min 9 (series saved hash) ≤ 2 ^ min 9 saved.length :=
      pow_le_pow_right₀ (by norm_num) (by omega)
    exact mul_le_mul_of_nonneg_right powers (by norm_num [nanosPerHour])
  unfold SameSide
  rw [backoffHours_count few]
  refine forall_congr' fun last => imp_congr_right fun _ => imp_congr_right fun _ => ?_
  constructor
  · rintro same ⟨late,within⟩
    exact absurd (same.mpr within) (not_lt.mpr late)
  · intro outside
    constructor
    · exact fun within => lt_of_lt_of_le within shorter
    · exact fun within => lt_of_not_ge fun late => outside ⟨late,within⟩

end
private def sampleHost : Surroundings := sampleSurroundings "OpenRune" "Mac OS X"

private def offering (hash : String) : Bootstrap where
  updates := some [some { os := some "macos", version := some "2.0", hash := some hash }]

private def inputsAt (hours : Int) : Inputs where
  now := hours * nanosPerHour
  currentTimeMillis := hours * 3600000
  tasklist := .ok []
  installId := .ok none
  random := .finite 0

private def sampleAnswers : Answers where
  command := some "/Applications/OpenRune.app/Contents/MacOS/OpenRune"
  serve _ := []

private theorem calm_saves (inputs : Inputs) (op : Op) (w : World) :
    Saving (runeliteApp sampleHost.properties) inputs op w (calm inputs sampleAnswers op w).1
      (calm inputs sampleAnswers op w).2 := by
  refine ⟨calm_reacts _ _ _ op w,?_⟩
  rintro settings rfl
  rfl

/-- A launch that is cut off when it has recorded its attempt. -/
private def attempted (hash : String) (hours : Int) (w : World) : World :=
  (advance (calm (inputsAt hours) sampleAnswers) 5 (updateMacos (fun _ => hash) sampleHost (offering hash) {} []) w).2

private theorem attempted_history {w : World} (history : History w) (hash : String) (hours : Int) :
    History (attempted hash hours w) :=
  .macos history _ sampleHost (offering hash) {} [] (inputsAt hours) (advance_steps (calm_saves _) 5 _ _)

private theorem offer_executed {hash : String} {hours : Int} {w : World}
    {outcome : Except Thrown (Option (Update × LauncherSettings))}
    (executed : (execute (calm (inputsAt hours) sampleAnswers) (offerMacos sampleHost (offering hash) {}) w).1 = outcome) :
    ∃ t, Runs (Saving (runeliteApp sampleHost.properties) (inputsAt hours)) (offerMacos sampleHost (offering hash) {}) w
      outcome t := by
  rw [← executed]
  exact ⟨_,execute_runs (calm_saves _) _ w⟩

private theorem fresh_history : History { stored := {} } := .fresh rfl rfl rfl

/-- An hour after its first attempt an update is held back, as it should be. -/
theorem backoff_exact_sample : Expected (attempted "a" 0 { stored := {} }).saved "a" nanosPerHour := by
  obtain ⟨t,runs⟩ := @offer_executed "a" 1 (attempted "a" 0 { stored := {} }) _ rfl
  refine ((backoff_exact (attempted_history fresh_history "a" 0) rfl rfl rfl rfl (.inr rfl) runs).mpr ?_).mp rfl
  rintro last ⟨⟩ -
  decide

/-- The first attempt at `b` comes after one at `a`, so three hours later `b` is
    still held back, where two hours would be the window. -/
theorem backoff_fails : ∃ w t, History w ∧
    Runs (Saving (runeliteApp sampleHost.properties) (inputsAt 13)) (offerMacos sampleHost (offering "b") {}) w
      (.ok none) t ∧ ¬ Expected w.saved "b" (inputsAt 13).now := by
  obtain ⟨t,runs⟩ := @offer_executed "b" 13 (attempted "b" 10 (attempted "a" 0 { stored := {} })) _ rfl
  refine ⟨_,t,attempted_history (attempted_history fresh_history "a" 0) "b" 10,runs,?_⟩
  rintro ⟨last,⟨⟩,-,within⟩
  revert within
  decide

end OpenRune.Backoff
