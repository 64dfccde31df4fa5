import OpenRune.Cells
import OpenRune.ConfigurationFrame
import OpenRune.SelfUpdate

/-!
# Two processes that save settings

`ConfigurationFrame.save` and the updater each load the settings file, change
their own fields and save all of it. Both changes are there in the end when one
loads after the other has saved; otherwise the one that saves last has put back
the fields that the other had changed.
-/
namespace OpenRune.SettingsRace
open OpenRune.Java OpenRune.Programs OpenRune.Interleaving OpenRune.Settings OpenRune.ConfigurationFrame OpenRune.SelfUpdate
open OpenRune.Cells

/-- The attempt that the updater records. -/
structure Attempt where
  currentTimeMillis : Int
  hash : Option String

/-- The window on the left, the updater on the right, and what is read of the
    settings that they have changed and saved. -/
def change (parseDouble : String → Option Double) (frame : Frame) (attempt : Attempt) :
    Writer → LauncherSettings → LauncherSettings
  | .left => fun settings => (frame.choose parseDouble settings).reloaded
  | .right => fun settings => (recordAttempt settings attempt.currentTimeMillis attempt.hash).reloaded

/-- The fields of the window are read as they were chosen. -/
def HasChoices (parseDouble : String → Option Double) (frame : Frame) (settings : LauncherSettings) : Prop :=
  (frame.choose parseDouble settings).reloaded = settings

/-- The fields of the updater say that there was one more attempt. -/
def HasAttempt (attempt : Attempt) (before settings : LauncherSettings) : Prop :=
  settings = { settings with
    lastUpdateAttemptTime := attempt.currentTimeMillis
    lastUpdateHash := attempt.hash
    lastUpdateAttemptNum := int32 (before.lastUpdateAttemptNum + 1) }

section
variable {parseDouble : String → Option Double} {frame : Frame} {attempt : Attempt} {old final : LauncherSettings}
  {events : List (Event Writer (cell LauncherSettings))} {now : Writer → Program (cell LauncherSettings) Thrown Unit}

/-- The fields of the two writers are not the same. -/
theorem changes_commute (settings : LauncherSettings) :
    change parseDouble frame attempt .right (change parseDouble frame attempt .left settings) =
      change parseDouble frame attempt .left (change parseDouble frame attempt .right settings) := rfl

/-- Both changes are there when one writer follows the other, and otherwise only
    the one that was saved last. -/
theorem settings_saved
    (trace : Trace Holds (fun actor => writer (change parseDouble frame attempt actor)) old events now final)
    (ended : ∀ actor, now actor = .done ()) :
    (Consecutive (turns events) → HasChoices parseDouble frame final ∧ HasAttempt attempt old final) ∧
      (¬ Consecutive (turns events) →
        ∃ last, (turns events).getLast? = some last ∧ final = change parseDouble frame attempt last old) := by
  obtain ⟨consecutive,overlapping⟩ := two_writers trace ended
  refine ⟨?_,overlapping⟩
  intro turns
  have both : final = change parseDouble frame attempt .right (change parseDouble frame attempt .left old) := by
    rcases consecutive turns with same | same
    · exact same
    · exact same.trans (changes_commute old).symm
  rw [both]
  exact ⟨rfl,rfl⟩

end

/-! ## A choice that is lost -/

private def safemode : Frame := { chkboxSafemode := true }

private def attempt : Attempt := ⟨1000,some "ab12"⟩

private def processes (actor : Writer) : Program (cell LauncherSettings) Thrown Unit :=
  writer (change (fun _ => none) safemode attempt actor)

private def raced (order : List Writer) :
    List (Event Writer (cell LauncherSettings)) × (Writer → Program (cell LauncherSettings) Thrown Unit) ×
      LauncherSettings := schedule holding [] processes {} order

private theorem raced_trace (order : List Writer) :
    Trace Holds processes {} (raced order).1 (raced order).2.1 (raced order).2.2 :=
  schedule_trace holding_holds .start order

theorem settings_saved_sample :
    HasChoices (fun _ => none) safemode (raced [.left,.left,.right,.right]).2.2 ∧
      HasAttempt attempt {} (raced [.left,.left,.right,.right]).2.2 :=
  (settings_saved (raced_trace [.left,.left,.right,.right]) (by rintro (_ | _) <;> rfl)).1 (.inl rfl)

/-- The updater has loaded the settings before the window saves them. -/
theorem choice_lost : ∃ events now final, Trace Holds processes {} events now final ∧
    (∀ actor, now actor = .done ()) ∧ ¬ HasChoices (fun _ => none) safemode final := by
  refine ⟨_,_,_,raced_trace [.right,.left,.left,.right],by rintro (_ | _) <;> rfl,?_⟩
  intro chosen
  exact absurd (congrArg LauncherSettings.safemode chosen) (by decide)

end OpenRune.SettingsRace
