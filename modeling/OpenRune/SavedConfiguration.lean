import OpenRune.ConfigurationFrame
import OpenRune.LoadedSettings

/-!
# Opening the configuration window and saving it

The window shows the stored lists of arguments as lines of text and cuts the
text into lists again when it is saved. What has been saved once is shown as
it is stored, and saving it again changes nothing.
-/
namespace OpenRune.SavedConfiguration
open OpenRune.Java OpenRune.Settings OpenRune.Launchers OpenRune.ConfigurationFrame

/-! ## Trimmed lines -/

/-- No whitespace at either end. -/
def Trimmed (cs : List Char) : Prop :=
  (∀ c ∈ cs.head?, isWhitespace c = false) ∧ ∀ c ∈ cs.getLast?, isWhitespace c = false

/-- An argument as it is stored. -/
structure Line (argument : String) : Prop where
  nonempty : argument ≠ ""
  single : '\n' ∉ argument.toList
  trimmed : Trimmed argument.toList

theorem trim_sublist (cs : List Char) : (Launchers.trim cs).Sublist cs :=
  (List.rdropWhile_prefix _ _).sublist.trans (List.dropWhile_sublist _)

theorem trimmed_trim (cs : List Char) : Trimmed (Launchers.trim cs) := by
  constructor
  · intro c first
    obtain ⟨rest,starts⟩ := List.rdropWhile_prefix isWhitespace (cs.dropWhile isWhitespace)
    have head : (cs.dropWhile isWhitespace).head? = some c := by
      rw [← starts]
      exact List.mem_head?_append_of_mem_head? first
    simpa [head] using List.head?_dropWhile_not isWhitespace cs
  · intro c last
    obtain ⟨filled,rfl⟩ := List.mem_getLast?_eq_getLast last
    exact Bool.not_eq_true _ ▸ List.rdropWhile_last_not isWhitespace (cs.dropWhile isWhitespace) filled

theorem trim_trimmed {cs : List Char} (trimmed : Trimmed cs) : Launchers.trim cs = cs := by
  have starts : cs.dropWhile isWhitespace = cs := by
    cases cs with
    | nil => rfl
    | cons c rest => rw [List.dropWhile_cons_of_neg]; simp [trimmed.1 c rfl]
  rw [Launchers.trim,starts,List.rdropWhile_eq_self_iff]
  intro filled
  simp [trimmed.2 _ (List.getLast?_eq_some_getLast filled)]

theorem splitOn_single {c : Char} {text piece : List Char} (member : piece ∈ text.splitOn c) : c ∉ piece := by
  induction text generalizing piece with
  | nil =>
    rw [List.splitOn_nil,List.mem_singleton] at member
    simp [member]
  | cons d rest ih =>
    rw [List.splitOn_cons_eq_if_modifyHead] at member
    split at member
    · rcases List.mem_cons.mp member with rfl | later
      · simp
      · exact ih later
    · rename_i other
      cases pieces : rest.splitOn c with
      | nil => simp [pieces] at member
      | cons first others =>
        rw [pieces,List.modifyHead_cons] at member
        rcases List.mem_cons.mp member with rfl | later
        · simp only [beq_iff_eq] at other
          simp [Ne.symm other,ih (pieces ▸ List.mem_cons_self)]
        · exact ih (pieces ▸ List.mem_cons_of_mem _ later)

/-- What was typed is stored in lines. -/
theorem splitLines_line {text argument : String} (member : argument ∈ splitLines text) : Line argument := by
  simp only [splitLines,List.mem_map,List.mem_filter] at member
  obtain ⟨line,⟨⟨piece,listed,rfl⟩,filled⟩,rfl⟩ := member
  refine ⟨?_,?_,?_⟩
  · intro empty
    have gone : Launchers.trim piece = [] := by simpa using congrArg String.toList empty
    simp [gone] at filled
  · rw [String.toList_ofList]
    exact fun newline => splitOn_single listed ((trim_sublist piece).subset newline)
  · rw [String.toList_ofList]
    exact trimmed_trim piece

/-- `Joiner.on('\\n').join`. -/
def joinLines (arguments : List String) : String := "\n".intercalate arguments

/-- Lines that are joined and cut again are the same. -/
theorem splitLines_joinLines {arguments : List String} (lines : ∀ argument ∈ arguments, Line argument) :
    splitLines (joinLines arguments) = arguments := by
  cases given : arguments with
  | nil => decide
  | cons first rest =>
    rw [← given]
    have divided : (joinLines arguments).toList.splitOn '\n' = arguments.map String.toList := by
      rw [joinLines,String.toList_intercalate]
      refine List.splitOn_intercalate '\n' ?_ (by simp [given])
      intro text member
      obtain ⟨argument,listed,rfl⟩ := List.mem_map.mp member
      exact (lines argument listed).single
    have kept : (arguments.map String.toList).map Launchers.trim = arguments.map String.toList := by
      refine List.map_congr_left ?_ |>.trans (List.map_id _)
      intro text member
      obtain ⟨argument,listed,rfl⟩ := List.mem_map.mp member
      exact trim_trimmed (lines argument listed).trimmed
    have filled : (arguments.map String.toList).filter (fun line => !line.isEmpty) = arguments.map String.toList := by
      refine List.filter_eq_self.mpr ?_
      intro text member
      obtain ⟨argument,listed,rfl⟩ := List.mem_map.mp member
      have nonempty := (lines argument listed).nonempty
      simpa using nonempty
    rw [splitLines,divided,kept,filled,List.map_map]
    simp [Function.comp_def]

/-! ## The window -/

/-- `ConfigurationFrame.<init>`, which joins no list that is null. -/
def opened (showDouble : Double → String) (settings : LauncherSettings) : Except Thrown Frame := do
  let clientArguments ← deref settings.clientArguments
  let jvmArguments ← deref settings.jvmArguments
  return {
    chkboxDebug := settings.debug
    chkboxNoDiffs := settings.nodiffs
    chkboxSkipTlsVerification := settings.skipTlsVerification
    chkboxNoUpdates := settings.noupdates
    chkboxSafemode := settings.safemode
    chkboxIpv4 := settings.ipv4
    txtScale := (settings.scale.map showDouble).getD ""
    txtClientArguments := joinLines clientArguments
    txtJvmArguments := joinLines jvmArguments
    comboHardwareAccelMode := settings.hardwareAccelerationMode
    comboLaunchMode := settings.launchMode }

/-- What one save leaves behind. -/
structure Saved (settings saved : LauncherSettings) : Prop where
  clientArguments : ∃ arguments, saved.clientArguments = some arguments ∧ ∀ argument ∈ arguments, Line argument
  jvmArguments : ∃ arguments, saved.jvmArguments = some arguments ∧ ∀ argument ∈ arguments, Line argument
  hardwareAccelerationMode : saved.hardwareAccelerationMode ≠ none
  launchMode : saved.launchMode ≠ none
  scale : saved.scale.all isFinite = true
  lastUpdateAttemptTime : saved.lastUpdateAttemptTime = settings.lastUpdateAttemptTime
  lastUpdateHash : saved.lastUpdateHash = settings.lastUpdateHash
  lastUpdateAttemptNum : saved.lastUpdateAttemptNum = settings.lastUpdateAttemptNum

section
variable {parseDouble : String → Option Double} {showDouble : Double → String} {frame : Frame}
  {settings saved : LauncherSettings}

theorem save_ok (saves : save parseDouble frame settings = .ok saved) :
    (frame.choose parseDouble settings).scale.all isFinite = true ∧ saved = (frame.choose parseDouble settings).reloaded := by
  simp only [save] at saves
  split at saves
  · rename_i finite
    cases saves
    exact ⟨finite,rfl⟩
  · cases saves

theorem save_saved (saves : save parseDouble frame settings = .ok saved) : Saved settings saved := by
  obtain ⟨finite,rfl⟩ := save_ok saves
  exact {
    clientArguments := ⟨_,rfl,fun _ => splitLines_line⟩
    jvmArguments := ⟨_,rfl,fun _ => splitLines_line⟩
    hardwareAccelerationMode := nofun
    launchMode := nofun
    scale := finite
    lastUpdateAttemptTime := rfl
    lastUpdateHash := rfl
    lastUpdateAttemptNum := rfl }

/-- Settings that were saved once are shown and saved as they are. -/
theorem saved_again {before : LauncherSettings} (written : Saved before saved) (unparsed : parseDouble "" = none)
    (exact : ∀ value, saved.scale = some value → parseDouble (showDouble value) = some value) :
    ∃ frame, opened showDouble saved = .ok frame ∧ save parseDouble frame saved = .ok saved := by
  obtain ⟨clientArguments,client,clientLines⟩ := written.clientArguments
  obtain ⟨jvmArguments,jvm,jvmLines⟩ := written.jvmArguments
  refine ⟨_,by rw [opened,client,jvm]; rfl,?_⟩
  have scale : (if (saved.scale.map showDouble).getD "" = "" then none
      else parseDouble ((saved.scale.map showDouble).getD "")) = saved.scale := by
    cases scaled : saved.scale with
    | none => rfl
    | some value =>
      have read := exact value scaled
      have shown : showDouble value ≠ "" := by
        intro empty
        rw [empty,unparsed] at read
        cases read
      simp [shown,read]
  have modes : some (saved.hardwareAccelerationMode.getD .AUTO) = saved.hardwareAccelerationMode ∧
      some (saved.launchMode.getD .AUTO) = saved.launchMode := by
    obtain ⟨mode,accelerated⟩ := Option.ne_none_iff_exists'.mp written.hardwareAccelerationMode
    obtain ⟨launchMode,launched⟩ := Option.ne_none_iff_exists'.mp written.launchMode
    simp [accelerated,launched]
  simp only [save,Frame.choose,scale,written.scale,if_true,LauncherSettings.reloaded,splitLines_joinLines clientLines,
    splitLines_joinLines jvmLines,Option.getD_some,modes]
  rw [← client,← jvm]

/-- After one save the lists hold plain lines, and opening the window and saving
    again stores the same. -/
theorem save_settles (unparsed : parseDouble "" = none)
    (exact : ∀ value, saved.scale = some value → parseDouble (showDouble value) = some value)
    (saves : save parseDouble frame settings = .ok saved) :
    Saved settings saved ∧
      ∃ frame, opened showDouble saved = .ok frame ∧ save parseDouble frame saved = .ok saved :=
  ⟨save_saved saves,saved_again (save_saved saves) unparsed exact⟩

end

/-- Blank lines and spaces around a line are typed, and the scale is 2. -/
private def typed : Frame :=
  { txtScale := "2.0", txtClientArguments := "  --profile main \n\n \t\n--debug", chkboxIpv4 := true, comboLaunchMode := none }

private def kept : LauncherSettings :=
  { lastUpdateAttemptTime := 17, lastUpdateHash := some "aa", lastUpdateAttemptNum := 2, ipv4 := true
    scale := some (.finite 2), clientArguments := some ["--profile main","--debug"] }

private def parseTwo (text : String) : Option Double := if text = "2.0" then some (.finite 2) else none

theorem save_settles_sample : Saved { kept with ipv4 := false, clientArguments := none } kept ∧
    ∃ frame, opened (fun _ => "2.0") kept = .ok frame ∧ save parseTwo frame kept = .ok kept :=
  @save_settles parseTwo (fun _ => "2.0") typed _ _ (by decide) (by rintro _ ⟨⟩; decide) (by decide)

end OpenRune.SavedConfiguration
