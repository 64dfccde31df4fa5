import OpenRune.CommandLines
import OpenRune.Replacement
import OpenRune.SelfUpdate

/-!
# The arguments of an upgrade

`updateWindows` leaves its arguments in a variable of the environment, and the
installer appends that variable to the command line of the launcher it starts.
-/
namespace OpenRune.UpgradeParams
open OpenRune.CommandLines OpenRune.Launchers OpenRune.Replacement OpenRune.SelfUpdate

/-- `exePath` of the installer. -/
def exePath (app name : String) : String := app ++ "\\" ++ name ++ ".exe"

/-- The command line that `Exec` makes. -/
def commandLine (exePath params : String) : String := "\"" ++ exePath ++ "\" " ++ params

/-- The arguments of a process with this command line; the first is its executable. -/
def argv (commandLine : String) : List String := (split commandLine.toList).map String.ofList

/-- An argument is quoted for a blank or a quote. -/
def needsQuotes (arg : List Char) : Bool := arg.contains ' ' || arg.contains '"'

/-- `escapeArg` on characters. -/
def encode (arg : List Char) : List Char := if needsQuotes arg then quoteArgument arg else arg

theorem escapeArg_toList (arg : String) : (escapeArg arg).toList = encode arg.toList := by
  have replaced := replace_singleton arg '"' "\\\""
  unfold escapeArg encode needsQuotes
  split
  · rw [String.toList_append,String.toList_append,show "\"" = String.singleton '"' from rfl,replaced]
    simp [quoteArgument,escapeQuotes]
  · rfl

/-- An argument that comes back: it is not empty, and when it is quoted, no
    backslash stands before a quote or at its end; otherwise it has no tab. -/
def Safe (arg : List Char) : Prop :=
  arg ≠ [] ∧ if needsQuotes arg then ¬ ['\\','"'] <:+: arg ∧ ¬ ['\\'] <:+ arg else '\t' ∉ arg

instance (arg : List Char) : Decidable (Safe arg) := inferInstanceAs (Decidable (_ ∧ ite _ _ _))

/-! ## The text of the variable -/

/-- The arguments with a blank between each two. -/
def joined : List (List Char) → List Char
  | [] => []
  | [arg] => encode arg
  | arg :: rest => encode arg ++ ' ' :: joined rest

theorem joined_cons (arg next : List Char) (rest : List (List Char)) :
    joined (arg :: next :: rest) = encode arg ++ ' ' :: joined (next :: rest) := rfl

theorem weight_encode (arg : List Char) : weight (encode arg) = arg.length := by
  unfold encode
  split
  · exact weight_quoteArgument arg
  · next plain =>
    have quotes : ∀ c ∈ arg, (c != '"') = true := by
      intro c member
      simp only [needsQuotes,Bool.or_eq_true,List.contains_iff_mem,not_or] at plain
      exact bne_iff_ne.mpr fun same => plain.2 (same ▸ member)
    exact List.countP_eq_length.mpr quotes

theorem weight_joined {args : List (List Char)} (some : args ≠ []) : weight (joined args) + 1 = size args := by
  induction args with
  | nil => exact absurd rfl some
  | cons arg rest ih =>
    have first := weight_encode arg
    cases rest with
    | nil => simp [joined,first]
    | cons next rest =>
      have later := ih (by simp)
      have counts : weight (joined (arg :: next :: rest)) = weight (encode arg) + weight (joined (next :: rest)) + 1 := by
        simp [joined,weight]
        omega
      rw [counts,size_cons]
      omega

/-! ## Safe arguments come back -/

theorem read_safe {complete : List (List Char)} {arg : List Char} (safe : Safe arg) :
    ∃ argument, (Scan.between complete).read (encode arg) =
      { Scan.between complete with current := some argument } ∧ plain argument = arg := by
  obtain ⟨filled,kept⟩ := safe
  unfold encode
  by_cases quoted : needsQuotes arg = true
  · rw [if_pos quoted] at kept ⊢
    exact ⟨(arg,0),Scan.read_quoted kept.1 kept.2,by simp [plain,backslashes]⟩
  · rw [if_neg quoted] at kept ⊢
    have texts : ' ' ∉ arg ∧ '"' ∉ arg := by simpa [needsQuotes] using quoted
    cases arg with
    | nil => exact absurd rfl filled
    | cons c rest =>
      have separators : ∀ d ∈ c :: rest, isSeparator d = false := by
        intro d member
        simp only [isSeparator,Bool.or_eq_false_iff,beq_eq_false_iff_ne]
        exact ⟨fun same => texts.1 (same ▸ member),fun same => kept (same ▸ member)⟩
      -- an argument that begins with text may as well have begun before
      have begun : (Scan.between complete).step c = ({ Scan.between complete with current := some ([],0) } : Scan).step c := by
        simp [Scan.step,separators c,Scan.backslash,Scan.quote,Scan.other,Scan.argument,Scan.between]
      obtain ⟨argument,run,whole⟩ := @Scan.read_plain { Scan.between complete with current := some ([],0) } ([],0)
        rfl rfl (c :: rest) texts.2 separators
      rw [Scan.read_cons,← begun,← Scan.read_cons] at run
      exact ⟨argument,run,by simpa [plain,backslashes] using whole⟩

theorem finish_safe {args : List (List Char)} (safe : ∀ arg ∈ args, Safe arg) (complete : List (List Char)) :
    ((Scan.between complete).read (joined args)).finish = complete ++ args := by
  induction args generalizing complete with
  | nil => simp [joined,Scan.finish_between]
  | cons arg rest ih =>
    obtain ⟨argument,run,rfl⟩ := @read_safe complete arg (safe arg List.mem_cons_self)
    cases rest with
    | nil =>
      rw [joined,run]
      rfl
    | cons next rest =>
      have further := ih (fun later member => safe later (List.mem_cons_of_mem _ member)) (complete ++ [plain argument])
      rw [joined_cons,Scan.read_append,run,← List.singleton_append,Scan.read_append,Scan.read_between,further]
      simp

/-! ## Unsafe arguments do not -/

/-- The scan starts between two arguments, and makes of the text what it was made of. -/
def Divides (complete args : List (List Char)) : Prop :=
  ((Scan.between complete).read (joined args)).finish = complete ++ args

/-- Nothing of the text was lost. -/
theorem divides_whole {complete args : List (List Char)} (divides : Divides complete args) (some : args ≠ []) :
    ¬ ['\\','\\','"'] <:+: joined args := by
  intro lost
  have less := @Scan.size_lost (Scan.between complete) _ lost
  have start : (Scan.between complete).measure = size complete := rfl
  have counts := weight_joined some
  rw [divides,size_append,start] at less
  omega

theorem divides_separator {complete args : List (List Char)} (divides : Divides complete args) (some : args ≠ [])
    {c : Char} (separator : isSeparator c = true) (rest : List Char) : joined args ≠ c :: rest := by
  intro begins
  have less := @Scan.size_separator complete c separator rest
  have counts := weight_joined some
  have one : weight (c :: rest) = weight rest + 1 := by
    have either : c = ' ' ∨ c = '\t' := by simpa [isSeparator] using separator
    rcases either with rfl | rfl <;> simp [weight]
  rw [begins,one] at counts
  rw [← begins,divides,size_append] at less
  omega

theorem joined_begins (arg : List Char) (rest : List (List Char)) : ∃ more, joined (arg :: rest) = encode arg ++ more := by
  cases rest with
  | nil => exact ⟨[],by simp [joined]⟩
  | cons next rest => exact ⟨_,rfl⟩

theorem divides_filled {complete rest : List (List Char)} {arg : List Char} (divides : Divides complete (arg :: rest)) :
    arg ≠ [] := by
  rintro rfl
  cases rest with
  | nil =>
    have sizes := congrArg List.length divides
    simp [joined,encode,needsQuotes,Scan.finish_between] at sizes
  | cons next rest =>
    have begins : joined ([] :: next :: rest) = ' ' :: joined (next :: rest) := rfl
    exact divides_separator divides (by simp) rfl _ begins

theorem divides_quoted {complete rest : List (List Char)} {arg : List Char} (divides : Divides complete (arg :: rest))
    (quoted : needsQuotes arg = true) : ¬ ['\\','"'] <:+: arg ∧ ¬ ['\\'] <:+ arg := by
  obtain ⟨more,begins⟩ := joined_begins arg rest
  have encoded : encode arg = quoteArgument arg := if_pos quoted
  have whole : ¬ (['\\','"'] <:+: arg ∨ ['\\','\\'] <:+ arg) := by
    intro lost
    refine divides_whole divides (by simp) ((quoteArgument_lost lost).trans ?_)
    rw [begins,encoded]
    exact (List.prefix_append _ _).isInfix
  refine ⟨fun inside => whole (.inl inside),?_⟩
  rintro ⟨text,rfl⟩
  have apart : ¬ ['\\','"'] <:+: text := fun inside =>
    whole (.inl (inside.trans (List.prefix_append _ _).isInfix))
  have once : ¬ ['\\'] <:+ text := by
    rintro ⟨before,rfl⟩
    exact whole (.inr ⟨before,by simp⟩)
  -- the argument goes on with the quote that should have closed it
  have swallowed := @Scan.read_swallowed complete text apart once
  obtain ⟨rest',others,finishes⟩ := @Scan.current_finish
    { Scan.between complete with current := some (text ++ ['"'],0), quoted := true } _ rfl more
  rw [Divides,begins,encoded,Scan.read_append,swallowed,finishes] at divides
  simp [Scan.between] at divides

theorem divides_tab {complete rest : List (List Char)} {arg : List Char} (divides : Divides complete (arg :: rest))
    (unquoted : ¬ needsQuotes arg = true) : '\t' ∉ arg := by
  intro member
  obtain ⟨more,begins⟩ := joined_begins arg rest
  have encoded : encode arg = arg := if_neg unquoted
  obtain ⟨before,after,rfl,first⟩ := List.eq_append_cons_of_mem member
  cases before with
  | nil =>
    rw [encoded] at begins
    exact divides_separator divides (by simp) (show isSeparator '\t' = true from rfl) (after ++ more) begins
  | cons c before =>
    -- the argument ends at its tab
    have texts : ' ' ∉ c :: before ∧ '"' ∉ c :: before := by
      simp only [needsQuotes,Bool.or_eq_true,List.contains_iff_mem,not_or] at unquoted
      exact ⟨fun inside => unquoted.1 (List.mem_append_left _ inside),fun inside => unquoted.2 (List.mem_append_left _ inside)⟩
    have bare : ¬ needsQuotes (c :: before) = true := by simpa [needsQuotes] using texts
    obtain ⟨argument,run,whole⟩ := @read_safe complete (c :: before) ⟨by simp,by rw [if_neg bare]; exact first⟩
    rw [show encode (c :: before) = c :: before from if_neg bare] at run
    have ended : (Scan.between complete).read (c :: before ++ ['\t']) = Scan.between (complete ++ [c :: before]) := by
      rw [Scan.read_append,run,← whole]
      rfl
    obtain ⟨others,finishes⟩ := Scan.complete_finish (Scan.between (complete ++ [c :: before])) (after ++ more)
    have text : encode (c :: before ++ '\t' :: after) ++ more = (c :: before ++ ['\t']) ++ (after ++ more) := by
      rw [encoded]
      simp
    rw [Divides,begins,text,Scan.read_append,ended,← finishes] at divides
    simp [Scan.between] at divides

theorem divides_first {complete rest : List (List Char)} {arg : List Char} (divides : Divides complete (arg :: rest)) :
    Safe arg := by
  refine ⟨divides_filled divides,?_⟩
  by_cases quoted : needsQuotes arg = true
  · rw [if_pos quoted]
    exact divides_quoted divides quoted
  · rw [if_neg quoted]
    exact divides_tab divides quoted

theorem divides_safe {complete args : List (List Char)} (divides : Divides complete args) : ∀ arg ∈ args, Safe arg := by
  induction args generalizing complete with
  | nil => simp
  | cons arg rest ih =>
    have first := divides_first divides
    intro later member
    rcases List.mem_cons.mp member with rfl | member
    · exact first
    · cases rest with
      | nil => cases member
      | cons next rest =>
        obtain ⟨argument,run,whole⟩ := @read_safe complete arg first
        refine @ih (complete ++ [arg]) ?_ later member
        rw [Divides,joined_cons,Scan.read_append,run,← List.singleton_append,Scan.read_append,Scan.read_between,
          whole] at divides
        rw [Divides,divides]
        simp

/-! ## The variable -/

theorem argStr_empty (rest : List String) : argStr ("" :: rest) = argStr rest := by
  have nothing : escapeArg "" = "" := String.toList_inj.mp (escapeArg_toList "")
  simp [argStr,nothing]

private theorem argStr_started (rest : List String) {sb : String} (started : sb ≠ "") :
    (rest.foldl (fun sb arg => (if sb = "" then sb else sb ++ " ") ++ escapeArg arg) sb).toList =
      sb.toList ++ (rest.map String.toList).flatMap fun arg => ' ' :: encode arg := by
  induction rest generalizing sb with
  | nil => simp
  | cons arg rest ih =>
    have longer : sb ++ " " ++ escapeArg arg ≠ "" := by simp [started]
    rw [List.foldl_cons,if_neg started,ih longer]
    simp [escapeArg_toList]

private theorem joined_flat (arg : List Char) (rest : List (List Char)) :
    joined (arg :: rest) = encode arg ++ rest.flatMap fun arg => ' ' :: encode arg := by
  induction rest generalizing arg with
  | nil => simp [joined]
  | cons next rest ih => rw [joined_cons,ih next,List.flatMap_cons,List.cons_append]

/-- The text begins with the first argument unless that is empty. -/
theorem argStr_joined {arg : String} (filled : arg ≠ "") (rest : List String) :
    (argStr (arg :: rest)).toList = joined ((arg :: rest).map String.toList) := by
  have started : escapeArg arg ≠ "" := by
    intro empty
    have text := escapeArg_toList arg
    rw [empty] at text
    have weighs := weight_encode arg.toList
    rw [← text] at weighs
    exact filled (String.toList_inj.mp (List.eq_nil_of_length_eq_zero weighs.symm))
  have begun := argStr_started rest started
  rw [List.map_cons,joined_flat,← escapeArg_toList,← begun,argStr,List.foldl_cons,if_pos rfl,String.empty_append]

theorem weight_argStr {args : List String} (some : args ≠ []) :
    weight (argStr args).toList + 1 ≤ size (args.map String.toList) := by
  induction args with
  | nil => exact absurd rfl some
  | cons arg rest ih =>
    by_cases filled : arg = ""
    · subst filled
      rw [argStr_empty,List.map_cons,size_cons]
      cases rest with
      | nil => simp [argStr,weight]
      | cons next rest =>
        have less := ih (by simp)
        omega
    · rw [argStr_joined filled]
      exact (weight_joined (by simp)).le

theorem argStr_divides (complete : List (List Char)) (args : List String) :
    ((Scan.between complete).read (argStr args).toList).finish = complete ++ args.map String.toList ↔
      ∀ arg ∈ args, Safe arg.toList := by
  cases args with
  | nil => simp [argStr,Scan.finish_between]
  | cons arg rest =>
    by_cases filled : arg = ""
    · subst filled
      refine iff_of_false (fun divides => ?_) fun safe => (safe "" List.mem_cons_self).1 rfl
      rw [argStr_empty] at divides
      cases rest with
      | nil =>
        have sizes := congrArg List.length divides
        simp [argStr,Scan.finish_between] at sizes
      | cons next rest =>
        have read := Scan.measure_read (Scan.between complete) (argStr (next :: rest)).toList
        have less := Scan.size_finish ((Scan.between complete).read (argStr (next :: rest)).toList)
        have counts := @weight_argStr (next :: rest) (by simp)
        have start : (Scan.between complete).measure = size complete := rfl
        rw [divides,size_append,List.map_cons,size_cons] at less
        omega
    · rw [argStr_joined filled]
      constructor
      · intro divides later member
        exact divides_safe divides later.toList (List.mem_map_of_mem member)
      · intro safe
        exact finish_safe (by simpa using safe) complete

/-- The executable is one argument of its own. -/
theorem read_executable {exe : List Char} (quoteless : '"' ∉ exe) (ends : ¬ ['\\'] <:+ exe) (params : List Char) :
    ({} : Scan).read ('"' :: exe ++ ['"',' '] ++ params) = (Scan.between [exe]).read params := by
  have apart : ¬ ['\\','"'] <:+: exe := fun inside => quoteless (inside.subset (by simp))
  have quoted := @Scan.read_quoted [] exe apart ends
  rw [quoteArgument,escapeQuotes_plain quoteless] at quoted
  have text : '"' :: exe ++ ['"',' '] ++ params = ('"' :: exe ++ ['"']) ++ [' '] ++ params := by simp
  rw [text,Scan.read_append,Scan.read_append,show ({} : Scan) = Scan.between [] from rfl,quoted,Scan.read_between]
  simp [plain,backslashes]

theorem argv_executable {app name : String} (quoteless : '"' ∉ app.toList ∧ '"' ∉ name.toList) (params : String)
    (args : List String) : argv (commandLine (exePath app name) params) = exePath app name :: args ↔
      ((Scan.between [(exePath app name).toList]).read params.toList).finish =
        [(exePath app name).toList] ++ args.map String.toList := by
  have ends : ¬ ['\\'] <:+ (exePath app name).toList := by
    intro ends
    have last := ends.getLast (by simp)
    simp [exePath] at last
  have texts : '"' ∉ (exePath app name).toList := by simpa [exePath] using quoteless
  have line : (commandLine (exePath app name) params).toList =
      '"' :: (exePath app name).toList ++ ['"',' '] ++ params.toList := by simp [commandLine]
  rw [argv,split,line,read_executable texts ends]
  constructor
  · intro same
    have characters := congrArg (List.map String.toList) same
    simpa [Function.comp_def] using characters
  · intro same
    rw [same]
    simp [Function.comp_def]

/-- The launcher that the installer starts gets the arguments of the one that
    was upgraded exactly when each of them is safe. -/
theorem params_survive {app name : String} (quoteless : '"' ∉ app.toList ∧ '"' ∉ name.toList) (args : List String) :
    argv (commandLine (exePath app name) (argStr args)) = exePath app name :: args ↔
      ∀ arg ∈ args, Safe arg.toList :=
  (argv_executable quoteless (argStr args) args).trans (argStr_divides _ args)

theorem params_survive_sample :
    argv (commandLine (exePath "C:\\Program Files\\OpenRune" "OpenRune") (argStr ["--profile","my profile"])) =
        exePath "C:\\Program Files\\OpenRune" "OpenRune" :: ["--profile","my profile"] ↔
      ∀ arg ∈ ["--profile","my profile"], Safe arg.toList :=
  params_survive (by decide) _

/-- The backslash at the end of a directory takes the closing quote as text. -/
theorem params_changed : ¬ ∀ (app name : String) (args : List String), '"' ∉ app.toList ∧ '"' ∉ name.toList →
    argv (commandLine (exePath app name) (argStr args)) = exePath app name :: args := by
  intro survive
  have same := survive "C:\\Apps" "OpenRune" ["--sessionfile","D:\\my files\\"] (by decide)
  have safe := (argStr_divides _ _).mp ((argv_executable (by decide) _ _).mp same)
  exact absurd (safe "D:\\my files\\" (by simp)) (by decide)

end OpenRune.UpgradeParams
