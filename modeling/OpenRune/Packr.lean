import OpenRune.Dropt
import OpenRune.Launchers

/-!
# The command line of the native launcher

`setCmdLineArguments` of the packr executable reads the command that
`ForkLauncher.launch` has built. The options of the virtual machine come through,
and the arguments for the child, exactly when the list `jvmArgs`, which is put
into the command without its `-J`, is empty.
-/
namespace OpenRune.Packr
open OpenRune.Java OpenRune.Beans OpenRune.Dropt OpenRune.Launchers

/-! ## Handlers -/

/-- The variables that the options of the command line set. -/
structure CmdLine where
  cli : Bool := false
  showHelp : Bool := false
  cwd : Option Arg := none
  config : Option Arg := none
  verbose : Bool := false
  console : Bool := false
  vmArgs : List Arg := []

/-- `strtoul` in base 10, for a text that has to be a number up to its end. -/
def strtoul (ulongMax : Nat) (text : Arg) : Option Nat :=
  let number := text.dropWhile fun c => decide (c.toNat = 32 ∨ 9 ≤ c.toNat ∧ c.toNat ≤ 13)
  let digits := match number with
    | '-' :: digits => digits
    | '+' :: digits => digits
    | digits => digits
  if isNumeral digits ∧ digitsValue digits ≤ ulongMax then
    some (if number.head? = some '-' then (ulongMax + 1 - digitsValue digits) % (ulongMax + 1) else digitsValue digits)
  else none

/-- `dropt_handle_uint`, as far as its callers look at the number. -/
def handleUint (ulongMax : Nat) (argument : Arg) : Option Nat :=
  match argument with
  | [] => none
  | '-' :: _ => none
  | text => strtoul ulongMax text

/-- `dropt_handle_bool`. -/
def handleBool (ulongMax : Nat) (set : Bool → CmdLine → CmdLine) (argument : Option Arg) (line : CmdLine) :
    Option CmdLine :=
  match argument with
  | none => some (set true line)
  | some text => match handleUint ulongMax text with
    | some 0 => some (set false line)
    | some 1 => some (set true line)
    | _ => none

/-- `dropt_handle_string`. -/
def handleString (set : Arg → CmdLine → CmdLine) (argument : Option Arg) (line : CmdLine) : Option CmdLine :=
  argument.map fun text => set text line

/-- `handle_vec_opt`. -/
def handleVecOpt (argument : Option Arg) (line : CmdLine) : Option CmdLine :=
  match argument with
  | none => some line
  | some text => some { line with vmArgs := line.vmArgs ++ [text] }

/-- The table of options in `setCmdLineArguments`. -/
def options (ulongMax : Nat) : List (DroptOption CmdLine) := [
  { shortName := some 'c', longName := some "cli".toList, optionalVal := true
    handler := handleBool ulongMax fun value line => { line with cli := value } },
  { shortName := some 'h', longName := some "help".toList, halt := true
    handler := handleBool ulongMax fun value line => { line with showHelp := value } },
  { shortName := some '?', longName := none, halt := true
    handler := handleBool ulongMax fun value line => { line with showHelp := value } },
  { shortName := none, longName := some "cwd".toList, optionalVal := true
    handler := handleString fun text line => { line with cwd := some text } },
  { shortName := none, longName := some "config".toList, takesArg := true, optionalVal := true
    handler := handleString fun text line => { line with config := some text } },
  { shortName := some 'v', longName := some "verbose".toList, optionalVal := true
    handler := handleBool ulongMax fun value line => { line with verbose := value } },
  { shortName := none, longName := some "console".toList, optionalVal := true
    handler := handleBool ulongMax fun value line => { line with console := value } },
  { shortName := some 'J', longName := none, takesArg := true, handler := handleVecOpt }]

/-- What `setCmdLineArguments` returns and leaves in its globals. No working
    directory stands for the directory of the executable. -/
structure Received where
  accepted : Bool := true
  verbose : Bool := false
  workingDir : Option String := none
  configurationPath : String := "config.json"
  vmArgs : List String := []
  cmdLineArgs : List String := []
  deriving DecidableEq, Repr

def receive (line : CmdLine) (remains : List Arg) : Received where
  accepted := !line.showHelp
  verbose := !line.showHelp && line.verbose
  workingDir := if line.showHelp then none else line.cwd.map String.ofList
  configurationPath := if line.showHelp then "config.json" else line.config.elim "config.json" String.ofList
  vmArgs := line.vmArgs.map String.ofList
  cmdLineArgs := remains.map String.ofList

/-- `setCmdLineArguments` on the arguments after the executable; nothing when it
    ends the process. -/
def setCmdLineArguments (ulongMax : Nat) (args : List String) : Option Received :=
  match args with
  | [] => some {}
  | first :: _ =>
    if first = "--cli" ∨ first = "-c" then
      (parse (options ulongMax) args.length (args.map String.toList) {}).map fun (line,remains) => receive line remains
    else some { cmdLineArgs := args }

/-! ## Reading a command of `ForkLauncher` -/

variable {ulongMax : Nat}

theorem parse_vmArg (n : Nat) (arg : Arg) (rest : List Arg) (line : CmdLine) :
    parse (options ulongMax) (n + 1) (['-','J'] :: arg :: rest) line =
      parse (options ulongMax) n rest { line with vmArgs := line.vmArgs ++ [arg] } := rfl

theorem parse_vmArgs (n : Nat) (args rest : List Arg) (line : CmdLine) :
    parse (options ulongMax) (n + args.length) (args.flatMap (fun arg => [['-','J'],arg]) ++ rest) line =
      parse (options ulongMax) n rest { line with vmArgs := line.vmArgs ++ args } := by
  induction args generalizing line with
  | nil => simp
  | cons arg args ih =>
    rw [List.flatMap_cons,List.length_cons,← Nat.add_assoc]
    simp only [List.cons_append,List.nil_append]
    rw [parse_vmArg,ih]
    simp

theorem parse_classpath (n : Nat) (rest : List Arg) (line : CmdLine) :
    parse (options ulongMax) (n + 1) ("--classpath".toList :: rest) line = none := rfl

theorem parse_terminator (n : Nat) (rest : List Arg) (line : CmdLine) :
    parse (options ulongMax) (n + 1) (['-','-'] :: rest) line = some (line,rest) := rfl

theorem parse_cli (n : Nat) (rest : List Arg) (line : CmdLine) :
    parse (options ulongMax) (n + 1) (['-','c'] :: rest) line = parse (options ulongMax) n rest { line with cli := true } :=
  rfl

/-- The arguments of the child, after the `--`. -/
def childArgs (pathSeparator : Char) (names clientArgs : List String) : List String :=
  "--classpath" :: join pathSeparator names :: clientArgs

/-- The command after the executable, as the parser sees it. -/
theorem forkCommand_args (executable : String) (pathSeparator : Char) (clientJvmArgs : List String)
    (jvmProps : List (String × String)) (jvmArgs names clientArgs : List String) :
    (forkCommand executable pathSeparator clientJvmArgs jvmProps jvmArgs names clientArgs).tail.map String.toList =
      ['-','c'] :: (((clientJvmArgs ++ jvmProps.map property).map String.toList).flatMap (fun arg => [['-','J'],arg]) ++
        (jvmArgs.map String.toList ++ ['-','-'] :: (childArgs pathSeparator names clientArgs).map String.toList)) := by
  simp [forkCommand,childArgs,List.map_flatMap,List.flatMap_map]

/-- After the options with a `-J` the parser has them all, and looks at `jvmArgs`. -/
theorem setCmdLineArguments_fork (executable : String) (pathSeparator : Char) (clientJvmArgs : List String)
    (jvmProps : List (String × String)) (jvmArgs names clientArgs : List String) :
    ∃ n, jvmArgs.length + 1 + (childArgs pathSeparator names clientArgs).length ≤ n ∧
      parse (options ulongMax)
        (forkCommand executable pathSeparator clientJvmArgs jvmProps jvmArgs names clientArgs).tail.length
        ((forkCommand executable pathSeparator clientJvmArgs jvmProps jvmArgs names clientArgs).tail.map String.toList)
        {} =
      parse (options ulongMax) n
        (jvmArgs.map String.toList ++ ['-','-'] :: (childArgs pathSeparator names clientArgs).map String.toList)
        { cli := true, vmArgs := (clientJvmArgs ++ jvmProps.map property).map String.toList } := by
  generalize vm_eq : (clientJvmArgs ++ jvmProps.map property).map String.toList = vm
  have args := forkCommand_args executable pathSeparator clientJvmArgs jvmProps jvmArgs names clientArgs
  rw [vm_eq] at args
  have long := congrArg List.length args
  have pairs : (vm.flatMap fun arg => [['-','J'],arg]).length = vm.length + vm.length := by
    clear args vm_eq long
    induction vm with
    | nil => rfl
    | cons arg vm ih =>
      simp only [List.flatMap_cons,List.length_append,ih,List.length_cons,List.length_nil]
      omega
  simp only [List.length_map,List.length_cons,List.length_append,pairs] at long
  refine ⟨vm.length + (jvmArgs.length + ((childArgs pathSeparator names clientArgs).length + 1)),by omega,?_⟩
  rw [args,long]
  have fuel : vm.length + vm.length + (jvmArgs.length + ((childArgs pathSeparator names clientArgs).length + 1)) + 1 =
      (vm.length + (jvmArgs.length + ((childArgs pathSeparator names clientArgs).length + 1))) + vm.length + 1 := by omega
  rw [fuel,parse_cli,parse_vmArgs]
  simp

/-- The native launcher accepts the command, with the options that `JvmLauncher`
    would pass and the arguments that are meant for the child, whose class path
    splits into the names it was joined from. -/
def RoundTrips (ulongMax : Nat) (host : Host) (bootstrap : Bootstrap) (classpath clientArgs : List String)
    (jvmProps : List (String × String)) (jvmArgs command : List String) : Prop :=
  ∃ clientJvmArgs received, getJvmArguments host bootstrap = .ok clientJvmArgs ∧
    setCmdLineArguments ulongMax command.tail = some received ∧ received.accepted = true ∧
    received.vmArgs = vmOptions (clientJvmArgs.getD []) jvmProps jvmArgs ∧
    received.cmdLineArgs = "--classpath" :: join host.pathSeparator classpath :: clientArgs ∧
    splitPaths host.pathSeparator (join host.pathSeparator classpath) = classpath

private theorem handleBool_modest {set : Bool → CmdLine → CmdLine} {argument : Option Arg} {line line' : CmdLine}
    (handled : handleBool ulongMax set argument line = some line')
    (keeps : ∀ value line, (set value line).vmArgs = line.vmArgs) :
    weight line'.vmArgs ≤ weight line.vmArgs + argWeight argument := by
  have same : ∃ value, line' = set value line := by
    unfold handleBool at handled
    split at handled
    · exact ⟨true,(Option.some.inj handled).symm⟩
    · split at handled
      · exact ⟨false,(Option.some.inj handled).symm⟩
      · exact ⟨true,(Option.some.inj handled).symm⟩
      · cases handled
  obtain ⟨value,rfl⟩ := same
  rw [keeps]
  exact Nat.le_add_right _ _

private theorem handleString_modest {set : Arg → CmdLine → CmdLine} {argument : Option Arg} {line line' : CmdLine}
    (handled : handleString set argument line = some line') (keeps : ∀ text line, (set text line).vmArgs = line.vmArgs) :
    weight line'.vmArgs ≤ weight line.vmArgs + argWeight argument := by
  obtain ⟨text,-,rfl⟩ := Option.map_eq_some_iff.mp handled
  rw [keeps]
  exact Nat.le_add_right _ _

/-- No option adds more to the options of the virtual machine than its own argument. -/
theorem options_modest : ∀ option ∈ options ulongMax, Modest (fun line => weight line.vmArgs) option := by
  intro option member argument line line' handled
  simp only [options,List.mem_cons,List.not_mem_nil,or_false] at member
  rcases member with rfl | rfl | rfl | rfl | rfl | rfl | rfl | rfl <;> dsimp only at handled ⊢
  · exact handleBool_modest handled fun _ _ => rfl
  · exact handleBool_modest handled fun _ _ => rfl
  · exact handleBool_modest handled fun _ _ => rfl
  · exact handleString_modest handled fun _ _ => rfl
  · exact handleString_modest handled fun _ _ => rfl
  · exact handleBool_modest handled fun _ _ => rfl
  · exact handleBool_modest handled fun _ _ => rfl
  · cases argument with
    | none =>
      cases handled
      exact Nat.le_add_right _ _
    | some text =>
      cases handled
      simp [weight,argWeight]

theorem options_halting : ∀ option ∈ options ulongMax, option.halt = true → option.takesArg = false := by
  intro option member halts
  simp only [options,List.mem_cons,List.not_mem_nil,or_false] at member
  rcases member with rfl | rfl | rfl | rfl | rfl | rfl | rfl | rfl <;> first | rfl | cases halts

private theorem childArgs_fail (pathSeparator : Char) (names clientArgs : List String) (n : Nat) (line : CmdLine)
    (enough : ((childArgs pathSeparator names clientArgs).map String.toList).length ≤ n) :
    parse (options ulongMax) n ((childArgs pathSeparator names clientArgs).map String.toList) line = none := by
  cases n with
  | zero => simp [childArgs] at enough
  | succ n => exact parse_classpath n _ line

private theorem ofList_injective {left right : List Arg} (same : left.map String.ofList = right.map String.ofList) :
    left = right := List.map_injective_iff.mpr (fun _ _ => String.ofList_inj.mp) same

/-- The command of `ForkLauncher.launch` comes through exactly when there are no
    `jvmArgs`. -/
theorem fork_round_trip {host : Host} {bootstrap : Bootstrap} {classpath clientArgs : List String}
    {jvmProps : List (String × String)} {jvmArgs command : List String}
    (launched : forkLaunch host bootstrap classpath clientArgs jvmProps jvmArgs = .ok command)
    (plain : ∀ name ∈ classpath, PlainName host name) :
    RoundTrips ulongMax host bootstrap classpath clientArgs jvmProps jvmArgs command ↔ jvmArgs = [] := by
  obtain ⟨executable,clientJvmArgs,arguments,given,rfl⟩ := forkLaunch_ok launched
  have names : classpath.map (getName host) = classpath := by
    conv_rhs => rw [← List.map_id classpath]
    exact List.map_congr_left fun name member => getName_plain (plain name member)
  rw [names]
  obtain ⟨n,enough,parsed⟩ := @setCmdLineArguments_fork ulongMax executable host.pathSeparator (clientJvmArgs.getD [])
    jvmProps jvmArgs classpath clientArgs
  have read : setCmdLineArguments ulongMax (forkCommand executable host.pathSeparator (clientJvmArgs.getD []) jvmProps
      jvmArgs classpath clientArgs).tail = (parse (options ulongMax) n (jvmArgs.map String.toList ++
        ['-','-'] :: (childArgs host.pathSeparator classpath clientArgs).map String.toList)
        { cli := true, vmArgs := ((clientJvmArgs.getD []) ++ jvmProps.map property).map String.toList }).map
        fun (line,remains) => receive line remains := by
    rw [← parsed]
    rfl
  constructor
  · rintro ⟨clientJvmArgs',received,arguments',accepts,-,vmArgs,cmdLineArgs,-⟩
    rw [arguments] at arguments'
    cases arguments'
    rw [read] at accepts
    obtain ⟨⟨line,remains⟩,done,rfl⟩ := Option.map_eq_some_iff.mp accepts
    have left : remains = (childArgs host.pathSeparator classpath clientArgs).map String.toList := by
      refine ofList_injective ?_
      rw [show remains.map String.ofList = _ from cmdLineArgs]
      simp [childArgs,Function.comp_def]
    subst left
    have bounded := parse_terminated options_modest options_halting
      (childArgs_fail host.pathSeparator classpath clientArgs) (by simpa using enough) done
    have final : line.vmArgs = ((clientJvmArgs.getD []) ++ jvmProps.map property).map String.toList ++
        jvmArgs.map String.toList := by
      refine ofList_injective ?_
      rw [show line.vmArgs.map String.ofList = _ from vmArgs]
      simp [vmOptions,Function.comp_def]
    rw [final] at bounded
    have none : jvmArgs.length = 0 := by
      simp only [weight,List.map_append,List.sum_append,List.length_map] at bounded
      omega
    exact List.eq_nil_of_length_eq_zero none
  · rintro rfl
    obtain ⟨m,rfl⟩ : ∃ m, n = m + 1 := ⟨n - 1,by omega⟩
    rw [List.map_nil,List.nil_append,parse_terminator,Option.map_some] at read
    refine ⟨clientJvmArgs,_,arguments,read,rfl,?_,?_,splitPaths_join given plain⟩
    · simp [receive,vmOptions,Function.comp_def]
    · simp [receive,childArgs,Function.comp_def]

private theorem samplePlain : ∀ name ∈ ["client.jar","api.jar"], PlainName sampleHost name := by
  intro name member
  simp only [List.mem_cons,List.not_mem_nil,or_false] at member
  rcases member with rfl | rfl
  · exact ⟨by decide,by decide,by decide⟩
  · exact ⟨by decide,by decide,by decide⟩

theorem fork_round_trip_sample : ∃ command,
    RoundTrips (2 ^ 64 - 1) sampleHost { clientJvm9Arguments := some ["-Xmx768m"] } ["client.jar","api.jar"] ["--debug"]
      [("sun.java2d.opengl","false")] [] command :=
  ⟨_,(fork_round_trip rfl samplePlain).mpr rfl⟩

/-- With the one argument that `main` always passes, the native launcher ends with
    an error about the option `-X`. -/
theorem fork_fails : ∃ command, forkLaunch sampleHost {} ["client.jar"] [] [] ["-XX:ErrorFile=/crash"] = .ok command ∧
    setCmdLineArguments (2 ^ 64 - 1) command.tail = none ∧
    ¬ RoundTrips (2 ^ 64 - 1) sampleHost {} ["client.jar"] [] [] ["-XX:ErrorFile=/crash"] command := by
  refine ⟨_,rfl,rfl,?_⟩
  rintro ⟨clientJvmArgs,received,-,accepts,-⟩
  cases accepts

end OpenRune.Packr
