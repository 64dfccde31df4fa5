import OpenRune.Startup

/-!
# The client's arguments

The list that reaches the client's `main` in the three launch modes. In `FORK`
mode the launcher hands its list to a child process, which parses it, lets it
override the settings that it has read again, and collects a list of its own.
-/
namespace OpenRune.ForkedArguments
open OpenRune.Java OpenRune.Beans OpenRune.Updates OpenRune.Settings OpenRune.Programs OpenRune.Operations
  OpenRune.Launchers OpenRune.Startup

/-! ## The option parser -/

def detect (option : String) (argument : Option String) (options : OptionSet) : OptionSet :=
  { options with detected := (option,argument) :: options.detected }

def keep (token : String) (options : OptionSet) : OptionSet :=
  { options with nonOptionArguments := token :: options.nonOptionArguments }

/-- jopt-simple: `classify` finds the declared option of a token, and the argument
    within the token, if any; what is no declared option is kept. -/
def joptParse (classify : String → Option (String × Option String)) (requires : String → Bool) :
    List String → Except Thrown OptionSet
  | [] => .ok {}
  | token :: rest =>
    if token = "--" then .ok { nonOptionArguments := rest }
    else match classify token with
      | none => (joptParse classify requires rest).map (keep token)
      | some (option,inline) =>
        if requires option then
          match inline with
          | some argument => (joptParse classify requires rest).map (detect option (some argument))
          | none => match rest with
            | [] => .error .unchecked
            | argument :: rest => (joptParse classify requires rest).map (detect option (some argument))
        else (joptParse classify requires rest).map (detect option none)

/-- What the launcher relies on: a declared option is found by its long name, and
    nothing else without an equals sign is. -/
structure JoptSimple (library : Library) (classify : List (String × Bool) → String → Option (String × Option String)) :
    Prop where
  parse : ∀ declared args,
    library.parse declared args = joptParse (classify declared) (fun option => (option,true) ∈ declared) args
  long : ∀ declared option, option ∈ declared.map Prod.fst → classify declared ("--" ++ option) = some (option,none)
  unrecognized : ∀ declared option, option ∉ declared.map Prod.fst → '=' ∉ option.toList →
    classify declared ("--" ++ option) = none

section
variable {library : Library} {classify : List (String × Bool) → String → Option (String × Option String)}

/-- The child's command line: the class path, and what is found in the rest. -/
theorem parse_forked (jopt : JoptSimple library classify) (os : OSType) (path : String) (args : List String) :
    library.parse (declaredOptions os) (parseApplicationURI ("--classpath" :: path :: args)) =
      (library.parse (declaredOptions os) args).map (detect "classpath" (some path)) := by
  have declared : "classpath" ∈ (declaredOptions os).map Prod.fst := by simp [declaredOptions]
  have required : ("classpath",true) ∈ declaredOptions os := by simp [declaredOptions]
  have found : classify (declaredOptions os) "--classpath" = some ("classpath",none) := jopt.long _ _ declared
  have plain : parseApplicationURI ("--classpath" :: path :: args) = "--classpath" :: path :: args := rfl
  rw [plain,jopt.parse,jopt.parse,joptParse,if_neg (by decide),found]
  simp [required]

end

theorem has_detect {options : OptionSet} {option found : String} {argument : Option String} (other : option ≠ found) :
    (detect found argument options).has option = options.has option := by
  simp [detect,OptionSet.has,Ne.symm other]

theorem valuesOf_detect {options : OptionSet} {option found : String} {argument : Option String} (other : option ≠ found) :
    (detect found argument options).valuesOf option = options.valuesOf option := by
  simp [detect,OptionSet.valuesOf,Ne.symm other]

theorem valueOf_detect {options : OptionSet} {option found : String} {argument : Option String} (other : option ≠ found) :
    (detect found argument options).valueOf option = options.valueOf option := by
  rw [OptionSet.valueOf,OptionSet.valueOf,valuesOf_detect other]

/-- A second class path would be an exception. -/
theorem valueOf_classpath {options : OptionSet} {path : String} {value : Option String} :
    (detect "classpath" (some path) options).valueOf "classpath" = .ok value ↔
      options.valuesOf "classpath" = [] ∧ value = some path := by
  have values : (detect "classpath" (some path) options).valuesOf "classpath" = path :: options.valuesOf "classpath" := by
    simp [detect,OptionSet.valuesOf]
  rw [OptionSet.valueOf,values]
  cases options.valuesOf "classpath" with
  | nil => simp [eq_comm]
  | cons other others => simp

/-- The class path does not override settings. -/
theorem apply_classpath {parseDouble : String → Option Double} {reflectProperty : Option String}
    {stored : LauncherSettings} {options : OptionSet} {path : String} :
    stored.apply parseDouble reflectProperty (detect "classpath" (some path) options) =
      stored.apply parseDouble reflectProperty options := by
  have has {option : String} (other : option ≠ "classpath") := @has_detect options option "classpath" (some path) other
  have value {option : String} (other : option ≠ "classpath") :=
    @valueOf_detect options option "classpath" (some path) other
  have values := @valuesOf_detect options "J" "classpath" (some path) (by decide)
  have kept : (detect "classpath" (some path) options).nonOptionArguments = options.nonOptionArguments := rfl
  simp only [LauncherSettings.apply,LauncherSettings.scaleFor,LauncherSettings.hardwareAccelerationFor,
    LauncherSettings.launchModeFor,has,value,values,kept,ne_eq,String.reduceEq,not_false_eq_true]

/-! ## The two processes -/

/-- Surroundings in which the settings file stays the same. -/
def Rereads (sha256 : Bytes → String) (locate : String → String) (stored : LauncherSettings) :
    Environment launcher World
  | .loadSettings, w, reply, w' => reply = stored ∧ w' = w
  | op, w, reply, w' => Reacts sha256 locate op w reply w'

/-- A client that is started is handed the arguments, in `FORK` mode through the
    command line of the child. -/
inductive Hands (host : Host) (clientArgs : List String) : Launch → Prop
  | reflect (classpath : List String) : Hands host clientArgs ⟨.REFLECT,classpath,clientArgs⟩
  | jvm (java : String) (classpath options : List String) : Hands host clientArgs
      ⟨.JVM,classpath,[java,"-cp",join host.pathSeparator (classpath.map (absolutePath host))] ++ options ++
        [host.properties.main] ++ clientArgs⟩
  | fork (executable : String) (classpath clientJvmArgs : List String) (jvmProps : List (String × String))
      (jvmArgs : List String) : Hands host clientArgs
      ⟨.FORK,classpath,forkCommand executable host.pathSeparator clientJvmArgs jvmProps jvmArgs
        (classpath.map (getName host)) clientArgs⟩

/-- Every client that the operation starts is handed the arguments. -/
def Op.hands (host : Host) (clientArgs : List String) (op : Op) : Prop :=
  ∀ launch, op = .startClient launch → Hands host clientArgs launch

section
variable {library : Library} {host : Host} {locate : String → String} {stored : LauncherSettings} {w : World}
  {clientArgs : List String} {classify : List (String × Bool) → String → Option (String × Option String)}

private theorem plain_hands (op : Op) (plain : Op.plain op) : Op.hands host clientArgs op :=
  fun launch same => absurd same (plain_quiet op plain launch)

private theorem hands_started {launch : Launch} (hands : Hands host clientArgs launch) :
    Only (Op.hands host clientArgs) (do ofOutcome (← ask (.startClient launch)) : Method Unit) := by
  refine only_bind (only_ask ?_) fun _ => only_ofOutcome _
  rintro launch' same
  cases same
  exact hands

theorem startClient_hands (bootstrap : Bootstrap) (settings : LauncherSettings) (classpath : List String)
    (jvmProps : List (String × String)) (jvmParams : List String) : Only (Op.hands host clientArgs)
      (startClient host bootstrap settings classpath clientArgs jvmProps jvmParams) := by
  unfold startClient
  split
  · exact hands_started (.reflect classpath)
  · refine only_bind (only_ofOutcome _) fun canFork => ?_
    split
    · refine only_outcome fun command forked => hands_started ?_
      obtain ⟨executable,clientJvmArgs,-,-,rfl⟩ := forkLaunch_ok forked
      exact .fork _ _ _ _ _
    · split
      · exact only_throw _
      · refine only_bind (only_ask nofun) fun java => ?_
        split
        · exact only_pure _
        · exact only_throw _
        · refine only_outcome fun command built => hands_started ?_
          obtain ⟨clientJvmArgs,-,rfl⟩ := jvmLaunch_ok built
          exact .jvm _ _ _

theorem start_hands {args : List String} {options : OptionSet} {settings : LauncherSettings}
    (unforked : options.has "classpath" = false) (collected : getClientArgs host settings = .ok clientArgs) :
    Only (Op.hands host clientArgs) (start library host args options settings) := by
  have plain {α : Type} {p : Method α} (only : Only Op.plain p) : Only (Op.hands host clientArgs) p :=
    only_mono only plain_hands
  unfold start
  rw [unforked]
  refine only_bind (only_ofOutcome _) fun jvmProps => only_bind (only_ofOutcome _) fun _ => ?_
  refine only_bind (only_ask nofun) fun _ => only_bind (only_ofOutcome _) fun _ => ?_
  split
  · exact plain (postInstall_plain library host settings)
  · refine only_bind (plain (prepare_plain host)) fun prepared => ?_
    split
    · refine only_bind (only_attempt (plain (getBootstrap_plain library host))) fun fetched => ?_
      split
      · split
        · exact plain showFatalErrorDialog_plain
        · exact only_throw _
      · refine only_bind (only_ofOutcome _) fun bootstrap => ?_
        refine only_bind (only_ask nofun) fun _ => only_bind (only_ofOutcome _) fun _ => ?_
        refine only_bind (plain (jvmOutdated_plain host bootstrap)) fun outdated => ?_
        split
        · exact only_pure _
        · refine only_bind (only_ask nofun) fun _ => only_bind (only_ofOutcome _) fun _ => ?_
          refine only_bind (only_ofOutcome _) fun artifacts => ?_
          refine only_bind (plain (sync_plain library settings artifacts)) fun synced => ?_
          split
          · refine only_outcome fun args' same => ?_
            rw [collected] at same
            cases same
            refine only_bind (only_ofOutcome _) fun classpath => only_bind (only_ofOutcome _) fun jvmArgs => ?_
            exact startClient_hands bootstrap settings classpath jvmProps _
          · exact only_pure _
    · exact only_pure _

/-- Every client that `main` starts without `--classpath` is handed the arguments
    that it has collected. -/
theorem main_hands {args : List String} {options : OptionSet} {settings : LauncherSettings} {launch : Launch} {t : World}
    (parsed : library.parse (declaredOptions (getOs host.machine)) (parseApplicationURI args) = .ok options)
    (unforked : options.has "classpath" = false)
    (applied : stored.apply library.parseDouble host.reflect options = .ok settings)
    (collected : getClientArgs host settings = .ok clientArgs)
    (starts : Calls (Rereads library.sha256 locate stored) (main library host args) w (.startClient launch) t) :
    Hands host clientArgs launch := by
  have handing {α : Type} {p : Method α} {u : World} (only : Only (Op.hands host clientArgs) p) :
      Ensures (Rereads library.sha256 locate stored) (fun op _ => Op.hands host clientArgs op) p (fun _ _ => True) u :=
    ensures_only only trivial (fun _ _ hands _ => hands) fun _ _ _ _ _ _ _ => trivial
  have whole : Ensures (Rereads library.sha256 locate stored) (fun op _ => Op.hands host clientArgs op)
      (main library host args) (fun _ _ => True) w := by
    unfold main parseArgs
    rw [parsed]
    dsimp only
    by_cases help : options.has "help"
    · rw [if_pos help]
      exact trivial
    rw [if_neg help]
    by_cases configure : options.has "configure"
    · rw [pure_bind,if_pos configure]
      exact trivial
    rw [pure_bind,if_neg configure]
    refine ensures_perform nofun ?_
    rintro reply t ⟨rfl,rfl⟩
    rw [applied]
    refine ensures_handle (ensures_mono (handing (start_hands unforked collected)) ?_)
    rintro (thrown | finished) u -
    · exact handing (only_mono (startupFailed_plain options thrown) plain_hands)
    · exact trivial
  exact ensures_calls whole starts launch rfl

/-- What the child needs in order to start the client: no other option that ends
    it, one class path, settings that the options may override, and arguments. -/
structure Restarts (library : Library) (host : Host) (stored : LauncherSettings) (options : OptionSet)
    (clientArgs : List String) : Prop where
  helpless : options.has "help" = false
  unconfigured : options.has "configure" = false
  single : options.valuesOf "classpath" = []
  collects : ∃ settings, stored.apply library.parseDouble host.reflect options = .ok settings ∧
    getClientArgs host settings = .ok clientArgs

/-- The child starts the client with the arguments that it collects. -/
theorem child_starts {args : List String} {path : String} {options : OptionSet} (jopt : JoptSimple library classify)
    (parsed : library.parse (declaredOptions (getOs host.machine)) args = .ok options)
    (restarts : Restarts library host stored options clientArgs) :
    ∃ t, Calls (Rereads library.sha256 locate stored) (main library host ("--classpath" :: path :: args)) w
      (.startClient ⟨.REFLECT,splitPaths host.pathSeparator path,clientArgs⟩) t := by
  obtain ⟨helpless,unconfigured,single,settings,applied,collected⟩ := restarts
  have whole := parse_forked jopt (getOs host.machine) path args
  rw [parsed] at whole
  have forked : (detect "classpath" (some path) options).has "classpath" = true := by simp [detect,OptionSet.has]
  have value := (@valueOf_classpath options path (some path)).mpr ⟨single,rfl⟩
  refine ⟨w,?_⟩
  unfold main parseArgs
  rw [whole]
  simp only [Except.map]
  rw [has_detect (by decide),helpless,if_neg (by decide),pure_bind,has_detect (by decide),unconfigured,if_neg (by decide)]
  have loaded : Rereads library.sha256 locate stored .loadSettings w stored w := ⟨rfl,rfl⟩
  have trusted : Rereads library.sha256 locate stored (.setupTrustManager false) w (.ok ()) w := rfl
  refine calls_cons loaded ?_
  rw [← @apply_classpath _ _ _ _ path] at applied
  change Calls _ (ofOutcome (stored.apply _ _ _) >>= _) _ _ _
  rw [applied]
  simp only [start,forked,if_true,launchForked]
  refine calls_cons trusted ?_
  rw [value,collected]
  exact ⟨_,.refl⟩

/-- What the child may start. -/
def Restarted (library : Library) (host : Host) (stored : LauncherSettings) (path : String) (args : List String)
    (launch : Launch) : Prop :=
  ∃ options clientArgs, library.parse (declaredOptions (getOs host.machine)) args = .ok options ∧
    Restarts library host stored options clientArgs ∧
    launch = ⟨.REFLECT,splitPaths host.pathSeparator path,clientArgs⟩

/-- The branch for `--classpath` starts the client at most with the arguments
    that it collects. -/
private theorem forked_passes {path : String} {allowed : Launch → Prop} (options : OptionSet)
    (settings : LauncherSettings) (started : ∀ clientArgs, options.valuesOf "classpath" = [] →
      getClientArgs host settings = .ok clientArgs →
      allowed ⟨.REFLECT,splitPaths host.pathSeparator path,clientArgs⟩) :
    Ensures (Rereads library.sha256 locate stored) (fun op _ => ∀ launch, op = .startClient launch → allowed launch)
      (launchForked host (detect "classpath" (some path) options) settings) (fun _ _ => True) w := by
  have caught (thrown : Thrown) (u : World) : Ensures (Rereads library.sha256 locate stored)
      (fun op _ => ∀ launch, op = .startClient launch → allowed launch)
      (if thrown.isException then return () else throw thrown : Method Unit) (fun _ _ => True) u := by
    split <;> exact trivial
  refine ensures_perform nofun fun trusted t _ => ensures_outcome (fun _ _ => ?_) fun _ _ => trivial
  refine ensures_outcome (fun value named => ?_) fun _ _ => trivial
  obtain ⟨single,rfl⟩ := valueOf_classpath.mp named
  refine ensures_attempt (ensures_outcome (fun clientArgs collected => ?_) fun thrown _ => caught thrown t)
  refine ensures_perform ?_ ?_
  · rintro launch same
    cases same
    exact started clientArgs single collected
  · rintro (thrown | finished) u -
    · exact caught thrown u
    · exact trivial

/-- Nothing else is started by the child. -/
theorem child_started {args : List String} {path : String} {launch : Launch} {t : World}
    (jopt : JoptSimple library classify)
    (starts : Calls (Rereads library.sha256 locate stored) (main library host ("--classpath" :: path :: args)) w
      (.startClient launch) t) : Restarted library host stored path args launch := by
  have plainly {α : Type} {p : Method α} {u : World} (only : Only Op.plain p) :
      Ensures (Rereads library.sha256 locate stored)
        (fun op _ => ∀ launch, op = .startClient launch → Restarted library host stored path args launch) p
        (fun _ _ => True) u :=
    ensures_only only trivial (fun op _ plain _ launch same => absurd same (plain_quiet op plain launch))
      fun _ _ _ _ _ _ _ => trivial
  have whole : Ensures (Rereads library.sha256 locate stored)
      (fun op _ => ∀ launch, op = .startClient launch → Restarted library host stored path args launch)
      (main library host ("--classpath" :: path :: args)) (fun _ _ => True) w := by
    have split := parse_forked jopt (getOs host.machine) path args
    unfold main parseArgs
    rw [split]
    cases parsed : library.parse (declaredOptions (getOs host.machine)) args with
    | error thrown => exact ⟨nofun,fun _ _ _ => trivial⟩
    | ok options =>
      have forked : (detect "classpath" (some path) options).has "classpath" = true := by simp [detect,OptionSet.has]
      simp only [Except.map]
      rw [has_detect (by decide)]
      cases helpless : options.has "help" with
      | true => exact trivial
      | false =>
        rw [if_neg (by decide),pure_bind,has_detect (by decide)]
        cases unconfigured : options.has "configure" with
        | true => exact trivial
        | false =>
          rw [if_neg (by decide)]
          refine ensures_perform nofun ?_
          rintro reply t ⟨rfl,rfl⟩
          refine ensures_outcome (fun settings applied => ?_) fun _ _ => trivial
          have again := apply_classpath.symm.trans applied
          simp only [start,forked,if_true]
          refine ensures_handle (ensures_mono (forked_passes options settings ?_) ?_)
          · intro clientArgs single collected
            exact ⟨options,clientArgs,parsed,⟨helpless,unconfigured,single,settings,again,collected⟩,rfl⟩
          · rintro (thrown | finished) u -
            · exact plainly (startupFailed_plain _ thrown)
            · exact trivial
  exact ensures_calls whole starts launch rfl

/-! ## Agreement -/

/-- The child comes to start the client, and never with other arguments. -/
def Receives (library : Library) (host : Host) (locate : String → String) (stored : LauncherSettings) (w : World)
    (path : String) (clientArgs : List String) : Prop :=
  (∃ launch t, Calls (Rereads library.sha256 locate stored) (main library host ("--classpath" :: path :: clientArgs)) w
    (.startClient launch) t) ∧
  ∀ launch t, Calls (Rereads library.sha256 locate stored) (main library host ("--classpath" :: path :: clientArgs)) w
    (.startClient launch) t → launch = ⟨.REFLECT,splitPaths host.pathSeparator path,clientArgs⟩

theorem receives_iff (jopt : JoptSimple library classify) (path : String) :
    Receives library host locate stored w path clientArgs ↔
      ∃ options, library.parse (declaredOptions (getOs host.machine)) clientArgs = .ok options ∧
        Restarts library host stored options clientArgs := by
  constructor
  · rintro ⟨⟨launch,t,starts⟩,only⟩
    obtain ⟨options,received,parsed,restarts,rfl⟩ := child_started jopt starts
    have same := only _ t starts
    simp only [Launch.mk.injEq,true_and] at same
    exact ⟨options,parsed,same ▸ restarts⟩
  · rintro ⟨options,parsed,restarts⟩
    obtain ⟨t,starts⟩ := @child_starts library host locate stored w clientArgs classify clientArgs path options jopt parsed
      restarts
    refine ⟨⟨_,t,starts⟩,?_⟩
    rintro launch u started
    obtain ⟨options',received,parsed',restarts',rfl⟩ := child_started jopt started
    rw [parsed] at parsed'
    cases parsed'
    obtain ⟨settings,applied,collected⟩ := restarts.collects
    obtain ⟨settings',applied',collected'⟩ := restarts'.collects
    rw [applied] at applied'
    cases applied'
    rw [collected] at collected'
    cases collected'
    rfl

end

def flag (set : Bool) (argument : String) : List String := if set then [argument] else []

/-- The condition on the client arguments `base`, before the words of the
    environment and the flags are added: what the parser keeps of the whole list is
    `base` again, and `--debug` is found exactly when it was set, unless the
    difference of the lists makes up for the flag. -/
def RoundTrips (library : Library) (host : Host) (stored : LauncherSettings) (base : List String) (debug : Bool) :
    Prop :=
  ∃ options kept, library.parse (declaredOptions (getOs host.machine)) (base ++ environmentArgs host.runeliteArgs ++
      flag debug "--debug" ++ flag stored.safemode "--safe-mode") = .ok options ∧
    options.has "help" = false ∧ options.has "configure" = false ∧ options.valuesOf "classpath" = [] ∧
    (∃ settings, stored.apply library.parseDouble host.reflect options = .ok settings) ∧
    (if options.nonOptionArguments.isEmpty then stored.clientArguments else some options.nonOptionArguments) =
      some kept ∧
    if (stored.debug || options.has "debug") = debug then kept = base
    else if debug then kept ++ environmentArgs host.runeliteArgs = base ++ environmentArgs host.runeliteArgs ++ ["--debug"]
    else kept ++ environmentArgs host.runeliteArgs ++ ["--debug"] = base ++ environmentArgs host.runeliteArgs

/-- What follows the client arguments in the list of `getClientArgs`. -/
theorem getClientArgs_eq {host : Host} {settings : LauncherSettings} {base : List String}
    (given : settings.clientArguments = some base) : getClientArgs host settings = .ok (base ++
      environmentArgs host.runeliteArgs ++ flag settings.debug "--debug" ++ flag settings.safemode "--safe-mode") := by
  simp [getClientArgs,given,flag]

private theorem same_arguments {kept base words last : List String} {found debug : Bool} :
    kept ++ words ++ flag found "--debug" ++ last = base ++ words ++ flag debug "--debug" ++ last ↔
      if found = debug then kept = base
      else if debug then kept ++ words = base ++ words ++ ["--debug"]
      else kept ++ words ++ ["--debug"] = base ++ words := by
  rw [List.append_cancel_right_eq]
  cases found <;> cases debug <;> simp [flag]

section
variable {library : Library} {host : Host} {locate : String → String} {stored settings : LauncherSettings} {w : World}
  {clientArgs : List String} {classify : List (String × Bool) → String → Option (String × Option String)}

theorem roundTrips_iff {base : List String} {debug : Bool} :
    (∃ options, library.parse (declaredOptions (getOs host.machine)) (base ++ environmentArgs host.runeliteArgs ++
        flag debug "--debug" ++ flag stored.safemode "--safe-mode") = .ok options ∧
      Restarts library host stored options (base ++ environmentArgs host.runeliteArgs ++ flag debug "--debug" ++
        flag stored.safemode "--safe-mode")) ↔ RoundTrips library host stored base debug := by
  constructor
  · rintro ⟨options,parsed,helpless,unconfigured,single,settings,applied,collected⟩
    obtain ⟨debugging,safe,arguments,-⟩ := apply_ok applied
    cases given : settings.clientArguments with
    | none => simp [getClientArgs,given] at collected
    | some kept =>
      rw [getClientArgs_eq given,debugging,safe,Except.ok.injEq,same_arguments] at collected
      exact ⟨options,kept,parsed,helpless,unconfigured,single,⟨settings,applied⟩,arguments ▸ given,collected⟩
  · rintro ⟨options,kept,parsed,helpless,unconfigured,single,⟨settings,applied⟩,given,same⟩
    obtain ⟨debugging,safe,arguments,-⟩ := apply_ok applied
    refine ⟨options,parsed,helpless,unconfigured,single,settings,applied,?_⟩
    rw [getClientArgs_eq (arguments.trans given),debugging,safe,Except.ok.injEq,same_arguments]
    exact same

/-- The launch modes agree on the client's arguments exactly when the arguments
    survive the option parser of the child. -/
theorem modes_agree {args base clientArgs : List String} {options : OptionSet} (jopt : JoptSimple library classify)
    (parsed : library.parse (declaredOptions (getOs host.machine)) (parseApplicationURI args) = .ok options)
    (unforked : options.has "classpath" = false)
    (applied : stored.apply library.parseDouble host.reflect options = .ok settings)
    (given : settings.clientArguments = some base) (collected : getClientArgs host settings = .ok clientArgs) :
    (∀ launch t, Calls (Rereads library.sha256 locate stored) (main library host args) w (.startClient launch) t →
      Hands host clientArgs launch) ∧
    ∀ path, Receives library host locate stored w path clientArgs ↔
      RoundTrips library host stored base settings.debug := by
  refine ⟨fun launch t starts => main_hands parsed unforked applied collected starts,fun path => ?_⟩
  rw [getClientArgs_eq given,(apply_ok applied).2.1] at collected
  cases collected
  rw [receives_iff jopt]
  exact roundTrips_iff

private theorem joptParse_plain {classify : String → Option (String × Option String)} {requires : String → Bool}
    {args : List String} (rest : List String) (plain : ∀ arg ∈ args, arg ≠ "--" ∧ classify arg = none) :
    joptParse classify requires (args ++ rest) = (joptParse classify requires rest).map fun options =>
      { options with nonOptionArguments := args ++ options.nonOptionArguments } := by
  induction args with
  | nil =>
    rw [List.nil_append]
    cases joptParse classify requires rest <;> rfl
  | cons arg args ih =>
    obtain ⟨unended,unrecognized⟩ := plain arg List.mem_cons_self
    rw [List.cons_append,joptParse.eq_2,if_neg unended,unrecognized]
    dsimp only
    rw [ih fun other member => plain other (List.mem_cons_of_mem _ member)]
    cases joptParse classify requires rest <;> rfl

/-- The flags of the launcher: `--debug` is an option, `--safe-mode` is kept. -/
private theorem parse_flags (jopt : JoptSimple library classify) {args : List String} (debug safemode : Bool)
    (plain : ∀ arg ∈ args, arg ≠ "--" ∧ classify (declaredOptions (getOs host.machine)) arg = none) :
    library.parse (declaredOptions (getOs host.machine)) (args ++ flag debug "--debug" ++ flag safemode "--safe-mode") =
      .ok ⟨if debug then [("debug",none)] else [],args ++ flag safemode "--safe-mode"⟩ := by
  have known : classify (declaredOptions (getOs host.machine)) "--debug" = some ("debug",none) :=
    jopt.long _ "debug" (by simp [declaredOptions])
  have bare : ("debug",true) ∉ declaredOptions (getOs host.machine) := by
    unfold declaredOptions
    split <;> simp
  have unknown : classify (declaredOptions (getOs host.machine)) "--safe-mode" = none := by
    refine jopt.unrecognized _ "safe-mode" ?_ (by decide)
    unfold declaredOptions
    split <;> simp
  rw [List.append_assoc,jopt.parse,joptParse_plain _ plain]
  cases debug <;> cases safemode <;>
    simp [flag,joptParse,known,unknown,bare,Except.map,keep,detect]

/-- Among arguments that are no options of the launcher, those survive to which
    nothing is added that the child adds again. -/
theorem roundTrips_plain {base : List String} {options : OptionSet} (jopt : JoptSimple library classify)
    (applied : stored.apply library.parseDouble host.reflect options = .ok settings)
    (given : settings.clientArguments = some base)
    (plain : ∀ arg ∈ base ++ environmentArgs host.runeliteArgs,
      arg ≠ "--" ∧ classify (declaredOptions (getOs host.machine)) arg = none) :
    RoundTrips library host stored base settings.debug ↔
      environmentArgs host.runeliteArgs = [] ∧ stored.safemode = false := by
  obtain ⟨debugging,-,arguments,-⟩ := apply_ok applied
  have found : (stored.debug || settings.debug) = settings.debug := by simp [debugging]
  have parsed := @parse_flags library host classify jopt _ settings.debug stored.safemode plain
  have debugs : (⟨if settings.debug then [("debug",none)] else [],base ++ environmentArgs host.runeliteArgs ++
      flag stored.safemode "--safe-mode"⟩ : OptionSet).has "debug" = settings.debug := by
    cases settings.debug <;> simp [OptionSet.has]
  unfold RoundTrips
  rw [parsed]
  constructor
  · rintro ⟨options',kept,same,-,-,-,-,given',agree⟩
    cases same
    rw [debugs,found,if_pos rfl] at agree
    have added : environmentArgs host.runeliteArgs ++ flag stored.safemode "--safe-mode" = [] := by
      by_cases empty : (base ++ environmentArgs host.runeliteArgs ++ flag stored.safemode "--safe-mode").isEmpty
      · simp_all
      · rw [if_neg empty,Option.some.injEq,agree,List.append_assoc] at given'
        exact List.append_right_eq_self.mp given'
    simpa [flag] using added
  · rintro ⟨wordless,calm⟩
    have kept : (if base.isEmpty then stored.clientArguments else some base) = some base := by
      cases base with
      | cons arg rest => rfl
      | nil =>
        rw [given] at arguments
        split at arguments
        · exact arguments.symm
        · simp_all
    refine ⟨_,base,rfl,?_,?_,?_,?_,?_,?_⟩
    · cases settings.debug <;> simp [OptionSet.has]
    · cases settings.debug <;> simp [OptionSet.has]
    · cases settings.debug <;> simp [OptionSet.valuesOf]
    · refine apply_succeeds ?_
      cases settings.debug <;> simp [OptionSet.has]
    · simpa [wordless,calm,flag] using kept
    · rw [debugs,found,if_pos rfl]

end

/-- Options are found by their long names only. -/
private def longNames (declared : List (String × Bool)) (token : String) : Option (String × Option String) :=
  (declared.find? fun option => "--" ++ option.1 = token).map fun option => (option.1,none)

private def sampleLibrary : Library where
  sha256 _ := ""
  verifySignature _ _ := .ok true
  fromJson _ := .ok none
  parse declared args := joptParse (longNames declared) (fun option => (option,true) ∈ declared) args
  parseDouble _ := none
  showDouble _ := "1.0"

private theorem sample_jopt : JoptSimple sampleLibrary longNames where
  parse _ _ := rfl
  long declared option member := by
    cases found : declared.find? fun entry => "--" ++ entry.1 = "--" ++ option with
    | none =>
      obtain ⟨entry,listed,rfl⟩ := List.mem_map.mp member
      simpa using List.find?_eq_none.mp found entry listed
    | some entry =>
      have same : entry.1 = option := by simpa using List.find?_some found
      rw [longNames,found,Option.map_some,same]
  unrecognized declared option other _ := by
    have absent : (declared.find? fun entry => "--" ++ entry.1 = "--" ++ option) = none := by
      rw [List.find?_eq_none]
      intro entry listed same
      exact other (List.mem_map.mpr ⟨entry,listed,by simpa using same⟩)
    rw [longNames,absent,Option.map_none]

private def sampleWorld : World where
  files _ := none

theorem modes_agree_sample :
    Receives sampleLibrary sampleHost id {} sampleWorld "client.jar" ["--developer-mode","--debug"] := by
  have agree := @modes_agree sampleLibrary sampleHost id {} _ sampleWorld longNames ["--debug","--developer-mode"] _ _ _
    sample_jopt rfl rfl rfl rfl rfl
  refine (agree.2 "client.jar").mpr ⟨_,_,rfl,rfl,rfl,rfl,⟨_,rfl⟩,rfl,rfl⟩

/-- With safe mode in the settings file, the client of the child is told twice. -/
theorem safe_mode_twice :
    getClientArgs sampleHost { safemode := true } = .ok ["--safe-mode"] ∧
    (∃ t, Calls (Rereads sampleLibrary.sha256 id { safemode := true })
      (main sampleLibrary sampleHost ["--classpath","client.jar","--safe-mode"]) sampleWorld
      (.startClient ⟨.REFLECT,["client.jar"],["--safe-mode","--safe-mode"]⟩) t) ∧
    ¬ Receives sampleLibrary sampleHost id { safemode := true } sampleWorld "client.jar" ["--safe-mode"] := by
  have restarts : Restarts sampleLibrary sampleHost { safemode := true } { nonOptionArguments := ["--safe-mode"] }
      ["--safe-mode","--safe-mode"] := ⟨rfl,rfl,rfl,_,rfl,rfl⟩
  obtain ⟨t,starts⟩ := @child_starts sampleLibrary sampleHost id _ sampleWorld _ longNames ["--safe-mode"] "client.jar" _
    sample_jopt rfl restarts
  refine ⟨rfl,⟨t,starts⟩,?_⟩
  rintro ⟨-,only⟩
  cases only _ t starts

end OpenRune.ForkedArguments
