import OpenRune.Sync

/-!
# What the first pass selects

The first pass of `download` as a function of the hashes in the directory. A list
that names no source, no hash or no diff at all ends the pass with an exception, and
no plan is made.
-/
namespace OpenRune.Selection
open OpenRune.Java OpenRune.Beans OpenRune.Programs OpenRune.Operations OpenRune.Downloads OpenRune.Repository
  OpenRune.Sync

theorem deref_ok {α : Type} {reference : Option α} {value : α} (given : deref reference = .ok value) :
    reference = some value := by
  cases reference with
  | none => cases given
  | some other => cases given; rfl

theorem int32_add (m n : Int) : int32 (int32 m + n) = int32 (m + n) := Int.bmod_add_bmod

/-- The first pass of `download`. -/
def firstPass (artifacts : List Artifact) (nodiff : Bool) : Method Plan := artifacts.foldlM (planArtifact nodiff) {}

/-- The hash of the file, if it can be read. -/
def hashAt (sha256 : Bytes → String) (locate : String → String) (w : World) (name : String) : Option String :=
  match Node.hash sha256 (w.files (locate name)) with
  | .ok found => some found
  | .error _ => none

/-- An artifact with a name, and with diffs that name their sources. -/
structure Sourced (artifact : Artifact) : Prop where
  named : ∃ name, artifact.name = some name
  sources : ∀ entry ∈ artifact.diffs.getD [], ∃ diff fromName fromHash,
    entry = some diff ∧ diff.fromName = some fromName ∧ diff.fromHash = some fromHash

/-! ## Selecting -/

/-- The source of the diff is in place, with the hash that the diff names. -/
def usable (found : String → Option String) (diff : Diff) : Bool :=
  (diff.fromName.bind found).isSome && decide (diff.fromHash = diff.fromName.bind found)

/-- The last diff that is usable. -/
def selection (found : String → Option String) (nodiff : Bool) (artifact : Artifact) : Option Diff :=
  if nodiff then none else ((artifact.diffs.getD []).reduceOption.filter (usable found)).getLast?

/-- The artifacts whose files have another hash. -/
def outdated (found : String → Option String) (artifacts : List Artifact) : List Artifact :=
  artifacts.filter fun artifact => artifact.name.bind found ≠ artifact.hash

/-- The size of the diff that is selected, or of the artifact when none is. -/
def downloadSize (found : String → Option String) (nodiff : Bool) (artifact : Artifact) : Int :=
  ((selection found nodiff artifact).map Diff.size).getD artifact.size

/-- The plan with one more artifact that has been seen. -/
def planned (found : String → Option String) (nodiff : Bool) (plan : Plan) (artifact : Artifact) : Plan :=
  if artifact.name.bind found = artifact.hash then plan else {
    toDownload := plan.toDownload ++ [artifact]
    diffs := match selection found nodiff artifact with
      | some diff => (artifact,diff) :: plan.diffs
      | none => plan.diffs
    totalDownloadBytes := int32 (plan.totalDownloadBytes + downloadSize found nodiff artifact) }

theorem usable_iff {found : String → Option String} {diff : Diff} : usable found diff = true ↔
    ∃ fromName fromHash, diff.fromName = some fromName ∧ diff.fromHash = some fromHash ∧
      found fromName = some fromHash := by
  unfold usable
  cases diff.fromName with
  | none => simp
  | some fromName =>
    cases read : found fromName with
    | none => simp [read]
    | some hash => simp [read,eq_comm]

theorem selection_usable {found : String → Option String} {nodiff : Bool} {artifact : Artifact} {diff : Diff}
    (selected : selection found nodiff artifact = some diff) :
    nodiff = false ∧ some diff ∈ artifact.diffs.getD [] ∧ usable found diff = true := by
  unfold selection at selected
  cases nodiff with
  | true => cases selected
  | false =>
    have kept := List.mem_filter.mp (List.mem_of_getLast? selected)
    exact ⟨rfl,List.reduceOption_mem_iff.mp kept.1,kept.2⟩

/-- One more entry: the last one that is usable wins. -/
theorem select_entry (found : String → Option String) (before : List (Option Diff)) (diff : Diff) :
    ((before ++ [some diff]).reduceOption.filter (usable found)).getLast? =
      if usable found diff then some diff else (before.reduceOption.filter (usable found)).getLast? := by
  rw [List.reduceOption_append,List.filter_append]
  by_cases fits : usable found diff = true
  · simp [List.reduceOption_cons_of_some,fits]
  · simp [List.reduceOption_cons_of_some,fits]

/-- A plan for the artifacts that the first pass has seen. -/
structure Planned (found : String → Option String) (nodiff : Bool) (artifacts : List Artifact) (plan : Plan) : Prop where
  toDownload : plan.toDownload = outdated found artifacts
  diffs : ∀ artifact diff, (artifact,diff) ∈ plan.diffs → selection found nodiff artifact = some diff
  listed : ∀ artifact ∈ plan.toDownload, ∀ diff, selection found nodiff artifact = some diff →
    (artifact,diff) ∈ plan.diffs
  total : plan.totalDownloadBytes = int32 ((plan.toDownload.map (downloadSize found nodiff)).sum)

/-- The second pass looks up the diff that was selected. -/
theorem Planned.diff {found : String → Option String} {nodiff : Bool} {artifacts : List Artifact} {plan : Plan}
    (planned : Planned found nodiff artifacts plan) {artifact : Artifact} (member : artifact ∈ plan.toDownload) :
    plan.diff artifact = selection found nodiff artifact := by
  unfold Plan.diff
  cases chosen : plan.diffs.lookup artifact with
  | some diff =>
    obtain ⟨before,after,split,-⟩ := List.lookup_eq_some_iff.mp chosen
    exact (planned.diffs artifact diff (by simp [split])).symm
  | none =>
    cases selected : selection found nodiff artifact with
    | none => rfl
    | some diff =>
      have absent := List.lookup_eq_none_iff.mp chosen _ (planned.listed artifact member diff selected)
      simp at absent

theorem planned_nil (found : String → Option String) (nodiff : Bool) : Planned found nodiff [] {} :=
  ⟨rfl,fun _ _ member => absurd member List.not_mem_nil,fun _ member => absurd member List.not_mem_nil,rfl⟩

/-- An artifact that is in place changes nothing. -/
theorem planned_inPlace {found : String → Option String} {nodiff : Bool} {before : List Artifact} {plan : Plan}
    {artifact : Artifact} (planned : Planned found nodiff before plan)
    (inPlace : artifact.name.bind found = artifact.hash) : Planned found nodiff (before ++ [artifact]) plan :=
  ⟨by simp [planned.toDownload,outdated,inPlace],planned.diffs,planned.listed,planned.total⟩

/-- Another one is downloaded, with the diff that is selected. -/
theorem planned_outdated {found : String → Option String} {nodiff : Bool} {before : List Artifact} {plan : Plan}
    {artifact : Artifact} (planned : Planned found nodiff before plan)
    (different : artifact.name.bind found ≠ artifact.hash) : Planned found nodiff (before ++ [artifact]) {
      toDownload := plan.toDownload ++ [artifact]
      diffs := match selection found nodiff artifact with
        | some diff => (artifact,diff) :: plan.diffs
        | none => plan.diffs
      totalDownloadBytes := int32 (plan.totalDownloadBytes + downloadSize found nodiff artifact) } where
  toDownload := by simp [planned.toDownload,outdated,different]
  diffs := by
    intro other diff member
    cases selected : selection found nodiff artifact with
    | none => exact planned.diffs other diff (by simpa [selected] using member)
    | some chosen =>
      rw [selected] at member
      rcases List.mem_cons.mp member with here | before
      · cases here
        exact selected
      · exact planned.diffs other diff before
  listed := by
    intro other member diff selected
    rcases List.mem_append.mp member with before | new
    · have known := planned.listed other before diff selected
      split
      · exact List.mem_cons_of_mem _ known
      · exact known
    · obtain rfl := List.mem_singleton.mp new
      rw [selected]
      exact List.mem_cons_self
  total := by
    rw [planned.total,int32_add]
    simp

theorem planned_next {found : String → Option String} {nodiff : Bool} {before : List Artifact} {plan : Plan}
    (sofar : Planned found nodiff before plan) (artifact : Artifact) :
    Planned found nodiff (before ++ [artifact]) (planned found nodiff plan artifact) := by
  unfold planned
  split
  · next inPlace => exact planned_inPlace sofar inPlace
  · next different => exact planned_outdated sofar different

theorem planned_all (found : String → Option String) (nodiff : Bool) (artifacts : List Artifact) :
    Planned found nodiff artifacts (artifacts.foldl (planned found nodiff) {}) := by
  induction artifacts using List.reverseRecOn with
  | nil => exact planned_nil found nodiff
  | append_singleton before artifact ih =>
    rw [List.foldl_append,List.foldl_cons,List.foldl_nil]
    exact planned_next ih artifact

section
variable {sha256 : Bytes → String} {locate : String → String} {env : Environment launcher World} {w : World}
  (legible : Legible sha256 locate env)
include legible

theorem existingHash_found (name : String) : Ends env (existingHash name) (fun outcome t =>
    outcome = .ok (hashAt sha256 locate w name) ∧ hashAt sha256 locate t = hashAt sha256 locate w ∧
      (hashAt sha256 locate w name ≠ none → t = w)) w := by
  refine ensures_attempt (ensures_mono (read_spec legible name) ?_)
  rintro outcome t ⟨rfl,hashed⟩
  match node : t.files (locate name) with
  | none =>
    rw [node] at hashed
    cases hashed
    exact ⟨by simp [hashAt,node,Node.hash],rfl,fun _ => rfl⟩
  | some (.file content) =>
    rw [node] at hashed
    cases hashed
    exact ⟨by simp [hashAt,node,Node.hash],rfl,fun _ => rfl⟩
  | some .directory =>
    rw [node] at hashed
    cases hashed
    exact ⟨by simp [hashAt,node,Node.hash],rfl,fun _ => rfl⟩
  | some .damaged =>
    rw [node] at hashed
    cases hashed
    have unread : hashAt sha256 locate t name = none := by simp [hashAt,node,Node.hash]
    refine ensures_perform trivial ?_
    intro reply u reacts
    obtain ⟨gone,rfl⟩ : ∃ gone : Bool, u = if gone = true then t.set (locate name) none else t :=
      ⟨reply,legible.sound _ _ _ _ reacts⟩
    refine ⟨by rw [unread],?_,fun read => absurd unread read⟩
    funext other
    cases gone with
    | false => rfl
    | true =>
      by_cases here : locate other = locate name
      · simp [hashAt,here,node,Node.hash]
      · simp [hashAt,here]

/-- An entry is looked at, unless it is null or names no source; with a source and a
    hash the look does not fail. -/
theorem considerDiff_found (chosen entry : Option Diff) : Ends env (considerDiff chosen entry) (fun outcome t => t = w ∧
    (∀ next, outcome = .ok next → ∃ diff, entry = some diff ∧
      next = if usable (hashAt sha256 locate w) diff then some diff else chosen) ∧
    ∀ diff fromName fromHash, entry = some diff → diff.fromName = some fromName → diff.fromHash = some fromHash →
      outcome.isOk) w := by
  refine ensures_outcome ?_ fun thrown failed => ⟨rfl,nofun,fun diff _ _ given _ _ => by simp [given] at failed⟩
  intro diff present
  obtain rfl : entry = some diff := deref_ok present
  refine ensures_outcome ?_ fun thrown failed => ⟨rfl,nofun,?_⟩
  · intro fromName isSource
    have givenName : diff.fromName = some fromName := deref_ok isSource
    refine ensures_attempt (ensures_mono (read_spec legible fromName) ?_)
    rintro (thrown | oldhash) t ⟨rfl,hashed⟩
    · have unread : hashAt sha256 locate t fromName = none := by simp [hashAt,← hashed]
      have unusable : usable (hashAt sha256 locate t) diff = false := by simp [usable,givenName,unread]
      have kept : ∃ diff', some diff = some diff' ∧
          chosen = if usable (hashAt sha256 locate t) diff' then some diff' else chosen := ⟨diff,rfl,by simp [unusable]⟩
      rcases node_hash_error hashed.symm with rfl | rfl
      · exact ⟨rfl,fun next done => by cases done; exact kept,fun _ _ _ _ _ _ => rfl⟩
      · exact ⟨rfl,fun next done => by cases done; exact kept,fun _ _ _ _ _ _ => rfl⟩
    · have read : hashAt sha256 locate t fromName = some oldhash := by simp [hashAt,← hashed]
      refine ensures_outcome ?_ fun thrown failed => ⟨rfl,nofun,?_⟩
      · intro fromHash isExpected
        have expected : diff.fromHash = some fromHash := deref_ok isExpected
        refine ⟨rfl,?_,fun _ _ _ _ _ _ => rfl⟩
        rintro next ⟨⟩
        exact ⟨diff,rfl,by simp [usable,givenName,expected,read]⟩
      · rintro diff' _ fromHash ⟨⟩ _ given
        simp [given] at failed
  · rintro diff' fromName _ ⟨⟩ given _
    simp [given] at failed

theorem chooseDiff_found (nodiff : Bool) (artifact : Artifact) : Ends env (chooseDiff nodiff artifact) (fun outcome t => t = w ∧
    (∀ chosen, outcome = .ok chosen → chosen = selection (hashAt sha256 locate w) nodiff artifact) ∧
    (Sourced artifact → outcome.isOk)) w := by
  unfold chooseDiff selection
  cases nodiff with
  | true =>
    refine ⟨rfl,?_,fun _ => rfl⟩
    rintro chosen ⟨⟩
    rfl
  | false =>
    simp only [Bool.false_eq_true,if_false]
    let Seen : List (Option Diff) → Option Diff → World → Prop := fun rest chosen t => t = w ∧ ∃ before,
      before ++ rest = artifact.diffs.getD [] ∧
        chosen = (before.reduceOption.filter (usable (hashAt sha256 locate w))).getLast?
    have start : Seen (artifact.diffs.getD []) none w := ⟨rfl,[],rfl,rfl⟩
    refine ensures_foldlM start ?_ ?_
    · rintro entry rest chosen t ⟨rfl,before,split,rfl⟩
      refine ensures_mono (considerDiff_found legible _ entry) ?_
      rintro (thrown | next) u ⟨rfl,chooses,returns⟩
      · refine ⟨rfl,nofun,fun sourced => ?_⟩
        obtain ⟨diff,fromName,fromHash,present,name,hash⟩ := sourced.sources entry (by simp [← split])
        exact returns diff fromName fromHash present name hash
      · obtain ⟨diff,rfl,rfl⟩ := chooses next rfl
        exact ⟨rfl,before ++ [some diff],by simpa using split,(select_entry _ before diff).symm⟩
    · rintro chosen t ⟨rfl,before,whole,rfl⟩
      refine ⟨rfl,?_,fun _ => rfl⟩
      rintro chosen' ⟨⟩
      rw [← whole,List.append_nil]

/-- One turn of the first pass. What is in place is left alone. -/
theorem planArtifact_found (nodiff : Bool) (plan : Plan) (artifact : Artifact) :
    Ends env (planArtifact nodiff plan artifact) (fun outcome t =>
      (∀ plan', outcome = .ok plan' → plan' = planned (hashAt sha256 locate w) nodiff plan artifact) ∧
      hashAt sha256 locate t = hashAt sha256 locate w ∧ (Sourced artifact → outcome.isOk) ∧
      (Verified sha256 locate w artifact → t = w)) w := by
  refine ensures_outcome ?_ fun thrown failed => ⟨nofun,rfl,?_,fun _ => rfl⟩
  · intro name given
    have named : artifact.name = some name := deref_ok given
    refine ensures_bind (ensures_mono (existingHash_found legible name) ?_)
    rintro outcome t ⟨rfl,same,left⟩
    have unchanged (verified : Verified sha256 locate w artifact) : t = w := by
      obtain ⟨name',content,named',inPlace,_⟩ := verified
      rw [named] at named'
      cases named'
      exact left (by simp [hashAt,inPlace,Node.hash])
    have own : artifact.name.bind (hashAt sha256 locate w) = hashAt sha256 locate w name := by rw [named]; rfl
    dsimp only
    by_cases inPlace : hashAt sha256 locate w name = artifact.hash
    · rw [if_pos inPlace]
      refine ⟨?_,same,fun _ => rfl,unchanged⟩
      rintro plan' ⟨⟩
      exact (if_pos (own.trans inPlace)).symm
    · rw [if_neg inPlace]
      refine ensures_bind (ensures_mono (chooseDiff_found legible nodiff artifact) ?_)
      rintro (thrown | chosen) u ⟨rfl,chooses,returns⟩
      · exact ⟨nofun,same,returns,unchanged⟩
      · refine ⟨?_,same,fun _ => rfl,unchanged⟩
        rintro plan' ⟨⟩
        obtain rfl := chooses chosen rfl
        rw [same]
        exact (if_neg (own ▸ inPlace)).symm
  · rintro ⟨⟨name,named⟩,-⟩
    simp [named] at failed

/-- The first pass leaves every hash as it was, and a plan it returns is what the
    hashes say. With names and sources it returns one. -/
theorem firstPass_found (artifacts : List Artifact) (nodiff : Bool) : Ends env (firstPass artifacts nodiff) (fun outcome t =>
    (∀ plan, outcome = .ok plan → plan = artifacts.foldl (planned (hashAt sha256 locate w) nodiff) {}) ∧
      hashAt sha256 locate t = hashAt sha256 locate w ∧ ((∀ artifact ∈ artifacts, Sourced artifact) → outcome.isOk) ∧
      ((∀ artifact ∈ artifacts, Verified sha256 locate w artifact) → t = w)) w := by
  let found := hashAt sha256 locate w
  let Turn : List Artifact → Plan → World → Prop := fun rest plan t => hashAt sha256 locate t = found ∧
    (∃ before, before ++ rest = artifacts ∧ plan = before.foldl (planned found nodiff) {}) ∧
      ((∀ artifact ∈ artifacts, Verified sha256 locate w artifact) → t = w)
  have start : Turn artifacts {} w := ⟨rfl,⟨[],rfl,rfl⟩,fun _ => rfl⟩
  refine ensures_foldlM start ?_ ?_
  · rintro artifact rest plan t ⟨same,⟨before,split,rfl⟩,unchanged⟩
    have member : artifact ∈ artifacts := by simp [← split]
    refine ensures_mono (planArtifact_found legible nodiff _ artifact) ?_
    rintro outcome u ⟨plans,same',returns,unchanged'⟩
    have still (verified : ∀ artifact ∈ artifacts, Verified sha256 locate w artifact) : u = w := by
      rw [unchanged' (unchanged verified ▸ verified artifact member)]
      exact unchanged verified
    cases outcome with
    | error thrown => exact ⟨nofun,same'.trans same,fun sourced => returns (sourced artifact member),still⟩
    | ok plan' =>
      refine ⟨same'.trans same,⟨before ++ [artifact],by simpa using split,?_⟩,still⟩
      rw [plans plan' rfl,same,List.foldl_append]
      rfl
  · rintro plan t ⟨same,⟨before,whole,rfl⟩,unchanged⟩
    refine ⟨?_,same,fun _ => rfl,unchanged⟩
    rintro plan' ⟨⟩
    rw [← whole,List.append_nil]

/-- The first pass plans what the hashes in the directory say. -/
theorem firstPass_planned {artifacts : List Artifact} (sourced : ∀ artifact ∈ artifacts, Sourced artifact) (nodiff : Bool) :
    Ends env (firstPass artifacts nodiff) (fun outcome t =>
      outcome = .ok (artifacts.foldl (planned (hashAt sha256 locate w) nodiff) {}) ∧
        ((∀ artifact ∈ artifacts, Verified sha256 locate w artifact) → t = w)) w := by
  refine ensures_mono (firstPass_found legible artifacts nodiff) ?_
  rintro (thrown | plan) t ⟨plans,-,returns,unchanged⟩
  · cases returns sourced
  · exact ⟨congrArg Except.ok (plans plan rfl),unchanged⟩

end

/-! ## What is put on record -/

/-- The requests of one operation. -/
def asked : Op → List (Option String)
  | .connect url => [url]
  | _ => []

/-- The reports of one operation. -/
def reports : Op → List (Int × Int)
  | .stage done total => [(done,total)]
  | _ => []

/-- Reports are what the first pass never makes. -/
def Silent : Op → Prop
  | .stage _ _ => False
  | _ => True

/-- What neither makes a request nor a report. -/
def Local : Op → Prop
  | .connect _ => False
  | .stage _ _ => False
  | _ => True

theorem local_silent (op : Op) (here : Local op) : Silent op := by
  cases op with
  | stage done total => exact here
  | _ => trivial

theorem local_asked {op : Op} (here : Local op) : asked op = [] := by
  cases op with
  | connect url => exact here.elim
  | _ => rfl

theorem reacts_recorded {sha256 : Bytes → String} {locate : String → String} {op : Op} {w w' : World}
    {reply : Reply op} (reacts : Reacts sha256 locate op w reply w') :
    w'.requests = w.requests ++ asked op ∧ w'.stages = w.stages ++ reports op := by
  have unrecorded : w.requests = w.requests ++ [] ∧ w.stages = w.stages ++ [] :=
    ⟨(List.append_nil _).symm,(List.append_nil _).symm⟩
  cases op with
  | delete name =>
    obtain ⟨gone,rfl⟩ : ∃ gone : Bool, w' = if gone = true then w.set (locate name) none else w := ⟨reply,reacts⟩
    cases gone with
    | true => exact unrecorded
    | false => exact unrecorded
  | newOutputStream name =>
    rcases reacts with ⟨-,-,rfl⟩ | ⟨-,rfl⟩
    · exact unrecorded
    · exact unrecorded
  | write name position buffer =>
    rcases reacts with ⟨-,rfl⟩ | ⟨-,n,rfl⟩
    · exact unrecorded
    · exact unrecorded
  | sendGet url =>
    cases reply with
    | ok body =>
      have recorded : w' = { w with served := w.served ++ [(url,body)] } := reacts
      rw [recorded]
      exact unrecorded
    | error thrown =>
      obtain rfl : w' = w := reacts
      exact unrecorded
  | isFile name | hash name =>
    obtain rfl : w' = w := reacts.1
    exact unrecorded
  | connect url =>
    obtain rfl : w' = { w with requests := w.requests ++ [url] } := reacts
    exact ⟨rfl,unrecorded.2⟩
  | stage done total =>
    obtain rfl : w' = { w with stages := w.stages ++ [(done,total)] } := reacts
    exact ⟨unrecorded.1,rfl⟩
  | checkPermissions =>
    obtain rfl : w' = { w with dialogs := w.dialogs + reply.dialogs } := reacts
    exact unrecorded
  | fatalErrorDialog =>
    obtain rfl : w' = { w with dialogs := w.dialogs + 1 } := reacts
    exact unrecorded
  | initJava | update bootstrap settings args | updateLauncherArgs bootstrap settings =>
    obtain ⟨files,rfl⟩ := reacts
    exact unrecorded
  | _ =>
    obtain rfl : w' = w := reacts
    exact unrecorded

theorem writeFile_local (name : String) (position : Nat) (buffer : Bytes) : Only Local (writeFile name position buffer) :=
  only_bind (only_ask trivial) fun _ => only_ofOutcome _

theorem newOutputStream_local (name : String) : Only Local (newOutputStream name) :=
  only_bind (only_ask trivial) fun _ => only_ofOutcome _

theorem patchFile_local {sha256 : Bytes → String} (name : String) (diff : Diff) (out : Bytes) :
    Only Local (patchFile sha256 name diff out) := by
  refine only_bind (only_ofOutcome _) fun old => only_bind (only_ask trivial) fun _ => ?_
  refine only_bind (only_ofOutcome _) fun _ => only_bind (newOutputStream_local name) fun _ => ?_
  refine only_bind (only_bind (only_ask trivial) fun delta => ?_) fun _ => only_pure _
  refine only_bind (only_foldlM ?_ _ _) fun _ => ?_
  · exact fun _ _ => only_bind (writeFile_local _ _ _) fun _ => only_pure _
  · split
    · exact only_throw _
    · exact only_pure _

theorem considerDiff_silent (chosen entry : Option Diff) : Only Silent (considerDiff chosen entry) := by
  refine only_bind (only_ofOutcome _) fun diff => only_bind (only_ofOutcome _) fun fromName => ?_
  refine only_bind (only_attempt (only_bind (only_ask trivial) fun _ => only_ofOutcome _)) fun outcome => ?_
  split
  · split
    · exact only_pure _
    · exact only_throw _
  · exact only_bind (only_ofOutcome _) fun _ => only_pure _

theorem planArtifact_silent (nodiff : Bool) (plan : Plan) (artifact : Artifact) :
    Only Silent (planArtifact nodiff plan artifact) := by
  have existing (name : String) : Only Silent (existingHash name) := by
    refine only_bind (only_attempt (only_bind (only_ask trivial) fun _ => only_ofOutcome _)) fun outcome => ?_
    split
    · exact only_pure _
    · exact only_pure _
    · exact only_bind (only_ask trivial) fun _ => only_pure _
    · exact only_throw _
  refine only_bind (only_ofOutcome _) fun name => only_bind (existing name) fun found => ?_
  split
  · exact only_pure _
  · refine only_bind ?_ fun _ => only_pure _
    unfold chooseDiff
    split
    · exact only_pure _
    · exact only_foldlM considerDiff_silent _ _

/-! ## The pass -/

section
variable {sha256 : Bytes → String} {locate : String → String} {env : Environment launcher World} {w : World}
  {guard : Op → World → Prop} (quiet : ∀ op t, Silent op → guard op t) (legible : Legible sha256 locate env)
include quiet legible

/-- The first pass leaves every hash as it was, and a plan it returns is what the
    hashes say. -/
theorem firstPass_quiet (artifacts : List Artifact) (nodiff : Bool) :
    Ensures env guard (firstPass artifacts nodiff) (fun outcome t =>
      hashAt sha256 locate t = hashAt sha256 locate w ∧
        ∀ plan, outcome = .ok plan → Planned (hashAt sha256 locate w) nodiff artifacts plan) w := by
  have silent : Only Silent (firstPass artifacts nodiff) := only_foldlM (planArtifact_silent nodiff) _ _
  have kept : Ensures env guard (firstPass artifacts nodiff) (fun _ _ => True) w :=
    ensures_only silent trivial (fun op t allowed _ => quiet op t allowed) fun _ _ _ _ _ _ _ => trivial
  refine ensures_mono (ensures_and (firstPass_found legible artifacts nodiff) kept) ?_
  rintro outcome t ⟨⟨plans,same,-⟩,-⟩
  refine ⟨same,fun plan done => ?_⟩
  rw [plans plan done]
  exact planned_all _ nodiff artifacts

omit quiet in
theorem firstPass_ends (artifacts : List Artifact) (nodiff : Bool) : Ends env (firstPass artifacts nodiff)
    (fun outcome t => hashAt sha256 locate t = hashAt sha256 locate w ∧
      ∀ plan, outcome = .ok plan → Planned (hashAt sha256 locate w) nodiff artifacts plan) w :=
  firstPass_quiet (fun _ _ _ => trivial) legible artifacts nodiff

omit quiet in
/-- The first pass makes no directory. -/
theorem firstPass_plain (artifacts : List Artifact) (nodiff : Bool) : Ends env (firstPass artifacts nodiff)
    (fun _ t => ∀ path, w.files path ≠ some .directory → t.files path ≠ some .directory) w := by
  have syncs : Only Op.syncs (firstPass artifacts nodiff) := only_foldlM (planArtifact_syncs nodiff) _ _
  refine ensures_only syncs (fun _ plain => plain) (fun _ _ _ _ => trivial) ?_
  intro op t reply u allowed still reacts path plain
  exact reacts_plain (legible.sound _ _ _ _ reacts) allowed (still path plain)

end

/-- A run of the second pass, after what the first pass has planned, is one of the download. -/
theorem download_steps {sha256 : Bytes → String} {env : Environment launcher World} {artifacts : List Artifact}
    {nodiff : Bool} {plan : Plan} {w t u : World} {rest : Method Progress} (compatible : env .isCompatible w true w)
    (first : Runs env (firstPass artifacts nodiff) w (.ok plan) t)
    (second : Steps env (plan.toDownload.foldlM (fetchArtifact sha256 plan) ⟨0,plan.totalDownloadBytes⟩) t rest u) :
    Steps env (download sha256 artifacts nodiff) w (rest >>= fun _ => pure ()) u := by
  have same : (nodiff || !true) = nodiff := by rw [Bool.not_true,Bool.or_false]
  have passes := steps_after (f := fun plan => plan.toDownload.foldlM (fetchArtifact sha256 plan)
    ⟨0,plan.totalDownloadBytes⟩ >>= fun _ => (pure () : Method Unit)) first (steps_bind second _)
  unfold firstPass at passes
  rw [← same] at passes
  exact steps_cons compatible passes

/-! ## Surroundings for which a run is computed -/

/-- Every file operation succeeds that can; the servers, `gunzip` and the delta
    applier answer as given. -/
def surroundings (sha256 : Bytes → String) (locate : String → String) (answer : Option String → Connection)
    (unpack : Bytes → Except Thrown Unit) (apply : World → String → Bytes → Delta) : Handler launcher World
  | .isFile name, w => (Node.isFile (w.files (locate name)),w)
  | .delete name, w => (true,w.set (locate name) none)
  | .hash name, w => (Node.hash sha256 (w.files (locate name)),w)
  | .newOutputStream name, w =>
    if w.files (locate name) = some .directory then (.error .io,w) else (.ok (),w.set (locate name) (some (.file [])))
  | .write name position buffer, w =>
    (.ok (),w.set (locate name) (Node.overwrite position buffer (w.files (locate name))))
  | .connect url, w => (answer url,{ w with requests := w.requests ++ [url] })
  | .gunzip bytes, w => (unpack bytes,w)
  | .applyDelta old patch, w => (apply w old patch,w)
  | op, w => calm sha256 (fun _ => []) [] op w

section
variable {sha256 : Bytes → String} {locate : String → String} {answer : Option String → Connection}
  {unpack : Bytes → Except Thrown Unit} {apply : World → String → Bytes → Delta}

theorem surroundings_reacts (op : Op) (w : World) :
    Reacts sha256 locate op w (surroundings sha256 locate answer unpack apply op w).1
      (surroundings sha256 locate answer unpack apply op w).2 := by
  have calmly := calm_reacts sha256 (fun _ => []) [] op w
  cases op with
  | isFile name => exact ⟨rfl,rfl⟩
  | delete name => exact rfl
  | hash name => exact ⟨rfl,.inl rfl⟩
  | newOutputStream name =>
    by_cases directory : w.files (locate name) = some .directory
    · simp only [surroundings,directory,if_true]
      exact .inr ⟨⟨_,rfl⟩,rfl⟩
    · simp only [surroundings,directory,if_false]
      exact .inl ⟨rfl,directory,rfl⟩
  | write name position buffer => exact .inl ⟨rfl,rfl⟩
  | connect url => exact rfl
  | gunzip bytes => exact rfl
  | applyDelta old patch => exact rfl
  | stage done total => exact rfl
  | _ => exact calmly

theorem surroundings_legible :
    Legible sha256 locate (surroundings sha256 locate answer unpack apply).environment where
  sound := by
    intro op w reply t reacts
    have admitted := @surroundings_reacts sha256 locate answer unpack apply op w
    rw [show surroundings sha256 locate answer unpack apply op w = (reply,t) from reacts] at admitted
    exact admitted
  reads := by
    rintro name w reply t ⟨⟩
    rfl

theorem surroundings_writable :
    Writable sha256 locate (surroundings sha256 locate answer unpack apply).environment where
  sound := surroundings_legible.sound
  opens := by
    intro name w reply t reacts plain
    have opened : surroundings sha256 locate answer unpack apply (.newOutputStream name) w =
        (.ok (),w.set (locate name) (some (.file []))) := if_neg plain
    exact (congrArg Prod.fst (opened.symm.trans reacts)).symm
  writes := by
    rintro name position buffer w reply t ⟨⟩
    rfl

end
end OpenRune.Selection
