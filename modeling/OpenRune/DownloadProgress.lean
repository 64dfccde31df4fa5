import OpenRune.Selection

/-!
# Download progress

What `download` reports while bytes arrive, against the total it reports. The
bytes done leave room in the total for what is still planned, and every turn of
the second pass keeps that room, unless it wastes a diff.
-/
namespace OpenRune.DownloadProgress
open OpenRune.Java OpenRune.Beans OpenRune.Programs OpenRune.Operations OpenRune.Downloads OpenRune.Repository
  OpenRune.Sync OpenRune.Selection

/-! ## Servers -/

/-- An artifact of the list, or one of its diffs, has this path and this size. -/
def Declares (artifacts : List Artifact) (path : Option String) (size : Int) : Prop :=
  ∃ artifact ∈ artifacts, (artifact.path = path ∧ artifact.size = size) ∨
    ∃ diff, some diff ∈ artifact.diffs.getD [] ∧ diff.path = path ∧ diff.size = size

/-- Surroundings in which a file that can be read is read, a read of a body brings
    a byte at least, and a body has the declared size, or no more than that when
    it breaks off. Everything else may fail, and answer as it likes. -/
structure Measured (sha256 : Bytes → String) (locate : String → String) (artifacts : List Artifact)
    (env : Environment launcher World) : Prop where
  legible : Legible sha256 locate env
  pieces : ∀ path w reads cut w', env (.connect path) w (.stream reads cut) w' → [] ∉ reads
  whole : ∀ path size, Declares artifacts path size → ∀ w reads w',
    env (.connect path) w (.stream reads false) w' → (reads.flatten.length : Int) = size
  brokenOff : ∀ path size, Declares artifacts path size → ∀ w reads w',
    env (.connect path) w (.stream reads true) w' → (reads.flatten.length : Int) ≤ size

/-- Sizes are not negative. -/
structure Sized (artifact : Artifact) : Prop where
  full : 0 ≤ artifact.size
  diffs : ∀ diff, some diff ∈ artifact.diffs.getD [] → 0 ≤ diff.size

/-- A diff that has arrived patches the artifact, whenever that is tried. -/
structure Patches (sha256 : Bytes → String) (env : Environment launcher World) (artifact : Artifact) (diff : Diff) :
    Prop where
  unpacks : ∀ out w reply w', diff.hash = some (sha256 out) → env (.gunzip out) w reply w' → reply = .ok ()
  opens : ∀ name w reply w', artifact.name = some name → env (.newOutputStream name) w reply w' → reply = .ok ()
  applies : ∀ old out w (delta : Delta) w', diff.fromName = some old → diff.hash = some (sha256 out) →
    env (.applyDelta old out) w delta w' → delta.stopped = none ∧
      ∀ expected, artifact.hash = some expected → expected = sha256 delta.writes.flatten
  writes : ∀ name position buffer w reply w', artifact.name = some name →
    env (.write name position buffer) w reply w' → reply = .ok ()

/-- The bytes done are never negative and never more than the total. -/
def InRange (env : Environment launcher World) (program : Method Unit) (w : World) : Prop :=
  ∀ done total t, Calls env program w (.stage done total) t → 0 ≤ done ∧ done ≤ total

/-- The bytes of an artifact and of the diff that is selected for it. -/
def weight (found : String → Option String) (nodiff : Bool) (artifact : Artifact) : Int :=
  artifact.size + ((selection found nodiff artifact).map Diff.size).getD 0

/-- What the total grows by if the diff turns out to be of no use. -/
def extra (found : String → Option String) (nodiff : Bool) (artifact : Artifact) : Int :=
  weight found nodiff artifact - downloadSize found nodiff artifact

/-- There are bytes to report for the artifact. -/
def Shows (found : String → Option String) (nodiff : Bool) (artifact : Artifact) : Prop :=
  0 < artifact.size ∨ ∃ diff, selection found nodiff artifact = some diff ∧ 0 < diff.size

theorem declares_artifact {artifacts : List Artifact} {artifact : Artifact} (member : artifact ∈ artifacts) :
    Declares artifacts artifact.path artifact.size := ⟨artifact,member,.inl ⟨rfl,rfl⟩⟩

theorem declares_selected {found : String → Option String} {nodiff : Bool} {artifacts : List Artifact}
    {artifact : Artifact} {diff : Diff} (member : artifact ∈ artifacts)
    (selected : selection found nodiff artifact = some diff) : Declares artifacts diff.path diff.size :=
  ⟨artifact,member,.inr ⟨diff,(selection_usable selected).2.1,rfl,rfl⟩⟩

section
variable {found : String → Option String} {nodiff : Bool} {artifact : Artifact} {diff : Diff}

theorem downloadSize_some (selected : selection found nodiff artifact = some diff) :
    downloadSize found nodiff artifact = diff.size := by simp [downloadSize,selected]

theorem downloadSize_none (selected : selection found nodiff artifact = none) :
    downloadSize found nodiff artifact = artifact.size := by simp [downloadSize,selected]

theorem weight_some (selected : selection found nodiff artifact = some diff) :
    weight found nodiff artifact = artifact.size + diff.size := by simp [weight,selected]

theorem weight_none (selected : selection found nodiff artifact = none) :
    weight found nodiff artifact = artifact.size := by simp [weight,selected]

theorem downloadSize_nonneg (sized : Sized artifact) : 0 ≤ downloadSize found nodiff artifact := by
  cases selected : selection found nodiff artifact with
  | none => rw [downloadSize_none selected]; exact sized.full
  | some diff => rw [downloadSize_some selected]; exact sized.diffs diff (selection_usable selected).2.1

theorem extra_nonneg (sized : Sized artifact) : 0 ≤ extra found nodiff artifact := by
  have full := sized.full
  cases selected : selection found nodiff artifact with
  | none => rw [extra,weight_none selected,downloadSize_none selected]; omega
  | some diff => rw [extra,weight_some selected,downloadSize_some selected]; omega

theorem size_le_weight (sized : Sized artifact) : artifact.size ≤ weight found nodiff artifact := by
  cases selected : selection found nodiff artifact with
  | none => rw [weight_none selected]
  | some diff =>
    have size := sized.diffs diff (selection_usable selected).2.1
    rw [weight_some selected]
    omega

theorem weight_nonneg (sized : Sized artifact) : 0 ≤ weight found nodiff artifact := by
  have size : 0 ≤ downloadSize found nodiff artifact := downloadSize_nonneg sized
  have more : 0 ≤ extra found nodiff artifact := extra_nonneg sized
  unfold extra at more
  omega

end

/-! ## Reports -/

/-- What is asked of every report. -/
def Reported : Op → World → Prop
  | .stage done total, _ => 0 ≤ done ∧ done ≤ total
  | _, _ => True

theorem reported_silent (op : Op) (t : World) (silent : Silent op) : Reported op t := by
  cases op with
  | stage done total => exact silent.elim
  | _ => exact trivial

/-- Every report on so many bytes is in range. -/
def Fits (total totalBytes size : Int) : Prop :=
  ∀ completed, 0 < completed → completed ≤ size →
    0 ≤ int32 (total + completed) ∧ int32 (total + completed) ≤ totalBytes

theorem fits_nothing {total totalBytes size : Int} (nothing : size ≤ 0) : Fits total totalBytes size := by
  intro completed positive within
  omega

theorem fits_room {total totalBytes size : Int} (low : 0 ≤ total) (room : total + size ≤ totalBytes)
    (bound : totalBytes < 2 ^ 31) : Fits total totalBytes size := by
  intro completed positive within
  rw [int32_eq (by omega) (by omega)]
  omega

section
variable {sha256 : Bytes → String} {locate : String → String} {artifacts : List Artifact}
  {env : Environment launcher World} {w : World}

theorem showProgress_reported {total totalBytes size completed : Int} (fits : Fits total totalBytes size)
    (positive : 0 < completed) (within : completed ≤ size) :
    Ensures env Reported (showProgress total totalBytes completed) (fun _ _ => True) w :=
  ⟨fits completed positive within,fun _ _ _ => trivial⟩

/-- What can only be silent reports nothing that is out of range. -/
theorem ensures_silent {α : Type} {p : Method α} (only : Only Silent p) :
    Ensures env Reported p (fun _ _ => True) w :=
  ensures_only only trivial (fun op t silent _ => reported_silent op t silent) fun _ _ _ _ _ _ _ => trivial

/-- The loop reports what it has read, which stays within the size of the body. -/
theorem downloadTo_reported {connect : Method Connection} {hash : Option String} {progress : Int → Method Unit}
    {write : Nat → Bytes → Method Unit} {size : Int} (small : size < 2 ^ 31)
    (connects : Ensures env Reported connect (fun outcome _ => ∀ reads cut, outcome = .ok (.stream reads cut) →
      [] ∉ reads ∧ (reads.flatten.length : Int) ≤ size) w)
    (writes : ∀ position buffer t, Ensures env Reported (write position buffer) (fun _ _ => True) t)
    (progresses : ∀ completed t, 0 < completed → completed ≤ size →
      Ensures env Reported (progress completed) (fun _ _ => True) t) :
    Ensures env Reported (downloadTo sha256 connect hash progress write)
      (fun outcome _ => ∀ bytes, outcome = .ok bytes → hash = some (sha256 bytes)) w := by
  refine ensures_bind (ensures_mono connects ?_)
  rintro (thrown | connection) t body
  · exact nofun
  rcases connection with thrown | - | ⟨reads,cut⟩
  · exact nofun
  · exact nofun
  obtain ⟨pieces,sized⟩ := body reads cut rfl
  let Read : List Bytes → Bytes × Int → World → Prop := fun rest sofar _ =>
    [] ∉ rest ∧ sofar.2 = sofar.1.length ∧ (sofar.1.length : Int) + rest.flatten.length ≤ size
  have start : Read reads ([],0) t := ⟨pieces,rfl,by simpa using sized⟩
  refine ensures_bind (ensures_foldlM start ?_ ?_)
  · rintro buffer rest ⟨sofar,count⟩ u ⟨pieces,same,sized⟩
    obtain rfl : count = sofar.length := same
    have nonempty : 0 < buffer.length := by
      have : buffer ≠ [] := fun empty => pieces (empty ▸ List.mem_cons_self)
      exact List.length_pos_of_ne_nil this
    have more : (sofar.length : Int) + buffer.length + rest.flatten.length ≤ size := by
      rw [List.flatten_cons,List.length_append] at sized
      push_cast at sized
      omega
    have exact32 : int32 ((sofar.length : Int) + buffer.length) = sofar.length + buffer.length :=
      int32_eq (by omega) (by omega)
    refine ensures_bind (ensures_mono (writes sofar.length buffer u) ?_)
    rintro (thrown | done) v -
    · exact nofun
    refine ensures_bind (ensures_mono (progresses _ v ?_ ?_) ?_)
    · rw [exact32]; omega
    · rw [exact32]; omega
    · rintro (thrown | done) x -
      · exact nofun
      · refine ⟨fun member => pieces (List.mem_cons_of_mem _ member),?_,?_⟩
        · rw [exact32]
          simp
        · rw [List.length_append]
          push_cast
          exact more
  · intro sofar u _
    dsimp only
    split
    · exact nofun
    · refine ensures_outcome ?_ fun _ _ => nofun
      intro expected given
      split
      · rename_i same
        intro bytes ended
        cases ended
        rw [deref_ok given,same]
      · exact nofun

variable (measured : Measured sha256 locate artifacts env)
include measured

theorem connect_reported {path : Option String} {size : Int} (declares : Declares artifacts path size) :
    Ensures env Reported (ask (.connect path)) (fun outcome _ => ∀ reads cut, outcome = .ok (.stream reads cut) →
      [] ∉ reads ∧ (reads.flatten.length : Int) ≤ size) w := by
  refine ⟨trivial,?_⟩
  rintro reply t reacts reads cut ⟨⟩
  refine ⟨measured.pieces _ _ _ _ _ reacts,?_⟩
  cases cut with
  | false => exact (measured.whole path size declares _ _ _ reacts).le
  | true => exact measured.brokenOff path size declares _ _ _ reacts

/-! ## One turn -/

omit measured in
/-- Where patching works, the file gets the hash of the artifact, unless no source
    is named at all. -/
theorem patchFile_patches {artifact : Artifact} {name : String} {diff : Diff} {out : Bytes}
    (patches : Patches sha256 env artifact diff) (named : artifact.name = some name)
    (arrived : diff.hash = some (sha256 out)) : Ends env (patchFile sha256 name diff out) (fun outcome _ =>
      (∀ thrown, outcome = .error thrown → thrown = .unchecked) ∧
        ∀ patched, outcome = .ok patched → ∀ expected, artifact.hash = some expected → expected = patched) w := by
  cases source : diff.fromName with
  | none =>
    unfold patchFile
    rw [source]
    refine ⟨?_,nofun⟩
    rintro thrown ⟨⟩
    rfl
  | some old =>
  unfold patchFile
  rw [source]
  refine ensures_perform trivial ?_
  intro reply t unpacked
  obtain rfl := patches.unpacks out _ _ _ arrived unpacked
  refine ensures_outcome (fun _ _ => ?_) nofun
  refine ensures_bind (ensures_perform trivial ?_)
  intro reply u opened
  obtain rfl := patches.opens name _ _ _ named opened
  refine ensures_bind (ensures_perform trivial ?_)
  intro (delta : Delta) v applied
  obtain ⟨finished,right⟩ := patches.applies old out _ delta _ source arrived applied
  let Written : List Bytes → Bytes → World → Prop := fun rest sofar _ => sofar ++ rest.flatten = delta.writes.flatten
  have start : Written delta.writes [] v := rfl
  refine ensures_bind (ensures_foldlM start ?_ ?_)
  · intro buffer rest sofar x split
    refine ensures_bind (ensures_perform trivial ?_)
    intro reply y wrote
    obtain rfl := patches.writes name _ _ _ _ _ named wrote
    exact (List.append_assoc _ _ _).trans split
  · intro written x whole
    have all : written = delta.writes.flatten := by simpa [Written] using whole
    dsimp only
    rw [finished]
    refine ⟨nofun,?_⟩
    rintro patched ⟨⟩
    rw [all]
    exact right

/-- Trying a diff: it has not arrived, or its bytes are done from now on. -/
theorem tryDiff_reported {artifact : Artifact} {name : String} {diff : Diff} {state : Progress}
    (named : artifact.name = some name) (declares : Declares artifacts diff.path diff.size)
    (small : diff.size < 2 ^ 31) (fits : Fits state.downloaded state.totalDownloadBytes diff.size) :
    Ensures env Reported (tryDiff sha256 artifact name diff state) (fun outcome _ => ∀ patched downloaded,
      outcome = .ok (patched,downloaded) → (patched = false ∧ downloaded = state.downloaded) ∨
        (downloaded = int32 (state.downloaded + diff.size) ∧ (Patches sha256 env artifact diff → patched = true))) w := by
  refine ensures_attempt (ensures_mono (downloadTo_reported small (connect_reported measured declares) ?_ ?_) ?_)
  · exact fun _ _ _ => trivial
  · exact fun completed t => showProgress_reported fits
  rintro (thrown | out) t arrived
  · unfold fallThrough
    dsimp only
    split
    · rintro patched downloaded ⟨⟩
      exact .inl ⟨rfl,rfl⟩
    · exact nofun
  have arrived := arrived out rfl
  have compared (patched : String) : Only Silent ((do
      let expected ← ofOutcome (deref artifact.hash)
      return decide (expected = patched)) : Method Bool) := only_bind (only_ofOutcome _) fun _ => only_pure _
  refine ensures_attempt ?_
  by_cases patches : Patches sha256 env artifact diff
  · refine ensures_bind (ensures_mono (ensures_and (patchFile_patches patches named arrived)
      (ensures_silent (only_mono (patchFile_local name diff out) local_silent))) ?_)
    rintro (thrown | patched) u ⟨⟨unchecked,right⟩,-⟩
    · rw [unchecked thrown rfl]
      exact nofun
    · refine ensures_outcome ?_ ?_
      · intro expected given
        rintro same downloaded ⟨⟩
        refine .inr ⟨rfl,fun _ => ?_⟩
        exact decide_eq_true (right patched rfl expected (deref_ok given))
      · intro thrown failed
        cases hashed : artifact.hash with
        | none => rw [hashed] at failed; cases failed; exact nofun
        | some hash => rw [hashed] at failed; cases failed
  · have whole : Only Silent ((do
        let patched ← patchFile sha256 name diff out
        let expected ← ofOutcome (deref artifact.hash)
        return decide (expected = patched)) : Method Bool) :=
      only_bind (only_mono (patchFile_local name diff out) local_silent) compared
    refine ensures_mono (ensures_silent whole) ?_
    rintro (thrown | same) u -
    · unfold fallThrough
      dsimp only
      split
      · rintro patched downloaded ⟨⟩
        exact .inr ⟨rfl,fun works => absurd works patches⟩
      · exact nofun
    · rintro patched downloaded ⟨⟩
      exact .inr ⟨rfl,fun works => absurd works patches⟩

/-- The full download reports from where the turn began. -/
theorem downloadFull_reported {artifact : Artifact} {name : String} {total : Int} {state : Progress}
    (member : artifact ∈ artifacts) (small : artifact.size < 2 ^ 31)
    (fits : Fits total state.totalDownloadBytes artifact.size) :
    Ensures env Reported (downloadFull sha256 artifact name total state) (fun outcome _ => ∀ state',
      outcome = .ok state' → state' = state ∨
        state' = { state with downloaded := int32 (state.downloaded + artifact.size) }) w := by
  refine ensures_bind (ensures_mono (ensures_silent (only_mono (newOutputStream_local name) local_silent)) ?_)
  rintro (thrown | opened) t -
  · exact nofun
  refine ensures_attempt (ensures_mono (downloadTo_reported small
    (connect_reported measured (declares_artifact member)) ?_ ?_) ?_)
  · exact fun position buffer u => ensures_silent (only_mono (writeFile_local name position buffer) local_silent)
  · exact fun completed u => showProgress_reported fits
  rintro outcome u -
  split
  · rintro state' ⟨⟩
    exact .inr rfl
  · rintro state' ⟨⟩
    exact .inl rfl
  · exact nofun

/-! ## The second pass -/

section
variable {found : String → Option String} {nodiff : Bool}

/-- The bytes done leave room for what is still planned, in a total that stays small. -/
structure Room (found : String → Option String) (nodiff : Bool) (rest : List Artifact) (state : Progress) : Prop where
  low : 0 ≤ state.downloaded
  room : state.downloaded + (rest.map (downloadSize found nodiff)).sum ≤ state.totalDownloadBytes
  bound : state.totalDownloadBytes + (rest.map (extra found nodiff)).sum < 2 ^ 31

/-- Between two turns there is room, or nothing more to report. -/
def Turn (found : String → Option String) (nodiff : Bool) (rest : List Artifact) (state : Progress) : Prop :=
  Room found nodiff rest state ∨ ∀ artifact ∈ rest, ¬ Shows found nodiff artifact

omit measured in
theorem sum_nonneg {size : Artifact → Int} {rest : List Artifact} (sizes : ∀ artifact ∈ rest, 0 ≤ size artifact) :
    0 ≤ (rest.map size).sum := by
  refine List.sum_nonneg ?_
  intro value member
  obtain ⟨artifact,inRest,rfl⟩ := List.mem_map.mp member
  exact sizes artifact inRest

omit measured in
theorem shows_nothing {artifact : Artifact} (nothing : ¬ Shows found nodiff artifact) :
    artifact.size ≤ 0 ∧ ∀ diff, selection found nodiff artifact = some diff → diff.size ≤ 0 := by
  constructor
  · by_contra positive
    exact nothing (.inl (by omega))
  · intro diff selected
    by_contra positive
    exact nothing (.inr ⟨diff,selected,by omega⟩)

/-- The artifact is downloaded whole, in a total that may have been adjusted. -/
theorem downloadFull_turn {artifact : Artifact} {rest : List Artifact} {name : String} {total : Int} {state : Progress}
    (member : artifact ∈ artifacts) (sizes : ∀ other ∈ artifact :: rest, Sized other) (low : 0 ≤ total)
    (later : state.downloaded = total ∨ ∀ other ∈ rest, ¬ Shows found nodiff other)
    (room : total + artifact.size + (rest.map (downloadSize found nodiff)).sum ≤ state.totalDownloadBytes)
    (bound : state.totalDownloadBytes + (rest.map (extra found nodiff)).sum < 2 ^ 31) :
    Ensures env Reported (downloadFull sha256 artifact name total state)
      (fun outcome _ => ∀ state', outcome = .ok state' → Turn found nodiff rest state') w := by
  have full := (sizes artifact List.mem_cons_self).full
  have planned : 0 ≤ (rest.map (downloadSize found nodiff)).sum :=
    sum_nonneg fun other inRest => downloadSize_nonneg (sizes other (List.mem_cons_of_mem _ inRest))
  have more : 0 ≤ (rest.map (extra found nodiff)).sum :=
    sum_nonneg fun other inRest => extra_nonneg (sizes other (List.mem_cons_of_mem _ inRest))
  refine ensures_mono (downloadFull_reported measured member (by omega) (fits_room low (by omega) (by omega))) ?_
  intro outcome t ends state' ended
  rcases later with same | silent
  · left
    rcases ends state' ended with rfl | rfl
    · exact ⟨by omega,by omega,bound⟩
    · have sum : int32 (state.downloaded + artifact.size) = state.downloaded + artifact.size :=
        int32_eq (by omega) (by omega)
      refine ⟨?_,?_,bound⟩
      · show 0 ≤ int32 (state.downloaded + artifact.size)
        rw [sum]
        omega
      · show int32 (state.downloaded + artifact.size) + _ ≤ state.totalDownloadBytes
        rw [sum]
        omega
  · exact .inr silent

/-- A turn with nothing to report reports nothing. -/
theorem fetchArtifact_nothing {plan : Plan} {artifact : Artifact} {state : Progress} (member : artifact ∈ artifacts)
    (chosen : plan.diff artifact = selection found nodiff artifact) (nothing : ¬ Shows found nodiff artifact) :
    Ensures env Reported (fetchArtifact sha256 plan state artifact) (fun _ _ => True) w := by
  obtain ⟨full,diffs⟩ := shows_nothing nothing
  have whole (name : String) (total : Int) (state : Progress) (t : World) :
      Ensures env Reported (downloadFull sha256 artifact name total state) (fun _ _ => True) t :=
    ensures_mono (downloadFull_reported measured member (by omega) (fits_nothing full)) fun _ _ _ => trivial
  refine ensures_outcome ?_ fun _ _ => trivial
  intro name given
  have named : artifact.name = some name := deref_ok given
  cases selected : selection found nodiff artifact with
  | none =>
    rw [chosen,selected]
    exact whole name state.downloaded state w
  | some diff =>
    rw [chosen,selected]
    have little := diffs diff selected
    refine ensures_bind (ensures_mono (tryDiff_reported measured named (declares_selected member selected)
      (by omega) (fits_nothing little)) ?_)
    rintro (thrown | ⟨patched,downloaded⟩) t -
    · trivial
    · dsimp only
      split
      · trivial
      · exact whole name state.downloaded _ t

/-- One turn: the bytes done stay within the total, unless a diff is wasted with
    nothing more to report. -/
theorem fetchArtifact_turn {plan : Plan} {artifact : Artifact} {rest : List Artifact} {state : Progress}
    (member : artifact ∈ artifacts) (sizes : ∀ other ∈ artifact :: rest, Sized other)
    (chosen : plan.diff artifact = selection found nodiff artifact)
    (spared : ∀ diff, selection found nodiff artifact = some diff → 0 < diff.size →
      ∀ other ∈ rest, Shows found nodiff other → Patches sha256 env artifact diff)
    (turn : Turn found nodiff (artifact :: rest) state) :
    Ensures env Reported (fetchArtifact sha256 plan state artifact)
      (fun outcome _ => ∀ state', outcome = .ok state' → Turn found nodiff rest state') w := by
  rcases turn with room | nothing
  case inr =>
    refine ensures_mono (fetchArtifact_nothing measured member chosen (nothing artifact List.mem_cons_self)) ?_
    exact fun outcome t _ state' _ => .inr fun other inRest => nothing other (List.mem_cons_of_mem _ inRest)
  have ⟨low,fits,bound⟩ := room
  simp only [List.map_cons,List.sum_cons] at fits bound
  have full := (sizes artifact List.mem_cons_self).full
  have planned : 0 ≤ (rest.map (downloadSize found nodiff)).sum :=
    sum_nonneg fun other inRest => downloadSize_nonneg (sizes other (List.mem_cons_of_mem _ inRest))
  have more : 0 ≤ (rest.map (extra found nodiff)).sum :=
    sum_nonneg fun other inRest => extra_nonneg (sizes other (List.mem_cons_of_mem _ inRest))
  refine ensures_outcome ?_ fun _ _ => nofun
  intro name given
  have named : artifact.name = some name := deref_ok given
  cases selected : selection found nodiff artifact with
  | none =>
    rw [chosen,selected]
    rw [extra,weight_none selected,downloadSize_none selected] at bound
    rw [downloadSize_none selected] at fits
    exact downloadFull_turn measured member sizes low (.inl rfl) (by omega) (by omega)
  | some diff =>
    rw [chosen,selected]
    rw [extra,weight_some selected,downloadSize_some selected] at bound
    rw [downloadSize_some selected] at fits
    have size := (sizes artifact List.mem_cons_self).diffs diff (selection_usable selected).2.1
    have sum : int32 (state.downloaded + diff.size) = state.downloaded + diff.size :=
      int32_eq (by omega) (by omega)
    have adjusted : int32 (int32 (state.totalDownloadBytes - diff.size) + artifact.size) =
        state.totalDownloadBytes - diff.size + artifact.size := by
      have less : int32 (state.totalDownloadBytes - diff.size) = state.totalDownloadBytes - diff.size :=
        int32_eq (by omega) (by omega)
      rw [less,int32_eq (by omega) (by omega)]
    refine ensures_bind (ensures_mono (tryDiff_reported measured named (declares_selected member selected)
      (by omega) (fits_room low (by omega) (by omega))) ?_)
    rintro (thrown | ⟨patched,downloaded⟩) t tried
    · exact nofun
    have full' (later : downloaded = state.downloaded ∨ ∀ other ∈ rest, ¬ Shows found nodiff other) :
        Ensures env Reported (downloadFull sha256 artifact name state.downloaded ⟨downloaded,
            int32 (int32 (state.totalDownloadBytes - diff.size) + artifact.size)⟩)
          (fun outcome _ => ∀ state', outcome = .ok state' → Turn found nodiff rest state') t := by
      rw [adjusted]
      exact downloadFull_turn measured member sizes low later (by simp only; omega) (by simp only; omega)
    dsimp only
    rcases tried patched downloaded rfl with ⟨rfl,rfl⟩ | ⟨rfl,works⟩
    · exact full' (.inl rfl)
    · cases patched with
      | true =>
        rintro state' ⟨⟩
        refine .inl ⟨?_,?_,?_⟩
        · show 0 ≤ int32 (state.downloaded + diff.size)
          rw [sum]
          omega
        · show int32 (state.downloaded + diff.size) + _ ≤ state.totalDownloadBytes
          rw [sum]
          omega
        · show state.totalDownloadBytes + _ < 2 ^ 31
          omega
      | false =>
        -- the diff has arrived and is of no use, so nothing may follow unless it is empty
        refine full' ?_
        by_cases empty : diff.size = 0
        · left
          rw [sum,empty]
          exact Int.add_zero _
        · right
          intro other inRest shows
          have impossible := works (spared diff selected (by omega) other inRest shows)
          cases impossible

/-- A diff of some size that is followed by more to report patches, once it has arrived. -/
def Spared (sha256 : Bytes → String) (env : Environment launcher World) (found : String → Option String)
    (nodiff : Bool) (toDownload : List Artifact) : Prop :=
  toDownload.Pairwise fun artifact other => ∀ diff, selection found nodiff artifact = some diff → 0 < diff.size →
    Shows found nodiff other → Patches sha256 env artifact diff

/-- The second pass, from any state with room for what is planned. -/
theorem secondPass_reported {plan : Plan} {state : Progress} (sizes : ∀ artifact ∈ artifacts, Sized artifact)
    (inList : plan.toDownload ⊆ artifacts)
    (chosen : ∀ artifact ∈ plan.toDownload, plan.diff artifact = selection found nodiff artifact)
    (spared : Spared sha256 env found nodiff plan.toDownload) (room : Room found nodiff plan.toDownload state) :
    Ensures env Reported (plan.toDownload.foldlM (fetchArtifact sha256 plan) state) (fun _ _ => True) w := by
  let Left : List Artifact → Progress → World → Prop := fun rest state _ =>
    rest ⊆ plan.toDownload ∧ Spared sha256 env found nodiff rest ∧ Turn found nodiff rest state
  have start : Left plan.toDownload state w := ⟨fun _ member => member,spared,.inl room⟩
  refine ensures_foldlM start ?_ fun _ _ _ => trivial
  rintro artifact rest state t ⟨remaining,spared,turn⟩
  have inPlan : artifact ∈ plan.toDownload := remaining List.mem_cons_self
  obtain ⟨here,later⟩ := List.pairwise_cons.mp spared
  refine ensures_mono (fetchArtifact_turn measured (inList inPlan)
    (fun other member => sizes other (inList (remaining member))) (chosen artifact inPlan) ?_ turn) ?_
  · exact fun diff selected size other inRest shows => here other inRest diff selected size shows
  · rintro (thrown | state') u next
    · trivial
    · exact ⟨fun other member => remaining (List.mem_cons_of_mem _ member),later,next state' rfl⟩

end

/-! ## Whole runs -/

section
variable {nodiff : Bool} {found : String → Option String}

omit measured in
/-- Without diffs there is less to download in all. -/
theorem weight_le {artifact : Artifact} (sized : Sized artifact) (incompatible : Bool) :
    weight found (nodiff || incompatible) artifact ≤ weight found nodiff artifact := by
  cases incompatible with
  | false => rw [Bool.or_false]
  | true =>
    have none' : selection found (nodiff || true) artifact = none := by simp [selection]
    rw [weight_none none']
    cases selected : selection found nodiff artifact with
    | none => rw [weight_none selected]
    | some diff =>
      have size := sized.diffs diff (selection_usable selected).2.1
      rw [weight_some selected]
      omega

omit measured in
theorem sum_weight (rest : List Artifact) : (rest.map (downloadSize found nodiff)).sum +
    (rest.map (extra found nodiff)).sum = (rest.map (weight found nodiff)).sum := by
  rw [← List.sum_map_add]
  congr 1
  refine List.map_congr_left fun artifact _ => ?_
  unfold extra
  omega

omit measured in
theorem spared_or {toDownload : List Artifact} (spared : Spared sha256 env found nodiff toDownload)
    (incompatible : Bool) : Spared sha256 env found (nodiff || incompatible) toDownload := by
  cases incompatible with
  | false => rwa [Bool.or_false]
  | true =>
    refine spared.imp fun _ diff selected => ?_
    simp [selection] at selected

omit measured in
/-- What the first pass has planned adds up to the total that it hands over. -/
theorem planned_total {plan : Plan} {incompatible : Bool} (sizes : ∀ artifact ∈ artifacts, Sized artifact)
    (bounded : ((outdated found artifacts).map (weight found nodiff)).sum < 2 ^ 31)
    (planned : Planned found (nodiff || incompatible) artifacts plan) :
    plan.totalDownloadBytes = (plan.toDownload.map (downloadSize found (nodiff || incompatible))).sum ∧
      Room found (nodiff || incompatible) plan.toDownload ⟨0,plan.totalDownloadBytes⟩ := by
  have inList : ∀ artifact ∈ plan.toDownload, Sized artifact := by
    intro artifact member
    rw [planned.toDownload] at member
    exact sizes artifact (List.mem_of_mem_filter member)
  have low : 0 ≤ (plan.toDownload.map (downloadSize found (nodiff || incompatible))).sum :=
    sum_nonneg fun artifact member => downloadSize_nonneg (inList artifact member)
  have more : 0 ≤ (plan.toDownload.map (extra found (nodiff || incompatible))).sum :=
    sum_nonneg fun artifact member => extra_nonneg (inList artifact member)
  have less : (plan.toDownload.map (weight found (nodiff || incompatible))).sum ≤
      ((outdated found artifacts).map (weight found nodiff)).sum := by
    rw [← planned.toDownload]
    exact List.sum_le_sum fun artifact member => weight_le (inList artifact member) incompatible
  have all := @sum_weight (nodiff || incompatible) found plan.toDownload
  have total : plan.totalDownloadBytes = (plan.toDownload.map (downloadSize found (nodiff || incompatible))).sum := by
    rw [planned.total]
    exact int32_eq (by omega) (by omega)
  refine ⟨total,le_refl _,?_,?_⟩
  · show 0 + _ ≤ plan.totalDownloadBytes
    omega
  · show plan.totalDownloadBytes + _ < 2 ^ 31
    omega

/-- Every report is in range, where the diffs that matter patch. -/
theorem download_reported (sizes : ∀ artifact ∈ artifacts, Sized artifact)
    (bounded : ((outdated (hashAt sha256 locate w) artifacts).map (weight (hashAt sha256 locate w) nodiff)).sum < 2 ^ 31)
    (spared : Spared sha256 env (hashAt sha256 locate w) nodiff (outdated (hashAt sha256 locate w) artifacts)) :
    Ensures env Reported (download sha256 artifacts nodiff) (fun _ _ => True) w := by
  refine ensures_perform trivial ?_
  intro isCompatible t reacts
  obtain rfl : t = w := measured.legible.sound _ _ _ _ reacts
  refine ensures_bind (ensures_mono (firstPass_quiet reported_silent measured.legible artifacts
    (nodiff || !isCompatible)) ?_)
  rintro (thrown | plan) u ⟨-,plans⟩
  · trivial
  have planned := plans plan rfl
  have inList : plan.toDownload ⊆ artifacts := by
    rw [planned.toDownload]
    exact fun artifact member => List.mem_of_mem_filter member
  refine ensures_bind (ensures_mono (secondPass_reported measured sizes inList (fun artifact => planned.diff)
    ?_ (planned_total sizes bounded planned).2) ?_)
  · rw [planned.toDownload]
    exact spared_or spared (!isCompatible)
  · rintro (thrown | state) v -
    · trivial
    · trivial

end
end
end OpenRune.DownloadProgress
