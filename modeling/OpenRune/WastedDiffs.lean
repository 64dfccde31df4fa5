import OpenRune.DownloadProgress

/-!
# Wasted diffs

The bytes of a diff that has arrived stay among the bytes done when the diff then
fails to patch, although its size is taken out of the total again. So later reports
can exceed the total: for some server they do whenever anything is left to report.
-/
namespace OpenRune.WastedDiffs
open OpenRune.Java OpenRune.Beans OpenRune.Programs OpenRune.Operations OpenRune.Downloads OpenRune.Repository
  OpenRune.Sync OpenRune.Selection OpenRune.DownloadProgress

/-! ## The reports of a run -/

/-- What is on record after a run was reported in its course. -/
theorem steps_reports {sha256 : Bytes → String} {locate : String → String} {env : Environment launcher World}
    {α : Type} {p q : Method α} {s t : World} (legible : Legible sha256 locate env) (steps : Steps env p s q t) :
    ∃ new, t.stages = s.stages ++ new ∧ ∀ done total, (done,total) ∈ new → ∃ u, Calls env p s (.stage done total) u := by
  induction steps with
  | refl => exact ⟨[],(List.append_nil _).symm,fun _ _ member => absurd member List.not_mem_nil⟩
  | @tail op next reply t u before reacts ih =>
    obtain ⟨new,same,called⟩ := ih
    refine ⟨new ++ reports op,?_,?_⟩
    · rw [(reacts_recorded (legible.sound _ _ _ _ reacts)).2,same,List.append_assoc]
    · intro done total member
      rcases List.mem_append.mp member with old | last
      · exact called done total old
      · cases op with
        | stage done' total' =>
          cases List.mem_singleton.mp last
          exact ⟨t,next,before⟩
        | _ => exact absurd last List.not_mem_nil

/-! ## Servers that are right, and diffs that do not unpack -/

/-- A body as it is read. -/
def pieces (body : Bytes) : List Bytes := if body = [] then [] else [body]

theorem pieces_flatten (body : Bytes) : (pieces body).flatten = body := by
  unfold pieces
  split
  · rename_i empty
    rw [empty]
    rfl
  · exact List.append_nil _

/-- Everything is served as declared, and no diff can be unpacked. -/
def stubborn (sha256 : Bytes → String) (locate : String → String) (serve : Option String → Bytes) :
    Handler launcher World :=
  surroundings sha256 locate (fun path => .stream (pieces (serve path)) false) (fun _ => .error .io) fun _ _ _ => ⟨[],none⟩

/-- The reports on a body. -/
def bodyReports (total totalBytes : Int) (body : Bytes) : List (Int × Int) :=
  if body = [] then [] else [(int32 (total + int32 body.length),totalBytes)]

section
variable {sha256 : Bytes → String} {locate : String → String} {serve : Option String → Bytes} {u : World}

theorem stubborn_measured {artifacts : List Artifact}
    (declared : ∀ path size, Declares artifacts path size → ((serve path).length : Int) = size) :
    Measured sha256 locate artifacts (stubborn sha256 locate serve).environment where
  legible := surroundings_legible
  pieces := by
    rintro path w reads cut w' ⟨⟩
    unfold pieces
    split
    · exact List.not_mem_nil
    · rename_i nonempty
      exact fun member => nonempty (List.mem_singleton.mp member).symm
  whole := by
    rintro path size declares w reads w' ⟨⟩
    rw [pieces_flatten]
    exact declared path size declares
  brokenOff := by
    rintro path size declares w reads w' ⟨⟩

theorem execute_showProgress (total totalBytes completed : Int) :
    ∃ v, execute (stubborn sha256 locate serve) (showProgress total totalBytes completed) u = (.ok (),v) ∧
      v.stages = u.stages ++ [(int32 (total + completed),totalBytes)] := ⟨_,rfl,rfl⟩

theorem execute_writeFile (name : String) (position : Nat) (buffer : Bytes) :
    ∃ v, execute (stubborn sha256 locate serve) (writeFile name position buffer) u = (.ok (),v) ∧
      v.stages = u.stages := ⟨_,rfl,rfl⟩

/-- A body that arrives whole with the right hash is reported and returned. -/
theorem execute_downloadTo {connect : Method Connection} {hash : Option String} {body : Bytes} {total totalBytes : Int}
    {write : Nat → Bytes → Method Unit} {connected : World}
    (connects : execute (stubborn sha256 locate serve) connect u = (.ok (.stream (pieces body) false),connected))
    (writes : ∀ position buffer u, ∃ v, execute (stubborn sha256 locate serve) (write position buffer) u = (.ok (),v) ∧
      v.stages = u.stages) (hashed : hash = some (sha256 body)) :
    ∃ v, execute (stubborn sha256 locate serve) (downloadTo sha256 connect hash (showProgress total totalBytes) write) u =
        (.ok body,v) ∧ v.stages = connected.stages ++ bodyReports total totalBytes body := by
  unfold downloadTo
  rw [execute_bind,connects]
  dsimp only
  rw [execute_bind,hashed]
  unfold pieces bodyReports
  by_cases empty : body = []
  · simp only [if_pos empty]
    refine ⟨connected,?_,(List.append_nil _).symm⟩
    show execute _ (if sha256 body = sha256 [] then pure [] else throw Thrown.verification : Method Bytes) connected = _
    rw [empty,if_pos rfl]
    rfl
  · simp only [if_neg empty]
    obtain ⟨v,wrote,same⟩ := writes 0 body connected
    obtain ⟨x,shown,reported⟩ := @execute_showProgress sha256 locate serve v total totalBytes (int32 (0 + body.length))
    have copied : execute (stubborn sha256 locate serve)
        (List.foldlM (copyBuffer (showProgress total totalBytes) write) ([],0) [body]) connected =
          (.ok (body,int32 (0 + body.length)),x) := by
      rw [List.foldlM_cons,execute_bind]
      unfold copyBuffer
      rw [execute_bind,List.length_nil,wrote]
      dsimp only
      rw [execute_bind,shown]
      rfl
    rw [copied]
    refine ⟨x,?_,?_⟩
    · show execute _ (if sha256 body = sha256 body then pure body else throw Thrown.verification : Method Bytes) x = _
      rw [if_pos rfl]
      rfl
    · rw [reported,same,Int.zero_add]

theorem execute_newOutputStream {name : String} (plain : u.files (locate name) ≠ some .directory) :
    ∃ v, execute (stubborn sha256 locate serve) (newOutputStream name) u = (.ok (),v) ∧ v.stages = u.stages := by
  have opened : stubborn sha256 locate serve (.newOutputStream name) u =
      (.ok (),u.set (locate name) (some (.file []))) := if_neg plain
  refine ⟨u.set (locate name) (some (.file [])),?_,rfl⟩
  show execute (stubborn sha256 locate serve) (ofOutcome (stubborn sha256 locate serve (.newOutputStream name) u).1)
    (stubborn sha256 locate serve (.newOutputStream name) u).2 = _
  rw [opened]
  rfl

theorem execute_downloadFull {artifact : Artifact} {name : String} {total : Int} {state : Progress}
    (hashed : artifact.hash = some (sha256 (serve artifact.path))) (plain : u.files (locate name) ≠ some .directory) :
    ∃ v, execute (stubborn sha256 locate serve) (downloadFull sha256 artifact name total state) u =
        (.ok { state with downloaded := int32 (state.downloaded + artifact.size) },v) ∧
      v.stages = u.stages ++ bodyReports total state.totalDownloadBytes (serve artifact.path) := by
  obtain ⟨t,opened,same⟩ := @execute_newOutputStream sha256 locate serve u name plain
  obtain ⟨v,arrived,reported⟩ := @execute_downloadTo sha256 locate serve t (ask (.connect artifact.path)) artifact.hash
    (serve artifact.path) total state.totalDownloadBytes (writeFile name) _ rfl
    (fun position buffer u => execute_writeFile name position buffer) hashed
  refine ⟨v,?_,by rw [reported]; exact congrArg (· ++ _) same⟩
  unfold downloadFull
  rw [execute_bind,opened]
  dsimp only
  rw [execute_bind,execute_attempt,arrived]
  rfl

/-- A diff arrives, and is of no use. -/
theorem execute_tryDiff {artifact : Artifact} {name fromName : String} {diff : Diff} {state : Progress}
    (hashed : diff.hash = some (sha256 (serve diff.path))) (source : diff.fromName = some fromName) :
    ∃ v, execute (stubborn sha256 locate serve) (tryDiff sha256 artifact name diff state) u =
        (.ok (false,int32 (state.downloaded + diff.size)),v) ∧
      v.stages = u.stages ++ bodyReports state.downloaded state.totalDownloadBytes (serve diff.path) := by
  obtain ⟨v,arrived,reported⟩ := @execute_downloadTo sha256 locate serve u (ask (.connect diff.path)) diff.hash
    (serve diff.path) state.downloaded state.totalDownloadBytes noWrite _ rfl (fun _ _ u => ⟨u,rfl,rfl⟩) hashed
  refine ⟨v,?_,reported⟩
  unfold tryDiff
  rw [execute_bind,execute_attempt,arrived]
  dsimp only
  rw [execute_bind,execute_attempt]
  unfold patchFile
  rw [source]
  rfl

/-- A turn of the second pass: both bodies are reported, each against its own total. -/
theorem execute_fetchArtifact {found : String → Option String} {nodiff : Bool} {plan : Plan} {artifact : Artifact}
    {name : String} {state : Progress} (named : artifact.name = some name)
    (chosen : plan.diff artifact = selection found nodiff artifact)
    (hashed : artifact.hash = some (sha256 (serve artifact.path)))
    (diffs : ∀ diff, selection found nodiff artifact = some diff → diff.hash = some (sha256 (serve diff.path)))
    (plain : u.files (locate name) ≠ some .directory) :
    ∃ v, execute (stubborn sha256 locate serve) (fetchArtifact sha256 plan state artifact) u =
        (.ok ⟨match selection found nodiff artifact with
            | some diff => int32 (int32 (state.downloaded + diff.size) + artifact.size)
            | none => int32 (state.downloaded + artifact.size),
          match selection found nodiff artifact with
            | some diff => int32 (int32 (state.totalDownloadBytes - diff.size) + artifact.size)
            | none => state.totalDownloadBytes⟩,v) ∧
      v.stages = u.stages ++ match selection found nodiff artifact with
        | some diff => bodyReports state.downloaded state.totalDownloadBytes (serve diff.path) ++
          bodyReports state.downloaded (int32 (int32 (state.totalDownloadBytes - diff.size) + artifact.size))
            (serve artifact.path)
        | none => bodyReports state.downloaded state.totalDownloadBytes (serve artifact.path) := by
  unfold fetchArtifact
  rw [named,chosen]
  cases selected : selection found nodiff artifact with
  | none => exact execute_downloadFull hashed plain
  | some diff =>
    obtain ⟨fromName,_,source,_⟩ := usable_iff.mp (selection_usable selected).2.2
    obtain ⟨t,tried,reported⟩ := @execute_tryDiff sha256 locate serve u artifact name fromName diff state
      (diffs diff selected) source
    have kept : Kept (locate name) u t :=
      ensures_runs (kept_spec surroundings_legible (tryDiff_only sha256 artifact diff state)) (execute_ran tried)
    obtain ⟨v,whole,reported'⟩ := @execute_downloadFull sha256 locate serve t artifact name state.downloaded
      ⟨int32 (state.downloaded + diff.size),
        int32 (int32 (state.totalDownloadBytes - diff.size) + artifact.size)⟩ hashed (kept.2 _ plain)
    refine ⟨v,?_,?_⟩
    · show execute _ (tryDiff sha256 artifact name diff state >>= _) u = _
      rw [execute_bind,tried]
      exact whole
    · rw [reported',reported,List.append_assoc]

theorem bodyReports_sized {total totalBytes size : Int} {body : Bytes} (sized : (body.length : Int) = size)
    (low : 0 ≤ total) (small : total + size < 2 ^ 31) :
    bodyReports total totalBytes body = if 0 < size then [(total + size,totalBytes)] else [] := by
  unfold bodyReports
  by_cases empty : body = []
  · have nothing : size = 0 := by rw [← sized,empty]; rfl
    rw [if_pos empty,nothing]
    rfl
  · have some' : 0 < body.length := List.length_pos_of_ne_nil empty
    have length : int32 (body.length : Int) = size := by
      rw [int32_eq (by omega) (by omega)]
      exact sized
    rw [if_neg empty,if_pos (by omega),length,int32_eq (by omega) (by omega)]

/-- The turn in numbers: the last report of a turn is out by what was wasted before. -/
theorem stubborn_turn {found : String → Option String} {nodiff : Bool} {plan : Plan} {artifact : Artifact}
    {name : String} {state : Progress} (sized : Sized artifact) (named : artifact.name = some name)
    (chosen : plan.diff artifact = selection found nodiff artifact)
    (hashed : artifact.hash = some (sha256 (serve artifact.path)))
    (full : ((serve artifact.path).length : Int) = artifact.size)
    (diffs : ∀ diff, selection found nodiff artifact = some diff →
      diff.hash = some (sha256 (serve diff.path)) ∧ ((serve diff.path).length : Int) = diff.size)
    (plain : u.files (locate name) ≠ some .directory) (low : 0 ≤ state.downloaded)
    (small : state.downloaded + weight found nodiff artifact < 2 ^ 31)
    (room : downloadSize found nodiff artifact ≤ state.totalDownloadBytes)
    (bound : state.totalDownloadBytes + extra found nodiff artifact < 2 ^ 31) :
    ∃ v new, execute (stubborn sha256 locate serve) (fetchArtifact sha256 plan state artifact) u =
        (.ok ⟨state.downloaded + weight found nodiff artifact,
          state.totalDownloadBytes - downloadSize found nodiff artifact + artifact.size⟩,v) ∧
      v.stages = u.stages ++ new ∧ (Shows found nodiff artifact → ∃ x, (state.downloaded + x,
        state.totalDownloadBytes - downloadSize found nodiff artifact + x) ∈ new) := by
  obtain ⟨v,ran,reported⟩ := @execute_fetchArtifact sha256 locate serve u found nodiff plan artifact name state named
    chosen hashed (fun diff selected => (diffs diff selected).1) plain
  have size := sized.full
  cases selected : selection found nodiff artifact with
  | none =>
    rw [weight_none selected] at small
    have sum : int32 (state.downloaded + artifact.size) = state.downloaded + artifact.size :=
      int32_eq (by omega) (by omega)
    simp only [selected,sum] at ran reported
    rw [bodyReports_sized full low small] at reported
    refine ⟨v,_,?_,reported,?_⟩
    · rw [ran,weight_none selected,downloadSize_none selected,Int.sub_add_cancel]
    · rintro (positive | ⟨diff,selected',_⟩)
      · refine ⟨artifact.size,?_⟩
        rw [if_pos positive,downloadSize_none selected,Int.sub_add_cancel]
        exact List.mem_singleton_self _
      · rw [selected] at selected'
        cases selected'
  | some diff =>
    have diffSize := sized.diffs diff (selection_usable selected).2.1
    rw [weight_some selected] at small
    rw [downloadSize_some selected] at room
    rw [extra,weight_some selected,downloadSize_some selected] at bound
    have first : int32 (state.downloaded + diff.size) = state.downloaded + diff.size := int32_eq (by omega) (by omega)
    have sum : int32 (state.downloaded + diff.size + artifact.size) = state.downloaded + diff.size + artifact.size :=
      int32_eq (by omega) (by omega)
    have less : int32 (state.totalDownloadBytes - diff.size) = state.totalDownloadBytes - diff.size :=
      int32_eq (by omega) (by omega)
    have adjusted : int32 (state.totalDownloadBytes - diff.size + artifact.size) =
        state.totalDownloadBytes - diff.size + artifact.size := int32_eq (by omega) (by omega)
    simp only [selected,first,sum,less,adjusted] at ran reported
    rw [bodyReports_sized full low (by omega),bodyReports_sized (diffs diff selected).2 low (by omega)] at reported
    refine ⟨v,_,?_,reported,?_⟩
    · rw [ran,weight_some selected,downloadSize_some selected]
      have order : state.downloaded + diff.size + artifact.size = state.downloaded + (artifact.size + diff.size) := by
        omega
      rw [order]
    · intro shows
      rw [downloadSize_some selected]
      by_cases positive : 0 < artifact.size
      · refine ⟨artifact.size,List.mem_append_right _ ?_⟩
        rw [if_pos positive]
        exact List.mem_singleton_self _
      · refine ⟨diff.size,List.mem_append_left _ ?_⟩
        rcases shows with positive' | ⟨diff',selected',positive'⟩
        · exact absurd positive' positive
        · rw [selected] at selected'
          cases selected'
          rw [if_pos positive',Int.sub_add_cancel]
          exact List.mem_singleton_self _

end

/-! ## Inputs for which some server exceeds the total -/

/-- Every body is served with the hash and the size that are declared for it. -/
structure Serves (sha256 : Bytes → String) (serve : Option String → Bytes) (artifacts : List Artifact) : Prop where
  full : ∀ artifact ∈ artifacts, artifact.hash = some (sha256 (serve artifact.path)) ∧
    ((serve artifact.path).length : Int) = artifact.size
  diffs : ∀ artifact ∈ artifacts, ∀ diff, some diff ∈ artifact.diffs.getD [] →
    diff.hash = some (sha256 (serve diff.path)) ∧ ((serve diff.path).length : Int) = diff.size

/-- A list that describes files there are, and a directory with room for them. -/
structure Genuine (sha256 : Bytes → String) (locate : String → String) (artifacts : List Artifact) (w : World) :
    Prop where
  sourced : ∀ artifact ∈ artifacts, Sourced artifact
  plain : Plain locate artifacts w
  served : ∃ serve, Serves sha256 serve artifacts

/-- No diff of some size is followed by more to report. -/
def Unfollowed (found : String → Option String) (nodiff : Bool) (toDownload : List Artifact) : Prop :=
  toDownload.Pairwise fun artifact other => ∀ diff, selection found nodiff artifact = some diff → 0 < diff.size →
    ¬ Shows found nodiff other

theorem exists_last {α : Type} {p : α → Prop} {items : List α} (present : ∃ item ∈ items, p item) :
    ∃ before last after, items = before ++ last :: after ∧ p last ∧ ∀ item ∈ after, ¬ p item := by
  induction items with
  | nil =>
    obtain ⟨item,member,_⟩ := present
    cases member
  | cons first rest ih =>
    by_cases later : ∃ item ∈ rest, p item
    · obtain ⟨before,last,after,rfl,holds,none⟩ := ih later
      exact ⟨first :: before,last,after,rfl,holds,none⟩
    · obtain ⟨item,member,holds⟩ := present
      rcases List.mem_cons.mp member with rfl | inRest
      · exact ⟨[],item,rest,rfl,holds,fun other inRest holds' => later ⟨other,inRest,holds'⟩⟩
      · exact absurd ⟨item,inRest,holds⟩ later

/-- The last artifact with anything to report, after a diff of some size. -/
theorem followed_last {found : String → Option String} {nodiff : Bool} {toDownload : List Artifact}
    (followed : ¬ Unfollowed found nodiff toDownload) : ∃ before last after, toDownload = before ++ last :: after ∧
      Shows found nodiff last ∧ (∀ other ∈ after, ¬ Shows found nodiff other) ∧
      ∃ artifact ∈ before, ∃ diff, selection found nodiff artifact = some diff ∧ 0 < diff.size := by
  induction toDownload with
  | nil => exact absurd List.Pairwise.nil followed
  | cons artifact rest ih =>
    by_cases later : Unfollowed found nodiff rest
    · have here : ∃ other ∈ rest, ∃ diff, selection found nodiff artifact = some diff ∧ 0 < diff.size ∧
          Shows found nodiff other := by
        by_contra none
        refine followed (List.pairwise_cons.mpr ⟨?_,later⟩)
        exact fun other inRest diff selected size shows => none ⟨other,inRest,diff,selected,size,shows⟩
      obtain ⟨other,inRest,diff,selected,size,shows⟩ := here
      obtain ⟨before,last,after,rfl,shows',silent⟩ := exists_last ⟨other,inRest,shows⟩
      exact ⟨artifact :: before,last,after,rfl,shows',silent,artifact,List.mem_cons_self,diff,selected,size⟩
    · obtain ⟨before,last,after,rfl,shows,silent,source,inBefore,diff⟩ := ih later
      exact ⟨artifact :: before,last,after,rfl,shows,silent,source,List.mem_cons_of_mem _ inBefore,diff⟩

/-- Where the second pass stands when every diff so far was wasted. -/
def wasting (found : String → Option String) (nodiff : Bool) (done rest : List Artifact) : Progress :=
  ⟨(done.map (weight found nodiff)).sum,(done.map Artifact.size).sum + (rest.map (downloadSize found nodiff)).sum⟩

section
variable {sha256 : Bytes → String} {locate : String → String} {serve : Option String → Bytes}
  {artifacts : List Artifact} {found : String → Option String} {nodiff : Bool} {plan : Plan}
  (serves : Serves sha256 serve artifacts) (sizes : ∀ artifact ∈ artifacts, Sized artifact)
  (names : ∀ artifact ∈ artifacts, ∃ name, artifact.name = some name) (inList : plan.toDownload ⊆ artifacts)
  (chosen : ∀ artifact ∈ plan.toDownload, plan.diff artifact = selection found nodiff artifact)
  (bounded : (plan.toDownload.map (weight found nodiff)).sum < 2 ^ 31)
include serves sizes names inList chosen bounded

/-- One turn among the others. -/
theorem wasting_turn {done rest : List Artifact} {artifact : Artifact} {u : World}
    (split : plan.toDownload = done ++ artifact :: rest) (plain : Plain locate artifacts u) :
    ∃ v new, execute (stubborn sha256 locate serve)
        (fetchArtifact sha256 plan (wasting found nodiff done (artifact :: rest)) artifact) u =
          (.ok (wasting found nodiff (done ++ [artifact]) rest),v) ∧ Plain locate artifacts v ∧
      v.stages = u.stages ++ new ∧ (Shows found nodiff artifact → ∃ x, ((done.map (weight found nodiff)).sum + x,
        (done.map Artifact.size).sum + (rest.map (downloadSize found nodiff)).sum + x) ∈ new) := by
  have inPlan : artifact ∈ plan.toDownload := by
    rw [split]
    exact List.mem_append_right _ List.mem_cons_self
  have sizedDone : ∀ other ∈ done, Sized other := fun other member =>
    sizes other (inList (by rw [split]; exact List.mem_append_left _ member))
  have sizedRest : ∀ other ∈ rest, Sized other := fun other member =>
    sizes other (inList (by rw [split]; exact List.mem_append_right _ (List.mem_cons_of_mem _ member)))
  have sized := sizes artifact (inList inPlan)
  have lowDone : 0 ≤ (done.map Artifact.size).sum := sum_nonneg fun other member => (sizedDone other member).full
  have lowRest : 0 ≤ (rest.map (downloadSize found nodiff)).sum :=
    sum_nonneg fun other member => downloadSize_nonneg (sizedRest other member)
  have moreRest : 0 ≤ (rest.map (extra found nodiff)).sum :=
    sum_nonneg fun other member => extra_nonneg (sizedRest other member)
  have lowWeight : 0 ≤ (done.map (weight found nodiff)).sum :=
    sum_nonneg fun other member => weight_nonneg (sizedDone other member)
  have lighter : (done.map Artifact.size).sum ≤ (done.map (weight found nodiff)).sum :=
    List.sum_le_sum fun other member => size_le_weight (sizedDone other member)
  have all := @sum_weight nodiff found rest
  rw [split,List.map_append,List.sum_append,List.map_cons,List.sum_cons] at bounded
  have whole : weight found nodiff artifact = downloadSize found nodiff artifact + extra found nodiff artifact := by
    unfold extra
    omega
  obtain ⟨name,named⟩ := names artifact (inList inPlan)
  obtain ⟨hashed,full⟩ := serves.full artifact (inList inPlan)
  obtain ⟨v,new,ran,reported,last⟩ := @stubborn_turn sha256 locate serve u found nodiff plan artifact name
    (wasting found nodiff done (artifact :: rest)) sized named (chosen artifact inPlan) hashed full
    (fun diff selected => serves.diffs artifact (inList inPlan) diff (selection_usable selected).2.1)
    (plain artifact (inList inPlan) name named) lowWeight (by simp only [wasting]; omega)
    (by simp only [wasting,List.map_cons,List.sum_cons]; omega)
    (by simp only [wasting,List.map_cons,List.sum_cons]; omega)
  have kept : Kept (locate name) u v :=
    ensures_runs (kept_spec surroundings_legible (fetchArtifact_only named)) (execute_ran ran)
  have total : (wasting found nodiff done (artifact :: rest)).totalDownloadBytes - downloadSize found nodiff artifact =
      (done.map Artifact.size).sum + (rest.map (downloadSize found nodiff)).sum := by
    simp only [wasting,List.map_cons,List.sum_cons]
    omega
  refine ⟨v,new,?_,?_,reported,?_⟩
  · rw [ran,total]
    simp only [wasting,List.map_append,List.sum_append,List.map_cons,List.map_nil,List.sum_cons,List.sum_nil]
    congr 3
    · omega
    · omega
  · exact fun other member otherName named => kept.2 _ (plain other member otherName named)
  · rw [total] at last
    exact last

/-- All turns up to a point. -/
theorem wasting_turns {before : List Artifact} : ∀ {done rest : List Artifact} {u : World},
    plan.toDownload = done ++ before ++ rest → Plain locate artifacts u →
    ∃ v, execute (stubborn sha256 locate serve)
        (before.foldlM (fetchArtifact sha256 plan) (wasting found nodiff done (before ++ rest))) u =
          (.ok (wasting found nodiff (done ++ before) rest),v) ∧ Plain locate artifacts v := by
  induction before with
  | nil =>
    intro done rest u _ plain
    refine ⟨u,?_,plain⟩
    rw [List.append_nil]
    rfl
  | cons artifact before ih =>
    intro done rest u split plain
    have here : plan.toDownload = done ++ artifact :: (before ++ rest) := by simpa using split
    obtain ⟨t,_,ran,plain,_⟩ := wasting_turn serves sizes names inList chosen bounded here plain
    have next : plan.toDownload = done ++ [artifact] ++ before ++ rest := by simpa using split
    obtain ⟨v,later,plain⟩ := ih next plain
    refine ⟨v,?_,plain⟩
    rw [List.cons_append,List.foldlM_cons,execute_bind,ran]
    rw [show done ++ artifact :: before = done ++ [artifact] ++ before by simp]
    exact later

end

/-- Where a diff of some size is followed by more to report, servers that are right
    but for the diffs make the reports exceed the total. -/
theorem stubborn_exceeds {sha256 : Bytes → String} {locate : String → String} {serve : Option String → Bytes}
    {artifacts : List Artifact} {nodiff : Bool} {w : World} (sourced : ∀ artifact ∈ artifacts, Sourced artifact)
    (plain : Plain locate artifacts w) (serves : Serves sha256 serve artifacts)
    (sizes : ∀ artifact ∈ artifacts, Sized artifact)
    (bounded : ((outdated (hashAt sha256 locate w) artifacts).map (weight (hashAt sha256 locate w) nodiff)).sum < 2 ^ 31)
    (followed : ¬ Unfollowed (hashAt sha256 locate w) nodiff (outdated (hashAt sha256 locate w) artifacts)) :
    ¬ InRange (stubborn sha256 locate serve).environment (download sha256 artifacts nodiff) w := by
  intro inRange
  let found := hashAt sha256 locate w
  let env := (stubborn sha256 locate serve).environment
  have legible : Legible sha256 locate env := surroundings_legible
  obtain ⟨outcome,t,first⟩ := exists_run (handler_total (stubborn sha256 locate serve)) (firstPass artifacts nodiff) w
  obtain ⟨rfl,-⟩ := ensures_runs (firstPass_planned legible sourced nodiff) first
  have planned := (ensures_runs (firstPass_ends legible artifacts nodiff) first).2 _ rfl
  generalize artifacts.foldl (Selection.planned found nodiff) {} = plan at first planned
  have plain : Plain locate artifacts t := fun artifact member name named =>
    ensures_runs (firstPass_plain legible artifacts nodiff) first _ (plain artifact member name named)
  have inList : plan.toDownload ⊆ artifacts := by
    rw [planned.toDownload]
    exact fun artifact member => List.mem_of_mem_filter member
  rw [← planned.toDownload] at bounded followed
  obtain ⟨before,last,after,split,shows,silent,source,inBefore,diff,selected,size⟩ := followed_last followed
  have names : ∀ artifact ∈ artifacts, ∃ name, artifact.name = some name := fun artifact member =>
    (sourced artifact member).named
  have chosen : ∀ artifact ∈ plan.toDownload, plan.diff artifact = selection found nodiff artifact :=
    fun artifact => planned.diff
  have start : plan.toDownload = [] ++ before ++ (last :: after) := split
  obtain ⟨u,turns,plain⟩ := wasting_turns serves sizes names inList chosen bounded start plain
  obtain ⟨v,new,turn,-,recorded,reports⟩ := wasting_turn serves sizes names inList chosen bounded split plain
  obtain ⟨x,reported⟩ := reports shows
  obtain ⟨new',same,called⟩ := steps_reports legible (execute_ran turn)
  obtain rfl : new = new' := List.append_cancel_left (recorded.symm.trans same)
  obtain ⟨y,calls⟩ := called _ _ reported
  have total : plan.totalDownloadBytes = (plan.toDownload.map (downloadSize found nodiff)).sum := by
    have known : Planned found (nodiff || false) artifacts plan := by rwa [Bool.or_false]
    have sum := (planned_total sizes (by rw [← planned.toDownload]; exact bounded) known).1
    rwa [Bool.or_false] at sum
  have second : ∃ done total, Calls env (plan.toDownload.foldlM (fetchArtifact sha256 plan)
      ⟨0,plan.totalDownloadBytes⟩) t (.stage done total) y ∧ done = (before.map (weight found nodiff)).sum + x ∧
        total = (before.map Artifact.size).sum + (after.map (downloadSize found nodiff)).sum + x := by
    refine ⟨_,_,?_,rfl,rfl⟩
    rw [total,split,List.foldlM_append]
    have begins : wasting found nodiff [] (before ++ last :: after) =
        ⟨0,((before ++ last :: after).map (downloadSize found nodiff)).sum⟩ := by
      simp only [wasting,List.map_nil,List.sum_nil,Int.zero_add]
    rw [← begins]
    refine calls_after (execute_ran turns) ?_
    rw [List.nil_append,List.foldlM_cons]
    exact calls_bind calls _
  obtain ⟨_,_,⟨_,steps⟩,rfl,rfl⟩ := second
  have within := inRange _ _ y ⟨_,download_steps rfl first steps⟩
  have nothing : (after.map (downloadSize found nodiff)).sum = 0 := by
    refine List.sum_eq_zero ?_
    intro value member
    obtain ⟨other,inAfter,rfl⟩ := List.mem_map.mp member
    have inPlan : other ∈ plan.toDownload := by
      rw [split]
      exact List.mem_append_right _ (List.mem_cons_of_mem _ inAfter)
    have low : 0 ≤ downloadSize found nodiff other := downloadSize_nonneg (sizes other (inList inPlan))
    obtain ⟨full,diffs⟩ := shows_nothing (silent other inAfter)
    cases selected : selection found nodiff other with
    | none => rw [downloadSize_none selected] at low ⊢; omega
    | some diff =>
      have little := diffs diff selected
      rw [downloadSize_some selected] at low ⊢
      omega
  have wasted : (before.map Artifact.size).sum < (before.map (weight found nodiff)).sum := by
    refine List.sum_lt_sum _ _ ?_ ⟨source,inBefore,?_⟩
    · intro other member
      exact size_le_weight (sizes other (inList (by rw [split]; exact List.mem_append_left _ member)))
    · rw [weight_some selected]
      omega
  omega

/-- The first pass hands over the sum of the sizes that it has selected. The reports
    stay within the total in every run in which a diff that has arrived, and is
    followed by more to report, patches; and for all servers, exactly when no diff of
    some size is followed by more to report. -/
theorem progress_iff (sha256 : Bytes → String) (locate : String → String) (artifacts : List Artifact) (nodiff : Bool)
    (w : World) (sizes : ∀ artifact ∈ artifacts, Sized artifact)
    (bounded : ((outdated (hashAt sha256 locate w) artifacts).map (weight (hashAt sha256 locate w) nodiff)).sum < 2 ^ 31) :
    (∀ env, Measured sha256 locate artifacts env →
      (∀ isCompatible plan t, Runs env (firstPass artifacts (nodiff || !isCompatible)) w (.ok plan) t →
        plan.toDownload = outdated (hashAt sha256 locate w) artifacts ∧ plan.totalDownloadBytes =
          (plan.toDownload.map (downloadSize (hashAt sha256 locate w) (nodiff || !isCompatible))).sum) ∧
      (Spared sha256 env (hashAt sha256 locate w) nodiff (outdated (hashAt sha256 locate w) artifacts) →
        InRange env (download sha256 artifacts nodiff) w)) ∧
    (Genuine sha256 locate artifacts w →
      ((∀ env, Measured sha256 locate artifacts env → InRange env (download sha256 artifacts nodiff) w) ↔
        Unfollowed (hashAt sha256 locate w) nodiff (outdated (hashAt sha256 locate w) artifacts))) := by
  have within : ∀ env, Measured sha256 locate artifacts env →
      Spared sha256 env (hashAt sha256 locate w) nodiff (outdated (hashAt sha256 locate w) artifacts) →
        InRange env (download sha256 artifacts nodiff) w := by
    intro env measured spared done total t calls
    exact ensures_calls (download_reported measured sizes bounded spared) calls
  refine ⟨?_,?_⟩
  · intro env measured
    refine ⟨?_,within env measured⟩
    intro isCompatible plan t first
    have planned := (ensures_runs (firstPass_ends measured.legible artifacts _) first).2 plan rfl
    exact ⟨planned.toDownload,(planned_total sizes bounded planned).1⟩
  · intro genuine
    constructor
    · intro inRange
      obtain ⟨serve,serves⟩ := genuine.served
      by_contra followed
      have measured : Measured sha256 locate artifacts (stubborn sha256 locate serve).environment := by
        refine stubborn_measured ?_
        rintro path size ⟨artifact,member,⟨rfl,rfl⟩ | ⟨diff,listed,rfl,rfl⟩⟩
        · exact (serves.full artifact member).2
        · exact (serves.diffs artifact member diff listed).2
      exact stubborn_exceeds genuine.sourced genuine.plain serves sizes bounded followed (inRange _ measured)
    · intro unfollowed env measured
      refine within env measured (unfollowed.imp ?_)
      exact fun silent diff selected size shows => absurd shows (silent diff selected size)

/-! ## A diff that patches to wrong bytes -/

private def sampleSha256 (content : Bytes) : String :=
  if content.length = 2 then "two" else if content.length = 1 then "one" else "none"

private def sampleServe (url : Option String) : Bytes :=
  if url = some "https://host/client.jar" then [0x61,0x62] else [0x63]

private def sampleClient : Artifact where
  name := some "client.jar"
  path := some "https://host/client.jar"
  hash := some "two"
  size := 2
  diffs := some [some {
    fromName := some "old.jar"
    fromHash := some "none"
    hash := some "one"
    path := some "https://host/client.diff"
    size := 1 }]

private def sampleApi : Artifact where
  name := some "api.jar"
  path := some "https://host/api.jar"
  hash := some "one"
  size := 1

private def sampleDirectory : World where
  files name := if name = "old.jar" then some (.file []) else none

private def sampleEnvironment : Environment launcher World := (calm sampleSha256 sampleServe []).environment

private theorem sample_sized : ∀ artifact ∈ [sampleClient,sampleApi], Sized artifact := by
  intro artifact member
  rcases List.mem_cons.mp member with rfl | last
  · refine ⟨by decide,?_⟩
    intro diff listed
    rw [Option.some.inj (List.mem_singleton.mp listed)]
    decide
  · rw [List.mem_singleton.mp last]
    exact ⟨by decide,nofun⟩

private theorem sample_measured : Measured sampleSha256 id [sampleClient,sampleApi] sampleEnvironment where
  legible := (@calm_healthy sampleSha256 sampleServe [] [] nofun).legible
  pieces := by
    rintro path w reads cut w' ⟨⟩ member
    have empty := List.mem_singleton.mp member
    unfold sampleServe at empty
    split at empty <;> cases empty
  whole := by
    rintro path size ⟨artifact,member,declared⟩ w reads w' ⟨⟩
    rcases List.mem_cons.mp member with rfl | last
    · rcases declared with ⟨rfl,rfl⟩ | ⟨diff,listed,rfl,rfl⟩
      · rfl
      · rw [Option.some.inj (List.mem_singleton.mp listed)]
        rfl
    · rw [List.mem_singleton.mp last] at declared
      rcases declared with ⟨rfl,rfl⟩ | ⟨diff,listed,_⟩
      · rfl
      · cases listed
  brokenOff := by
    rintro path size declared w reads w' ⟨⟩

/-- With the diff last, its bytes are not missed. -/
theorem progress_iff_sample : InRange sampleEnvironment (download sampleSha256 [sampleApi,sampleClient] false)
    sampleDirectory := by
  have swapped : ∀ artifact, artifact ∈ [sampleApi,sampleClient] → artifact ∈ [sampleClient,sampleApi] := by
    intro artifact member
    rcases List.mem_cons.mp member with rfl | last
    · exact List.mem_cons_of_mem _ List.mem_cons_self
    · exact List.mem_singleton.mp last ▸ List.mem_cons_self
  have measured : Measured sampleSha256 id [sampleApi,sampleClient] sampleEnvironment := {
    sample_measured with
    whole := fun path size ⟨artifact,member,declared⟩ =>
      sample_measured.whole path size ⟨artifact,swapped artifact member,declared⟩
    brokenOff := fun path size ⟨artifact,member,declared⟩ =>
      sample_measured.brokenOff path size ⟨artifact,swapped artifact member,declared⟩ }
  have spared : Spared sampleSha256 sampleEnvironment (hashAt sampleSha256 id sampleDirectory) false
      [sampleApi,sampleClient] := by
    refine List.pairwise_pair.mpr ?_
    intro diff selected
    cases selected
  exact ((progress_iff sampleSha256 id [sampleApi,sampleClient] false sampleDirectory
    (fun artifact member => sample_sized artifact (swapped artifact member)) (by decide)).1 _ measured).2
      (spared.sublist List.filter_sublist)

/-- The diff comes first, arrives, and patches to wrong bytes; then the last report is
    of four bytes out of three. -/
theorem wasted_exceeds : Measured sampleSha256 id [sampleClient,sampleApi] sampleEnvironment ∧
    (∀ artifact ∈ [sampleClient,sampleApi], Sized artifact) ∧
    ((outdated (hashAt sampleSha256 id sampleDirectory) [sampleClient,sampleApi]).map
      (weight (hashAt sampleSha256 id sampleDirectory) false)).sum = 4 ∧
    (∃ t, Calls sampleEnvironment (download sampleSha256 [sampleClient,sampleApi] false) sampleDirectory (.stage 4 3) t) ∧
    ¬ InRange sampleEnvironment (download sampleSha256 [sampleClient,sampleApi] false) sampleDirectory := by
  let h := calm sampleSha256 sampleServe []
  have recorded : (execute h (download sampleSha256 [sampleClient,sampleApi] false) sampleDirectory).2.stages =
      [(1,2),(2,3),(4,3)] := by decide +kernel
  have runs := @execute_runs _ _ _ _ h.environment h (fun _ _ => rfl)
    (download sampleSha256 [sampleClient,sampleApi] false) sampleDirectory
  obtain ⟨new,same,called⟩ := steps_reports sample_measured.legible runs
  have all : new = [(1,2),(2,3),(4,3)] := same.symm.trans recorded
  obtain ⟨t,calls⟩ := called 4 3 (by rw [all]; simp)
  refine ⟨sample_measured,sample_sized,by decide,⟨t,calls⟩,?_⟩
  intro inRange
  exact absurd (inRange 4 3 t calls).2 (by decide)

end OpenRune.WastedDiffs
