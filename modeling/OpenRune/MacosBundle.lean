import OpenRune.UpdateGate
import OpenRune.Walks

/-!
# The bundle on macOS

`Updater.updateMacos` removes the installed bundle and copies the one on the
mounted image into its place. Up to that point every way out leaves the installed
bundle as it is; from there on the new bundle is complete when no step of the
removal and of the copy has failed.
-/
namespace OpenRune.MacosBundle
open OpenRune.Java OpenRune.Beans OpenRune.Updates OpenRune.Settings OpenRune.Programs OpenRune.Launchers OpenRune.Plist
  OpenRune.Trees OpenRune.Walks OpenRune.SelfUpdate OpenRune.UpdateGate
open OpenRune.Operations (Bytes)

section
variable {α : Type} {app : Path} {inputs : Inputs} {start w t : World} {rel rel' : Forest Leaf → Forest Leaf → Prop}

/-! ## Steps that can fail -/

/-- The download and what `hdiutil` has told are the same. -/
structure Told (w t : World) : Prop where
  temp : t.temp = w.temp
  mounted : t.mounted = w.mounted
  exitValue : t.exitValue = w.exitValue
  plist : t.plist = w.plist

theorem told_refl (w : World) : Told w w := ⟨rfl,rfl,rfl,rfl⟩

theorem told_trans {u : World} (first : Told w t) (second : Told t u) : Told w u :=
  ⟨second.temp.trans first.temp,second.mounted.trans first.mounted,second.exitValue.trans first.exitValue,
    second.plist.trans first.plist⟩

/-- Nothing has failed, and the files are related; or something has. -/
def Done (rel : Forest Leaf → Forest Leaf → Prop) (w : World) (outcome : Except Thrown Unit) (t : World) : Prop :=
  Told w t ∧ (t.failed = false → w.failed = false ∧ outcome = .ok () ∧ rel w.files t.files)

private theorem done_failed {outcome : Except Thrown Unit} (told : Told w t) (failed : t.failed = true) :
    Done rel w outcome t := ⟨told,fun clean => absurd failed (by simp [clean])⟩

theorem done_seq {p q : Updating Unit} (first : Ends (Reacts app inputs) p (Done rel w) w)
    (second : ∀ u, Ends (Reacts app inputs) q (Done rel' u) u) : Ends (Reacts app inputs) (p >>= fun _ => q)
      (Done (fun before after => ∃ between, rel before between ∧ rel' between after) w) w := by
  refine ensures_bind (ensures_mono first ?_)
  rintro (thrown | done) u ⟨told,clean⟩
  · exact ⟨told,fun unfailed => by cases (clean unfailed).2.1⟩
  · refine ensures_mono (second u) ?_
    rintro outcome v ⟨told',clean'⟩
    refine ⟨told_trans told told',fun unfailed => ?_⟩
    obtain ⟨unfailed',ended,later⟩ := clean' unfailed
    obtain ⟨begun,-,earlier⟩ := clean unfailed'
    exact ⟨begun,ended,u.files,earlier,later⟩

private theorem visit_done {q : Updating Unit} (path : Path) (rest : ∀ u, Ends (Reacts app inputs) q (Done rel u) u) :
    Ends (Reacts app inputs) (do ofOutcome (← ask (.visit path)); q) (Done rel w) w := by
  refine ensures_perform trivial ?_
  rintro (thrown | done) u visited
  · obtain rfl : u = { w with failed := w.failed || true } := visited
    exact done_failed ⟨rfl,rfl,rfl,rfl⟩ (Bool.or_true _)
  · obtain rfl : u = { w with failed := w.failed || false } := visited
    refine ensures_mono (rest _) ?_
    rintro outcome v ⟨told,clean⟩
    refine ⟨⟨told.temp,told.mounted,told.exitValue,told.plist⟩,fun unfailed => ?_⟩
    obtain ⟨begun,ended,related⟩ := clean unfailed
    exact ⟨by simpa using begun,ended,related⟩

private theorem forM_done {visitor : Event Leaf → Updating Unit} {step : Event Leaf → Forest Leaf → Forest Leaf → Prop}
    (visits : ∀ event u, Ends (Reacts app inputs) (visitEvent visitor event) (Done (step event) u) u)
    (events : List (Event Leaf)) : Ends (Reacts app inputs) (events.forM (visitEvent visitor)) (Done (Along step events) w) w := by
  induction events generalizing w with
  | nil => exact ⟨told_refl w,fun clean => ⟨clean,rfl,rfl⟩⟩
  | cons event events ih => exact done_seq (visits event w) fun u => ih

/-- A walk that ends without a failure has done its step at every event. -/
theorem walkFileTree_done {visitor : Event Leaf → Updating Unit} {step : Event Leaf → Forest Leaf → Forest Leaf → Prop}
    (visits : ∀ event u, Ends (Reacts app inputs) (visitEvent visitor event) (Done (step event) u) u) (root : Path) :
    Ends (Reacts app inputs) (walkFileTree root visitor) (Done (fun before after =>
      ∃ entry, before.find root = some entry ∧ Along step (entry.walk root) before after) w) w := by
  refine ensures_perform trivial ?_
  rintro reply u ⟨rfl,rfl⟩
  cases found : w.files.find root with
  | none => exact done_failed ⟨rfl,rfl,rfl,rfl⟩ (by simp)
  | some entry =>
    refine ensures_mono (forM_done visits (entry.walk root)) ?_
    rintro outcome v ⟨told,clean⟩
    refine ⟨⟨told.temp,told.mounted,told.exitValue,told.plist⟩,fun unfailed => ?_⟩
    obtain ⟨begun,ended,walked⟩ := clean unfailed
    exact ⟨by simpa using begun,ended,entry,found,walked⟩

/-! ## Removing the old bundle -/

private theorem deletePath_done (path : Path) : Ends (Reacts app inputs) (do ofOutcome (← ask (.delete path)) : Updating Unit)
    (Done (fun before after => after = before.remove path) w) w := by
  refine ensures_perform trivial ?_
  rintro reply u (⟨rfl,-,rfl⟩ | ⟨⟨thrown,rfl⟩,rfl⟩)
  · exact ⟨⟨rfl,rfl,rfl,rfl⟩,fun clean => ⟨clean,rfl,rfl⟩⟩
  · exact done_failed ⟨rfl,rfl,rfl,rfl⟩ rfl

theorem deleteVisitor_done (event : Event Leaf) :
    Ends (Reacts app inputs) (visitEvent deleteVisitor event) (Done (removes event) w) w := by
  cases event with
  | preVisitDirectory path => exact visit_done path fun u => ⟨told_refl u,fun clean => ⟨clean,rfl,rfl⟩⟩
  | visitFile path leaf => exact visit_done path fun u => deletePath_done path
  | postVisitDirectory path => exact deletePath_done path

/-- After a removal without a failure nothing is left, and nothing else is gone. -/
theorem delete_done (properties : LauncherProperties) : Ends (Reacts app inputs) (delete (runeliteApp properties))
    (Done (fun before after => ∀ path, after.lookup path =
      if runeliteApp properties <+: path then none else before.lookup path) w) w := by
  refine ensures_mono (walkFileTree_done (fun event u => deleteVisitor_done event) (runeliteApp properties)) ?_
  rintro outcome u ⟨told,clean⟩
  refine ⟨told,fun unfailed => ?_⟩
  obtain ⟨begun,ended,entry,-,along⟩ := clean unfailed
  exact ⟨begun,ended,walk_removes along⟩

/-! ## Copying the new one -/

/-- The files are the same but at and below a path. -/
def Outside (target : Path) (files files' : Forest Leaf) : Prop :=
  ∀ path, ¬ target <+: path → files'.lookup path = files.lookup path

/-- What a link leads to while the image is copied, when the files are those with the
    image but for what has been copied so far. -/
def Led (resolution : Resolution) (image : Forest Leaf) (target path : Path) (node : Node Leaf) : Prop :=
  ∃ files, Outside target image files ∧ resolution.leads files path = some node

/-- The copy of what is found at a path: the same, but of a link the file or the
    directory that it leads to. -/
def Replicates (resolution : Resolution) (image : Forest Leaf) (target path : Path) :
    Option (Node Leaf) → Option (Node Leaf) → Prop
  | some (.leaf (.link _)), found => ∃ node, found = some node ∧ Led resolution image target path node
  | original, found => found = original

/-- The replica of what the image holds at `source`. Nothing is below a link in the
    image, so a link to a directory is an empty directory in the replica. -/
def Replica (resolution : Resolution) (source target : Path) (image files : Forest Leaf) : Prop :=
  (image.lookup source).isSome = true ∧ ∀ below, Replicates resolution image target (source ++ below)
    (image.lookup (source ++ below)) (files.lookup (target ++ below))

theorem copied_insert {path target : Path} {u : World} {reply : Copying} (copied : reply = .copied)
    (reacts : Reacts app inputs (.copy path target) w reply u) : Told w u ∧ u.failed = w.failed ∧
      ∃ node, inputs.resolution.followed w.files path = some node ∧
        ∀ other, u.files.lookup other = if other = target then some node else w.files.lookup other := by
  rcases reacts with ⟨-,parent,name,node,rfl,copy,directory,absent,rfl⟩ | ⟨other,-⟩
  · exact ⟨⟨rfl,rfl,rfl,rfl⟩,rfl,node,copy,fun other => lookup_insert directory absent other⟩
  · exact absurd copied other

theorem notCopied_failed {path target : Path} {u : World} {reply : Copying} (notCopied : reply ≠ .copied)
    (reacts : Reacts app inputs (.copy path target) w reply u) : Told w u ∧ u.failed = true := by
  rcases reacts with ⟨copied,-⟩ | ⟨-,files,-,rfl⟩
  · exact absurd copied notCopied
  · exact ⟨⟨rfl,rfl,rfl,rfl⟩,rfl⟩

/-- The relation of a single copy. -/
private abbrev CopiedTo (resolution : Resolution) (path target : Path) (before after : Forest Leaf) : Prop :=
  ∃ node, resolution.followed before path = some node ∧
    ∀ other, after.lookup other = if other = target then some node else before.lookup other

/-- A copy at each event, of what is found there when links are followed. -/
def follows (resolution : Resolution) (source target : Path) : Event Leaf → Forest Leaf → Forest Leaf → Prop
  | .postVisitDirectory _, before, after => after = before
  | event, before, after => CopiedTo resolution event.path (retarget source target event.path) before after

private theorem copyFile_done (path target : Path) :
    Ends (Reacts app inputs) (copyFile path target) (Done (CopiedTo inputs.resolution path target) w) w := by
  refine ensures_perform trivial ?_
  rintro (- | - | thrown) u reacts
  · obtain ⟨told,failed,inserted⟩ := copied_insert rfl reacts
    exact ⟨told,fun clean => ⟨failed ▸ clean,rfl,inserted⟩⟩
  · obtain ⟨told,failed⟩ := notCopied_failed (by simp) reacts
    exact done_failed told failed
  · obtain ⟨told,failed⟩ := notCopied_failed (by simp) reacts
    exact done_failed told failed

private theorem copyDirectory_done (path target : Path) :
    Ends (Reacts app inputs) (copyDirectory path target) (Done (CopiedTo inputs.resolution path target) w) w := by
  refine ensures_perform trivial ?_
  rintro (- | - | thrown) u reacts
  · obtain ⟨told,failed,inserted⟩ := copied_insert rfl reacts
    exact ⟨told,fun clean => ⟨failed ▸ clean,rfl,inserted⟩⟩
  · obtain ⟨told,failed⟩ := notCopied_failed (by simp) reacts
    refine ensures_perform trivial ?_
    rintro there v ⟨rfl,-⟩
    split <;> exact done_failed told failed
  · obtain ⟨told,failed⟩ := notCopied_failed (by simp) reacts
    exact done_failed told failed

theorem copyVisitor_done (source target : Path) (event : Event Leaf) : Ends (Reacts app inputs)
    (visitEvent (copyVisitor source target) event) (Done (follows inputs.resolution source target event) w) w := by
  cases event with
  | preVisitDirectory path => exact visit_done path fun u => copyDirectory_done path _
  | visitFile path leaf => exact visit_done path fun u => copyFile_done path _
  | postVisitDirectory path => exact ⟨told_refl w,fun clean => ⟨clean,rfl,rfl⟩⟩

/-- A copy goes below the target. -/
theorem follows_outside {resolution : Resolution} {source target : Path} {image before after : Forest Leaf}
    {event : Event Leaf} (outside : Outside target image before) (step : follows resolution source target event before after) :
    Outside target image after := by
  intro path apart
  have copied (visited : Path) (here : CopiedTo resolution visited (retarget source target visited) before after) :
      after.lookup path = image.lookup path := by
    obtain ⟨node,-,written⟩ := here
    rw [written,if_neg,outside path apart]
    rintro rfl
    exact apart (List.prefix_append _ _)
  cases event with
  | preVisitDirectory visited => exact copied visited step
  | visitFile visited leaf => exact copied visited step
  | postVisitDirectory visited =>
    obtain rfl : after = before := step
    exact outside path apart

/-- What is found at a path when links are followed, in files that differ from the image
    below the target only. -/
private abbrev FoundAt (resolution : Resolution) (image : Forest Leaf) (target path : Path)
    (found : Option (Node Leaf)) (node : Node Leaf) : Prop :=
  ∃ files, Outside target image files ∧ files.lookup path = found ∧ resolution.followed files path = some node

private theorem follows_copies {resolution : Resolution} {source target : Path} {image before after : Forest Leaf}
    {event : Event Leaf} (outside : Outside target image before) (step : follows resolution source target event before after) :
    copies (FoundAt resolution image target) (retarget source target) event before after := by
  cases event with
  | preVisitDirectory path | visitFile path leaf =>
    obtain ⟨node,followed,written⟩ := step
    exact ⟨node,⟨before,outside,rfl,followed⟩,written⟩
  | postVisitDirectory path => exact step

private theorem replicates_of_copy {resolution : Resolution} {image : Forest Leaf} {target path : Path}
    {original found : Option (Node Leaf)} (copy : CopyOf (FoundAt resolution image target path) original found) :
    Replicates resolution image target path original found := by
  rcases original with - | ((content | text) | -)
  · exact copy
  · obtain ⟨node,rfl,files,-,here,followed⟩ := copy
    rwa [Resolution.followed,here,eq_comm] at followed
  · obtain ⟨node,rfl,files,outside,here,followed⟩ := copy
    rw [Resolution.followed,here] at followed
    exact ⟨node,rfl,files,outside,followed⟩
  · obtain ⟨node,rfl,files,-,here,followed⟩ := copy
    rwa [Resolution.followed,here,eq_comm] at followed

/-- After a copy without a failure, to where nothing was, there is a replica. -/
theorem copy_done (source target : Path) : Ends (Reacts app inputs) (copy source target) (Done (fun before after =>
    (before.lookup source).isSome = true ∧ ((∀ below, ¬ target <+: source ++ below) →
      (∀ below, before.lookup (target ++ below) = none) → Replica inputs.resolution source target before after)) w) w := by
  refine ensures_mono (walkFileTree_done (fun event u => copyVisitor_done source target event) source) ?_
  rintro outcome u ⟨told,clean⟩
  refine ⟨told,fun unfailed => ?_⟩
  obtain ⟨begun,ended,entry,found,along⟩ := clean unfailed
  have there : (w.files.lookup source).isSome = true := by simp [Forest.lookup,found]
  refine ⟨begun,ended,there,fun apart empty => ⟨there,fun below => ?_⟩⟩
  have reads (below : Path) : w.files.lookup (source ++ below) = entry.lookup below := by
    rw [lookup_append,found]
    rfl
  have unchanged : Outside target w.files w.files := fun _ _ => rfl
  have kept := @along_invariant Leaf _ _ _ (Outside target w.files) _ (fun _ _ _ outside step =>
    follows_outside outside step) unchanged along
  have copied := along_mono (fun event before after both => follows_copies both.1 both.2) kept
  rw [reads]
  exact replicates_of_copy (walk_copies (fun below => by simp [retarget]) apart reads empty copied below)

/-! ## Before the point of no return -/

/-- Operations that leave the bundle alone, and fail without consequences. -/
def Op.keeps : Op → Prop
  | .tree _ | .visit _ | .delete _ | .copy _ _ => False
  | _ => True

/-- The bundle is as it was, and no walk has failed. -/
def Untouched (app : Path) (start w : World) : Prop := Spares app start.files w.files ∧ w.failed = start.failed

theorem keeps_untouched {op : Op} {reply : Reply op} (keeps : Op.keeps op) (reacts : Reacts app inputs op w reply t) :
    Untouched app w t := by
  rcases reacts_cases reacts with ⟨-,stored,saved,rfl⟩ | ⟨-,temp,rfl⟩ | ⟨walks,-⟩ | ⟨files,mounted,spares,rfl⟩ | ⟨exitValue,plist,rfl⟩
  · exact ⟨fun _ => rfl,rfl⟩
  · exact ⟨fun _ => rfl,rfl⟩
  · cases op <;> first | exact keeps.elim | exact walks.elim
  · exact ⟨spares,rfl⟩
  · exact ⟨fun _ => rfl,rfl⟩

theorem untouched_trans (first : Untouched app start w) (second : Untouched app w t) : Untouched app start t :=
  ⟨fun below => (second.1 below).trans (first.1 below),second.2.trans first.2⟩

theorem looks_keeps (op : Op) (looks : Op.looks op) : Op.keeps op := by
  cases op with
  | tree root | visit path | delete path | copy source target => exact looks.elim
  | _ => exact trivial

theorem fetches_keeps (op : Op) (fetches : Op.fetches op) : Op.keeps op := by
  cases op with
  | tree root | visit path | delete path | copy source target => exact fetches.elim
  | _ => exact trivial

end

section
variable {sha256 : Bytes → String} {host : Surroundings} {bootstrap : Bootstrap} {launcherSettings : LauncherSettings}
  {inputs : Inputs} {args : List String} {start w t : World}

/-- The image of an update is mounted: the update has passed the checks, what was
    downloaded is what it announces, and `hdiutil` has ended well. -/
def Attached (sha256 : Bytes → String) (host : Surroundings) (bootstrap : Bootstrap) (launcherSettings : LauncherSettings)
    (inputs : Inputs) (start t : World) : Prop :=
  (∃ file, Allowed sha256 host bootstrap launcherSettings start.stored inputs inputs.random file t) ∧ t.exitValue = some 0

/-- The update has gone past the point of no return: the image is mounted, `hdiutil`
    has told the mount point, and then the bundle on the image is in place of the
    installed one, unless the mount point is no path or a step of the removal or the
    copy has failed. -/
def Replaced (sha256 : Bytes → String) (host : Surroundings) (bootstrap : Bootstrap) (launcherSettings : LauncherSettings)
    (inputs : Inputs) (start t : World) : Prop :=
  Attached sha256 host bootstrap launcherSettings inputs start t ∧
    ∃ doc mountPoint, t.plist = some doc ∧ parseHdiutilPlist doc = .ok mountPoint ∧
      ((∃ thrown, imageApp host mountPoint = .error thrown) ∨ t.failed = true ∨
        ∃ source, imageApp host mountPoint = .ok source ∧
          Replica inputs.resolution source (runeliteApp host.properties) t.mounted t.files)

/-- How the bundle is left. -/
def Left (sha256 : Bytes → String) (host : Surroundings) (bootstrap : Bootstrap) (launcherSettings : LauncherSettings)
    (inputs : Inputs) (start t : World) : Prop :=
  Spares (runeliteApp host.properties) start.files t.files ∨
    Replaced sha256 host bootstrap launcherSettings inputs start t

theorem attached_told (told : Told w t) (attached : Attached sha256 host bootstrap launcherSettings inputs start w) :
    Attached sha256 host bootstrap launcherSettings inputs start t := by
  obtain ⟨⟨file,update,passed,bytes,held,hashed⟩,ended⟩ := attached
  exact ⟨⟨file,update,passed,bytes,told.temp ▸ held,hashed⟩,told.exitValue.trans ended⟩

/-- A part of the update that leaves the bundle alone, and what follows. -/
theorem keeping {α : Type} {p : Updating α} {f : α → Updating Unit} {post : Except Thrown α → World → Prop}
    (only : Only Op.keeps p) (ends : Ends (Reacts (runeliteApp host.properties) inputs) p post w)
    (before : Untouched (runeliteApp host.properties) start w)
    (rest : ∀ value u, post (.ok value) u → Untouched (runeliteApp host.properties) start u →
      Ends (Reacts (runeliteApp host.properties) inputs) (f value)
        (fun _ v => Left sha256 host bootstrap launcherSettings inputs start v) u) :
    Ends (Reacts (runeliteApp host.properties) inputs) (p >>= f)
      (fun _ v => Left sha256 host bootstrap launcherSettings inputs start v) w := by
  refine ensures_bind (ensures_mono (ensures_and ends (ensures_only only before (fun _ _ _ _ => trivial) ?_)) ?_)
  · exact fun op u reply v keeps still reacts => untouched_trans still (keeps_untouched keeps reacts)
  · rintro (thrown | value) u ⟨known,still⟩
    · exact .inl still.1
    · exact rest value u known still

/-- The bundle on the image is not around the installed one. -/
theorem image_apart {mountPoint : Option String} {source : Path} (found : imageApp host mountPoint = .ok source)
    (outside : ¬ runeliteApp host.properties <+: source) (below : Path) : ¬ runeliteApp host.properties <+: source ++ below := by
  intro inside
  rcases List.prefix_or_prefix_of_prefix inside (List.prefix_append source below) with above | within
  · exact outside above
  obtain ⟨place,rfl⟩ : ∃ place, source = place ++ [appDirectory host.properties] := by
    cases mountPoint with
    | none => cases found
    | some mountPoint =>
      cases located : host.locate mountPoint with
      | error thrown => simp [imageApp,located] at found
      | ok place =>
        simp only [imageApp,deref_some,ok_bind,located,pure_ok,Except.ok.injEq] at found
        exact ⟨place,found.symm⟩
  have suffix : (appDirectory host.properties).toList.getLast? = some 'p' := by
    simp [appDirectory,String.toList_append]
  match place, within with
  | [], within =>
    have same : appDirectory host.properties = "Applications" := (List.cons_prefix_cons.mp within).1
    rw [same] at suffix
    exact absurd suffix (by decide)
  | [first], within =>
    obtain ⟨rfl,-⟩ := List.cons_prefix_cons.mp within
    exact outside List.prefix_rfl
  | first :: second :: rest, within =>
    have long := within.length_le
    simp [runeliteApp] at long

/-! ## The whole update -/

/-- What is a replica of the image after the removal is one of the image as it was mounted. -/
theorem replica_mounted {resolution : Resolution} {source target : Path} {image image' files : Forest Leaf}
    (outside : Outside target image image') (apart : ∀ below, ¬ target <+: source ++ below)
    (replica : Replica resolution source target image' files) : Replica resolution source target image files := by
  have same (below : Path) : image'.lookup (source ++ below) = image.lookup (source ++ below) := outside _ (apart below)
  obtain ⟨there,each⟩ := replica
  constructor
  · have root := same []
    rw [List.append_nil] at root
    rwa [root] at there
  · intro below
    have copied := each below
    rw [same] at copied
    rcases found : image.lookup (source ++ below) with - | ((content | text) | -)
    · rwa [found] at copied
    · rwa [found] at copied
    · rw [found] at copied
      obtain ⟨node,copy,files',outside',leads⟩ := copied
      exact ⟨node,copy,files',fun path apart => (outside' path apart).trans (outside path apart),leads⟩
    · rwa [found] at copied

private theorem detach_replaced {source : Path} (command : List String)
    (environment : List (String × String)) (mount : String)
    (replica : t.failed = false → Replica inputs.resolution source (runeliteApp host.properties) t.mounted t.files) :
    Ends (Reacts (runeliteApp host.properties) inputs) (do
      ofOutcome (← ask (.startDetach mount))
      ofOutcome (← ask (.relaunch command environment))
      throw .exit : Updating Unit) (fun _ v => Told t v ∧ (v.failed = false →
        Replica inputs.resolution source (runeliteApp host.properties) v.mounted v.files)) t := by
  refine ensures_perform trivial ?_
  rintro reply u ⟨files,spares,rfl⟩
  have kept : t.failed = false →
      Replica inputs.resolution source (runeliteApp host.properties) t.mounted files := by
    intro clean
    obtain ⟨there,copies⟩ := replica clean
    exact ⟨there,fun below => by rw [spares]; exact copies below⟩
  refine ensures_outcome (fun _ _ => ?_) fun _ _ => ⟨⟨rfl,rfl,rfl,rfl⟩,kept⟩
  refine ensures_perform trivial ?_
  rintro reply u rfl
  exact ensures_outcome (fun _ _ => ⟨⟨rfl,rfl,rfl,rfl⟩,kept⟩) fun _ _ => ⟨⟨rfl,rfl,rfl,rfl⟩,kept⟩

private theorem done_unfailed {rel : Forest Leaf → Forest Leaf → Prop} {thrown : Thrown} (done : Done rel w (.error thrown) t) :
    t.failed = true := by
  cases failed : t.failed with
  | true => rfl
  | false => cases (done.2 failed).2.1

/-- From the point of no return on, with the image mounted. -/
theorem replaceApp_replaced {path : String} {doc : Nodes} {mountPoint : Option String} (told : w.plist = some doc)
    (parsed : parseHdiutilPlist doc = .ok mountPoint) (mounted : w.mounted = w.files)
    (attached : Attached sha256 host bootstrap launcherSettings inputs start w) :
    Ends (Reacts (runeliteApp host.properties) inputs) (replaceApp host path mountPoint args)
      (fun _ t => Replaced sha256 host bootstrap launcherSettings inputs start t) w := by
  refine ensures_bind (ensures_mono (delete_done host.properties) ?_)
  rintro (thrown | done) t deleted
  · exact ⟨attached_told deleted.1 attached,doc,mountPoint,deleted.1.plist.trans told,parsed,
      .inr (.inl (done_unfailed deleted))⟩
  obtain ⟨same,removed⟩ := deleted
  refine ensures_outcome (fun source found => ?_) fun thrown failed =>
    ⟨attached_told same attached,doc,mountPoint,same.plist.trans told,parsed,.inl ⟨thrown,failed⟩⟩
  refine ensures_bind (ensures_mono (copy_done source (runeliteApp host.properties)) ?_)
  rintro (thrown | done) u copied
  · have still := told_trans same copied.1
    exact ⟨attached_told still attached,doc,mountPoint,still.plist.trans told,parsed,.inr (.inl (done_unfailed copied))⟩
  obtain ⟨same',copied⟩ := copied
  have replica : u.failed = false →
      Replica inputs.resolution source (runeliteApp host.properties) u.mounted u.files := by
    intro clean
    obtain ⟨clean',-,there,copies⟩ := copied clean
    obtain ⟨-,-,gone⟩ := removed clean'
    have outside : ¬ runeliteApp host.properties <+: source := fun inside => by
      rw [gone source,if_pos inside] at there
      cases there
    have apart := image_apart found outside
    have image : Outside (runeliteApp host.properties) u.mounted t.files := by
      intro path elsewhere
      rw [same'.mounted,same.mounted,mounted,gone]
      exact if_neg elsewhere
    exact replica_mounted image apart (copies apart fun below => by
      rw [gone]
      exact if_pos (List.prefix_append _ _))
  cases mountPoint with
  | none => cases found
  | some mount =>
    refine ensures_mono (detach_replaced _ _ mount replica) ?_
    rintro outcome v ⟨same'',complete⟩
    have still := told_trans (told_trans same same') same''
    refine ⟨attached_told still attached,doc,some mount,still.plist.trans told,parsed,.inr ?_⟩
    cases failed : v.failed with
    | true => exact .inl rfl
    | false => exact .inr ⟨source,found,complete failed⟩

/-- The image is mounted when `hdiutil` has ended well. -/
theorem waitForImage_mounted : Ends (Reacts (runeliteApp host.properties) inputs) waitForImage
    (fun outcome t => t.temp = w.temp ∧ (outcome = .ok true → t.mounted = t.files ∧ t.exitValue = some 0)) w := by
  refine ensures_perform trivial ?_
  rintro reply t ⟨files,-,rfl⟩
  refine ensures_outcome (fun ended _ => ?_) fun _ _ => ⟨rfl,nofun⟩
  cases ended with
  | false =>
    refine ensures_perform trivial ?_
    rintro destroyed u rfl
    exact ⟨rfl,nofun⟩
  | true =>
    refine ensures_perform trivial ?_
    rintro (status : Int) u rfl
    refine ⟨rfl,fun succeeded => ⟨rfl,?_⟩⟩
    have zero : decide (status = 0) = true := Except.ok.inj succeeded
    exact congrArg some (of_decide_eq_true zero)

theorem attach_keeps (file : String) : Only Op.keeps (attach file) := by
  refine only_bind (only_ask trivial) fun _ => only_bind (only_ofOutcome _) fun _ => ?_
  refine only_bind (only_ask trivial) fun _ => only_bind (only_ofOutcome _) fun ended => ?_
  split
  · exact only_bind (only_ask trivial) fun _ => only_pure _
  · exact only_bind (only_ask trivial) fun _ => only_pure _

theorem attach_mounted (file : String) : Ends (Reacts (runeliteApp host.properties) inputs) (attach file)
    (fun outcome t => t.temp = w.temp ∧ (outcome = .ok true → t.mounted = t.files ∧ t.exitValue = some 0)) w := by
  refine ensures_perform trivial ?_
  rintro reply t rfl
  exact ensures_outcome (fun _ _ => waitForImage_mounted) fun _ _ => ⟨rfl,nofun⟩

theorem installImage_left {path : String} {update : Update}
    (passed : Passed host bootstrap launcherSettings start.stored inputs inputs.random update)
    (before : Untouched (runeliteApp host.properties) start w) :
    Ends (Reacts (runeliteApp host.properties) inputs) (installImage sha256 host path update args)
      (fun _ t => Left sha256 host bootstrap launcherSettings inputs start t) w := by
  refine keeping (only_mono (fetch_fetches sha256 "dmg" update) fetches_keeps) (fetch_spec sha256 "dmg" update) before ?_
  intro fetched t announced still
  cases fetched with
  | none => exact .inl still.1
  | some file =>
    refine keeping (attach_keeps file) (attach_mounted file) still ?_
    rintro attached u ⟨temp,mounted⟩ still
    cases attached with
    | false => exact .inl still.1
    | true =>
      obtain ⟨mounted,ended⟩ := mounted rfl
      obtain ⟨bytes,held,hashed⟩ := announced file rfl
      refine ensures_perform trivial ?_
      rintro reply v rfl
      refine ensures_outcome (fun doc read => ?_) fun _ _ => .inl still.1
      cases read
      refine ensures_outcome (fun mountPoint parsed => ?_) fun _ _ => .inl still.1
      have attached : Attached sha256 host bootstrap launcherSettings inputs start { u with plist := some doc } :=
        ⟨⟨file,update,passed,bytes,(congrFun temp file).trans held,hashed⟩,ended⟩
      exact ensures_mono (replaceApp_replaced rfl parsed mounted attached) fun _ _ replaced => .inr replaced

theorem updateMacos_left : Ends (Reacts (runeliteApp host.properties) inputs)
    (updateMacos sha256 host bootstrap launcherSettings args)
    (fun _ t => Left sha256 host bootstrap launcherSettings inputs start t) start := by
  have begun : Untouched (runeliteApp host.properties) start start := ⟨fun _ => rfl,rfl⟩
  rw [updateMacos_attempting]
  refine keeping (only_mono (checkMacos_looks host) looks_keeps) (ends_looks (checkMacos_looks host)) begun ?_
  rintro installed t rfl before
  cases installed with
  | none => exact .inl before.1
  | some path =>
    have reads := only_mono (only_mono (checksMacos_reads host bootstrap launcherSettings) reads_looks) looks_keeps
    refine keeping reads checksMacos_spec before ?_
    rintro attempt u ⟨checked,rfl⟩ before
    cases attempt with
    | none => exact .inl before.1
    | some both =>
      obtain ⟨newestUpdate,settings⟩ := both
      have marks : Only Op.keeps (markAttempt settings newestUpdate) :=
        only_bind (only_ask trivial) fun _ => only_bind (only_ask trivial) fun _ => only_ofOutcome _
      have nothing : Ends (Reacts (runeliteApp host.properties) inputs) (markAttempt settings newestUpdate)
          (fun _ _ => True) u := ensures_only marks trivial (fun _ _ _ _ => trivial) fun _ _ _ _ _ _ _ => trivial
      refine keeping marks nothing before fun _ v _ before => ?_
      refine ensures_handle (ensures_mono (installImage_left checked.2 before) ?_)
      rintro (thrown | done) x left
      · dsimp only
        split <;> exact left
      · exact left

/-- The launcher starts: nothing is known of an image, and no walk has failed. -/
def begin (w : World) : World := { w with exitValue := none, plist := none, failed := false }

/-- However an update ends, the bundle is as it was, or the update has gone past the
    point of no return with the consequences of `Replaced`. -/
theorem bundle_kept_or_replaced {outcome : Except Thrown Unit} (runs : Runs (Reacts (runeliteApp host.properties) inputs)
    (updateMacos sha256 host bootstrap launcherSettings args) (begin w) outcome t) :
    Spares (runeliteApp host.properties) w.files t.files ∨
      Replaced sha256 host bootstrap launcherSettings inputs w t :=
  ensures_runs (@updateMacos_left sha256 host bootstrap launcherSettings inputs args (begin w)) runs

end

/-! ## Two updates -/

private def bundleUpdate : Update where
  os := some "macos"
  version := some "2.0"
  hash := some "e3b0c442"

private def bundleInputs : Inputs where
  now := 0
  currentTimeMillis := 0
  tasklist := .ok []
  installId := .ok none
  random := .finite 0

/-- The old bundle has one file. -/
private def bundleWorld : World where
  stored := {}
  files := .directory "Applications" (.directory "OpenRune.app" (.leaf "old" (.file [0]) .nil) .nil) .nil

/-- What `hdiutil` tells, with or without a mount point. -/
private def bundleDocument (key : String) : Nodes :=
  .element "plist" (.element "dict" (.element "array" (.element "dict" (.element "key" (.text key .nil)
    (.element "string" (.text "/Volumes/OpenRune" .nil) .nil)) .nil) .nil) .nil) .nil

/-- The new bundle has another file. -/
private def bundleAnswers (key : String) : Answers where
  command := some "/Applications/OpenRune.app/Contents/MacOS/OpenRune"
  serve _ := [0]
  image := .directory "OpenRune" (.directory "OpenRune.app" (.leaf "new" (.file [1]) .nil) .nil) .nil
  document := bundleDocument key

/-- A disk that is full when the file of the new bundle is copied. -/
private def fullDisk : Handler updater World
  | .copy source target, w =>
    if target = ["Applications","OpenRune.app","new"] then (.failed .io,{ w with failed := true })
    else calm bundleInputs (bundleAnswers "mount-point") (.copy source target) w
  | op, w => calm bundleInputs (bundleAnswers "mount-point") op w

private def bundleHost : Surroundings := sampleSurroundings "OpenRune" "Mac OS X"

private abbrev bundleUpdating : Updating Unit :=
  updateMacos (fun _ => "e3b0c442") bundleHost { updates := some [some bundleUpdate] } {} []

private theorem fullDisk_reacts (op : Op) (w : World) : Reacts (runeliteApp bundleHost.properties) bundleInputs op w
    (fullDisk op w).1 (fullDisk op w).2 := by
  cases op with
  | copy source target =>
    by_cases full : target = ["Applications","OpenRune.app","new"]
    · simp only [fullDisk,if_pos full]
      exact .inr ⟨nofun,w.files,fun _ _ => rfl,rfl⟩
    · simp only [fullDisk,if_neg full]
      exact calm_reacts _ _ _ _ _
  | _ => exact calm_reacts _ _ (bundleAnswers "mount-point") _ _

private def bundleUpdated : World :=
  (execute (calm bundleInputs (bundleAnswers "mount-point")) bundleUpdating (begin bundleWorld)).2

theorem bundle_kept_or_replaced_sample : Replica nowhere ["Volumes","OpenRune","OpenRune.app"] ["Applications","OpenRune.app"]
    bundleUpdated.mounted bundleUpdated.files := by
  have left := bundle_kept_or_replaced (execute_runs (calm_reacts bundleHost.properties bundleInputs
    (bundleAnswers "mount-point")) bundleUpdating (begin bundleWorld))
  rcases left with spares | ⟨-,doc,mountPoint,read,parsed,replaced⟩
  · exact absurd (spares ["old"]) (by decide)
  · cases read
    cases parsed
    rcases replaced with ⟨thrown,failed⟩ | failed | ⟨source,found,replica⟩
    · cases failed
    · cases failed
    · cases found
      exact replica

/-- A copy that fails leaves a part of the new bundle, and without a mount point the
    old bundle is removed for nothing. -/
theorem bundle_lost :
    (∃ t : World, Runs (Reacts (runeliteApp bundleHost.properties) bundleInputs) bundleUpdating (begin bundleWorld) (.ok ()) t ∧
      ¬ Spares ["Applications","OpenRune.app"] bundleWorld.files t.files ∧
      ¬ Replica nowhere ["Volumes","OpenRune","OpenRune.app"] ["Applications","OpenRune.app"] t.mounted t.files) ∧
    ∃ t : World, Runs (Reacts (runeliteApp bundleHost.properties) bundleInputs) bundleUpdating (begin bundleWorld) (.ok ()) t ∧
      t.plist = some (bundleDocument "dev-entry") ∧ parseHdiutilPlist (bundleDocument "dev-entry") = .ok none ∧
      t.files.lookup ["Applications","OpenRune.app"] = none := by
  constructor
  · refine ⟨_,execute_runs fullDisk_reacts bundleUpdating (begin bundleWorld),?_,?_⟩
    · intro spares
      exact absurd (spares ["old"]) (by decide)
    · rintro ⟨-,each⟩
      have found := each ["new"]
      cases found
  · exact ⟨_,execute_runs (calm_reacts bundleHost.properties bundleInputs (bundleAnswers "dev-entry")) bundleUpdating
      (begin bundleWorld),rfl,rfl,rfl⟩

end OpenRune.MacosBundle
