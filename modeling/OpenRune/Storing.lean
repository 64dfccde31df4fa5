import OpenRune.Programs
import OpenRune.PackrConfig

/-!
# Storing a file

`LauncherSettings.saveSettings` and `PackrConfig.patch` write a temporary file
and move it over the stored one. The move is atomic where the file systems allow
that, otherwise the target is removed and the file copied. The two methods differ
in what they do about an `IOException`.
-/
namespace OpenRune.Storing
open OpenRune.Java OpenRune.Programs OpenRune.Updates OpenRune.PackrConfig

/-! ## Operations -/

/-- A file that is there and can be written is opened and read. -/
inductive Reading
  | absent
  | failed (thrown : Thrown)
  | content (bytes : ByteArray)

inductive Moved
  | moved
  | notSupported
  | failed (thrown : Thrown)

/-- The target is the stored file, the source the temporary one. -/
inductive Op
  | readTarget
  | createTempFile
  | newFileOutputStream
  | lock
  | toJson (content : ByteArray)
  | flush (content : ByteArray)
  | force
  | close
  | moveAtomic
  | removeTarget
  | createTarget
  | copyPiece (piece : ByteArray)
  | closeTarget
  | deleteSource
  | deleteTarget

def Reply : Op → Type
  | .readTarget => Reading
  | .moveAtomic => Moved
  | .deleteTarget => Bool
  | _ => Except Thrown Unit

abbrev storing : Signature := ⟨Op,Reply⟩

abbrev Method (α : Type) := Program storing Thrown α

def ask (op : Op) : Method (Reply op) := @perform storing Thrown op

/-- The portions in which a file is copied. -/
structure Volume where
  pieces : ByteArray → List ByteArray
  whole : ∀ content, (pieces content).foldl (fun copied piece => copied ++ piece) ByteArray.empty = content

/-! ## The methods -/

/-- The `try` with resources; what closing them throws counts only without
    another exception. -/
def writeTemp (printed : Except Thrown ByteArray) : Method ByteArray := do
  ofOutcome (← ask .newFileOutputStream)
  let written ← attempt do
    ofOutcome (← ask .lock)
    let content ← ofOutcome printed
    ofOutcome (← ask (.toJson content))
    ofOutcome (← ask (.flush content))
    ofOutcome (← ask .force)
    return content
  let closed ← attempt do ofOutcome (← ask .close)
  let content ← ofOutcome written
  ofOutcome closed
  return content

/-- `Files.move` with `REPLACE_EXISTING` between two volumes. -/
def moveReplacing (volume : Volume) (content : ByteArray) : Method Unit := do
  ofOutcome (← ask .removeTarget)
  ofOutcome (← ask .createTarget)
  (volume.pieces content).forM fun piece => do ofOutcome (← ask (.copyPiece piece))
  ofOutcome (← ask .closeTarget)
  ofOutcome (← ask .deleteSource)

/-- The bodies of both methods' `try`. -/
def store (volume : Volume) (printed : Except Thrown ByteArray) : Method Unit := do
  ofOutcome (← ask .createTempFile)
  let content ← writeTemp printed
  match ← ask .moveAtomic with
  | .moved => return ()
  | .notSupported => moveReplacing volume content
  | .failed thrown => throw thrown

/-- `LauncherSettings.saveSettings` of settings that are printed so. -/
def saveSettings (volume : Volume) (printed : Except Thrown ByteArray) : Method Unit := do
  match ← attempt (store volume printed) with
  | .ok _ => return ()
  | .error thrown =>
    if thrown.isIOException then
      let _ ← ask .deleteTarget
      return ()
    throw thrown

/-- A handler that only logs. -/
def caught (thrown : Thrown) : Method Unit := if thrown.isIOException then return () else throw thrown

/-- `PackrConfig.patch` after the file was read. -/
def patchContent (volume : Volume) (patcher : Patcher) (consumer : Consumer) (bytes : ByteArray) : Method Unit :=
  match patcher.gson.fromJson (patcher.defaultCharset bytes) with
  | .error _ => return ()
  | .ok none => return ()
  | .ok (some config) => do
    let patched ← ofOutcome (consumer config)
    match ← attempt (store volume ((patcher.gson.toJson patched).map String.toUTF8)) with
    | .ok _ => return ()
    | .error thrown => caught thrown

/-- `PackrConfig.patch`. -/
def patch (volume : Volume) (patcher : Patcher) (consumer : Consumer) : Method Unit := do
  if getOs patcher.host.machine ≠ .Windows ∧ getOs patcher.host.machine ≠ .MacOS then return ()
  match ← ask .readTarget with
  | .absent => return ()
  | .failed thrown => caught thrown
  | .content bytes => patchContent volume patcher consumer bytes

/-! ## The disk -/

/-- The two files; whether a move has removed the target and whether it has
    copied everything; whether the target was deleted because of an exception. -/
structure World where
  target : Option ByteArray
  temp : Option ByteArray
  removed : Bool
  copied : Bool
  deleted : Bool

def World.begin (target : Option ByteArray) : World := ⟨target,none,false,false,false⟩

/-- Any step may fail. A failed step of the copying leaves anything behind. -/
def Reacts : Environment storing World := fun op w =>
  match op with
  | .readTarget => fun reply w' => w' = w ∧ ∀ bytes, reply = .content bytes → w.target = some bytes
  | .createTempFile => fun _ w' => ∃ temp, w' = { w with temp := temp }
  | .newFileOutputStream => fun _ w' => ∃ temp, w' = { w with temp := temp }
  | .lock => fun _ w' => w' = w
  | .toJson _ => fun _ w' => ∃ temp, w' = { w with temp := temp }
  | .flush content => fun reply w' => ∃ temp, w' = { w with temp := temp } ∧ (reply = .ok () → temp = some content)
  | .force => fun _ w' => w' = w
  | .close => fun _ w' => w' = w
  | .moveAtomic => fun reply w' => match reply with
    | .moved => w.temp.isSome ∧ w' = { w with target := w.temp, temp := none }
    | _ => w' = w
  | .removeTarget => fun reply w' => match reply with
    | .ok _ => w' = { w with target := none, removed := true }
    | .error _ => w' = w
  | .createTarget => fun reply w' => match reply with
    | .ok _ => w' = { w with target := some ByteArray.empty }
    | .error _ => ∃ target, w' = { w with target := target }
  | .copyPiece piece => fun reply w' => match reply with
    | .ok _ => w' = { w with target := w.target.map fun copied => copied ++ piece }
    | .error _ => ∃ target, w' = { w with target := target }
  | .closeTarget => fun reply w' => match reply with
    | .ok _ => w' = { w with copied := true }
    | .error _ => ∃ target, w' = { w with target := target }
  | .deleteSource => fun reply w' => match reply with
    | .ok _ => w' = { w with temp := none }
    | .error _ => w' = w
  | .deleteTarget => fun reply w' => match reply with
    | true => w.target.isSome ∧ w' = { w with target := none, deleted := true }
    | false => w' = w

/-! ## What is stored -/

/-- The old content or all of the new one. -/
def Stored (old : Option ByteArray) (printed : Except Thrown ByteArray) (target : Option ByteArray) : Prop :=
  target = old ∨ ∃ content, printed = .ok content ∧ target = some content

/-- Nothing was deleted, and what a move has removed it has replaced. -/
def World.spared (w : World) : Prop := w.deleted = false ∧ (w.removed = true → w.copied = true)

def Safe (old : Option ByteArray) (printed : Except Thrown ByteArray) (w : World) : Prop :=
  w.spared → Stored old printed w.target

/-- Before the move. -/
def Untouched (old : Option ByteArray) (w : World) : Prop :=
  w.target = old ∧ w.removed = false ∧ w.copied = false ∧ w.deleted = false

section
variable {volume : Volume} {old : Option ByteArray} {printed : Except Thrown ByteArray} {w : World}

theorem untouched_safe (untouched : Untouched old w) : Safe old printed w := fun _ => .inl untouched.1

/-- The content that was printed is in the temporary file. -/
def Written (printed : Except Thrown ByteArray) (outcome : Except Thrown ByteArray) (t : World) : Prop :=
  ∀ content, outcome = .ok content → printed = .ok content ∧ t.temp = some content

theorem writeTemp_spec (untouched : Untouched old w) :
    Ensures Reacts (fun _ t => Untouched old t) (writeTemp printed)
      (fun outcome t => Untouched old t ∧ Written printed outcome t) w := by
  have failed (thrown : Thrown) (t : World) : Written printed (.error thrown) t := by simp [Written]
  refine ensures_perform untouched ?_
  rintro opened t ⟨temp,rfl⟩
  refine ensures_outcome (fun _ _ => ?_) fun thrown _ => ⟨untouched,failed _ _⟩
  refine ensures_attempt ?_
  suffices body : Ensures Reacts (fun _ t => Untouched old t) _
      (fun outcome t => Untouched old t ∧ Written printed outcome t) { w with temp := temp } by
    refine ensures_mono body ?_
    rintro written t ⟨untouched,complete⟩
    refine ensures_attempt (ensures_perform untouched ?_)
    rintro closed u rfl
    refine ensures_ofOutcome (ensures_outcome ?_ fun thrown _ => ⟨untouched,failed _ _⟩)
    intro content isContent
    refine ensures_outcome ?_ fun thrown _ => ⟨untouched,failed _ _⟩
    intro _ _
    exact ⟨untouched,fun content' same => complete content' (by rw [isContent,← same])⟩
  refine ensures_perform untouched ?_
  rintro locked t rfl
  refine ensures_outcome (fun _ _ => ?_) fun thrown _ => ⟨untouched,failed _ _⟩
  refine ensures_outcome ?_ fun thrown _ => ⟨untouched,failed _ _⟩
  intro content isContent
  refine ensures_perform untouched ?_
  rintro buffered t ⟨temp,rfl⟩
  refine ensures_outcome (fun _ _ => ?_) fun thrown _ => ⟨untouched,failed _ _⟩
  refine ensures_perform untouched ?_
  rintro flushed t ⟨temp,rfl,complete⟩
  refine ensures_outcome (fun _ isFlushed => ?_) fun thrown _ => ⟨untouched,failed _ _⟩
  refine ensures_perform untouched ?_
  rintro forced t rfl
  refine ensures_outcome (fun _ _ => ?_) fun thrown _ => ⟨untouched,failed _ _⟩
  refine ⟨untouched,?_⟩
  rintro content' same
  cases same
  exact ⟨isContent,complete isFlushed⟩

/-- While the pieces are copied. -/
def Copying (copied : ByteArray) (w : World) : Prop :=
  w.target = some copied ∧ w.removed = true ∧ w.copied = false

theorem unfinished_safe (removed : w.removed = true) (unfinished : w.copied = false) : Safe old printed w := by
  intro spared
  have finished := spared.2 removed
  rw [unfinished] at finished
  cases finished

/-- The copying of the pieces that are left. -/
theorem copyPieces_spec {content copied : ByteArray} {pieces : List ByteArray} (copying : Copying copied w)
    (rest : pieces.foldl (fun copied piece => copied ++ piece) copied = content) :
    Ensures Reacts (fun _ t => Safe old printed t)
      (pieces.forM fun piece => do ofOutcome (← ask (.copyPiece piece)))
      (fun outcome t => match outcome with
        | .ok _ => Copying content t
        | .error _ => Safe old printed t) w := by
  let Rest : List ByteArray → World → Prop := fun pieces t =>
    ∃ copied, Copying copied t ∧ pieces.foldl (fun copied piece => copied ++ piece) copied = content
  have start : Rest pieces w := ⟨copied,copying,rest⟩
  refine ensures_forM start ?_ ?_
  · rintro piece rest t ⟨copied,⟨here,removed,unfinished⟩,whole⟩
    refine ensures_perform (unfinished_safe removed unfinished) ?_
    rintro (thrown | done) u reacts
    · obtain ⟨target,rfl⟩ := reacts
      exact unfinished_safe removed unfinished
    · cases reacts
      exact ⟨copied ++ piece,⟨by simp [here],removed,unfinished⟩,whole⟩
  · rintro t ⟨copied,copying,whole⟩
    cases whole
    exact copying

theorem moveReplacing_spec {content : ByteArray} (untouched : Untouched old w) (isContent : printed = .ok content) :
    Ensures Reacts (fun _ t => Safe old printed t) (moveReplacing volume content)
      (fun _ t => Safe old printed t) w := by
  refine ensures_perform (untouched_safe untouched) ?_
  rintro (thrown | done) t reacts
  · cases reacts
    exact untouched_safe untouched
  · cases reacts
    have unfinished : w.copied = false := untouched.2.2.1
    refine ensures_perform (unfinished_safe rfl unfinished) ?_
    rintro (thrown | done) t reacts
    · obtain ⟨target,rfl⟩ := reacts
      exact unfinished_safe rfl unfinished
    · cases reacts
      have copying : Copying ByteArray.empty { w with target := some ByteArray.empty, removed := true } :=
        ⟨rfl,rfl,unfinished⟩
      change Ensures Reacts _ ((volume.pieces content).forM _ >>= _) _ _
      refine ensures_bind (ensures_mono (copyPieces_spec copying (volume.whole content)) ?_)
      rintro (thrown | done) t holds
      · exact holds
      · obtain ⟨here,removed,unfinished⟩ := holds
        refine ensures_perform (unfinished_safe removed unfinished) ?_
        rintro (thrown | done) u reacts
        · obtain ⟨target,rfl⟩ := reacts
          exact unfinished_safe removed unfinished
        · cases reacts
          have complete : Stored old printed t.target := .inr ⟨content,isContent,here⟩
          refine ensures_perform (fun _ => complete) ?_
          rintro (thrown | done) u reacts
          · cases reacts
            exact fun _ => complete
          · cases reacts
            exact fun _ => complete

theorem store_spec (untouched : Untouched old w) :
    Ensures Reacts (fun _ t => Safe old printed t) (store volume printed) (fun _ t => Safe old printed t) w := by
  refine ensures_perform (untouched_safe untouched) ?_
  rintro created t ⟨temp,rfl⟩
  refine ensures_outcome (fun _ _ => ?_) fun _ _ => untouched_safe untouched
  have written : Ensures Reacts (fun _ t => Safe old printed t) (writeTemp printed)
      (fun outcome t => Untouched old t ∧ Written printed outcome t) { w with temp := temp } :=
    ensures_guard (writeTemp_spec untouched) fun _ _ untouched => untouched_safe untouched
  refine ensures_bind (ensures_mono written ?_)
  rintro (thrown | content) t ⟨untouched,complete⟩
  · exact untouched_safe untouched
  · obtain ⟨isContent,inTemp⟩ := complete content rfl
    refine ensures_perform (untouched_safe untouched) ?_
    rintro (moved | notSupported | thrown) u reacts
    · obtain ⟨_,rfl⟩ := reacts
      exact fun _ => .inr ⟨content,isContent,inTemp⟩
    · cases reacts
      exact moveReplacing_spec untouched isContent
    · cases reacts
      exact untouched_safe untouched

/-- Whatever the handler deletes, it makes a note of. -/
theorem saveSettings_spec (untouched : Untouched old w) :
    Ensures Reacts (fun _ t => Safe old printed t) (saveSettings volume printed) (fun _ t => Safe old printed t) w := by
  refine ensures_attempt (ensures_mono (store_spec untouched) ?_)
  rintro (thrown | done) t safe
  · cases caught : thrown.isIOException with
    | false =>
      simp only [caught]
      exact safe
    | true =>
      simp only [caught]
      refine ensures_perform safe ?_
      rintro (_ | _) u reacts
      · cases reacts
        exact safe
      · obtain ⟨_,rfl⟩ := reacts
        exact fun spared => absurd spared.1 (by simp)
  · exact safe

/-- What a patch makes of the stored content, if it can be patched. -/
def patchedContent (patcher : Patcher) (consumer : Consumer) (old : Option ByteArray) : Except Thrown ByteArray :=
  match old.bind fun bytes => patchText patcher.gson consumer (patcher.defaultCharset bytes) with
  | some written => .ok written.toUTF8
  | none => .error .unchecked

theorem stored_patched {patcher : Patcher} {consumer : Consumer} {bytes : ByteArray} {config patched : Config}
    {target : Option ByteArray} (read : patcher.gson.fromJson (patcher.defaultCharset bytes) = .ok (some config))
    (changed : consumer config = .ok patched)
    (stored : Stored old ((patcher.gson.toJson patched).map String.toUTF8) target) (here : old = some bytes) :
    Stored old (patchedContent patcher consumer old) target := by
  rcases stored with same | ⟨content,isContent,replaced⟩
  · exact .inl same
  · cases printed : patcher.gson.toJson patched with
    | error thrown => simp [printed,Except.map] at isContent
    | ok written =>
      rw [printed] at isContent
      cases isContent
      refine .inr ⟨written.toUTF8,?_,replaced⟩
      simp [patchedContent,here,patchText,read,changed,printed]

theorem caught_spec {guard : Op → World → Prop} {post : Except Thrown Unit → World → Prop} (thrown : Thrown)
    (holds : ∀ outcome, post outcome w) : Ensures Reacts guard (caught thrown) post w := by
  unfold caught
  split_ifs
  · exact holds _
  · exact holds _

theorem patchContent_spec {patcher : Patcher} {consumer : Consumer} {bytes : ByteArray} (untouched : Untouched old w)
    (here : old = some bytes) :
    Ensures Reacts (fun _ t => Safe old (patchedContent patcher consumer old) t)
      (patchContent volume patcher consumer bytes) (fun _ t => Safe old (patchedContent patcher consumer old) t) w := by
  unfold patchContent
  split
  · exact untouched_safe untouched
  · exact untouched_safe untouched
  · next config read =>
    refine ensures_outcome ?_ fun _ _ => untouched_safe untouched
    intro patched changed
    have weaker (t : World) (safe : Safe old ((patcher.gson.toJson patched).map String.toUTF8) t) :
        Safe old (patchedContent patcher consumer old) t :=
      fun spared => stored_patched read changed (safe spared) here
    refine ensures_attempt (ensures_mono (ensures_guard (store_spec untouched) fun _ => weaker) ?_)
    rintro (thrown | done) t safe
    · exact caught_spec thrown fun _ => weaker t safe
    · exact weaker t safe

theorem patch_spec {patcher : Patcher} {consumer : Consumer} (untouched : Untouched old w) :
    Ensures Reacts (fun _ t => Safe old (patchedContent patcher consumer old) t) (patch volume patcher consumer)
      (fun _ t => Safe old (patchedContent patcher consumer old) t) w := by
  unfold patch
  split_ifs with other
  · exact untouched_safe untouched
  · refine ensures_perform (untouched_safe untouched) ?_
    rintro (absent | thrown | bytes) t ⟨rfl,isBytes⟩
    · exact untouched_safe untouched
    · exact caught_spec thrown fun _ => untouched_safe untouched
    · exact patchContent_spec untouched (untouched.1 ▸ isBytes bytes rfl)

end

/-! ## Only `saveSettings` deletes the file on purpose -/

def Op.keeps : Op → Prop
  | .deleteTarget => False
  | _ => True

theorem writeTemp_keeps (printed : Except Thrown ByteArray) : Only Op.keeps (writeTemp printed) := by
  refine only_bind (only_perform trivial) fun opened => only_bind (only_ofOutcome opened) fun _ => ?_
  refine only_bind (only_attempt ?_) fun written => ?_
  · refine only_bind (only_perform trivial) fun locked => only_bind (only_ofOutcome locked) fun _ => ?_
    refine only_bind (only_ofOutcome printed) fun content => ?_
    refine only_bind (only_perform trivial) fun buffered => only_bind (only_ofOutcome buffered) fun _ => ?_
    refine only_bind (only_perform trivial) fun flushed => only_bind (only_ofOutcome flushed) fun _ => ?_
    exact only_bind (only_perform trivial) fun forced => only_bind (only_ofOutcome forced) fun _ => only_pure content
  · refine only_bind (only_attempt ?_) fun closed => ?_
    · exact only_bind (only_perform trivial) fun closed => only_ofOutcome closed
    · exact only_bind (only_ofOutcome written) fun content => only_bind (only_ofOutcome closed) fun _ => only_pure content

theorem moveReplacing_keeps (volume : Volume) (content : ByteArray) : Only Op.keeps (moveReplacing volume content) := by
  refine only_bind (only_perform trivial) fun removed => only_bind (only_ofOutcome removed) fun _ => ?_
  refine only_bind (only_perform trivial) fun created => only_bind (only_ofOutcome created) fun _ => ?_
  refine only_bind (only_forM ?_ _) fun _ => ?_
  · intro piece
    exact only_bind (only_perform trivial) fun copied => only_ofOutcome copied
  · refine only_bind (only_perform trivial) fun closed => only_bind (only_ofOutcome closed) fun _ => ?_
    exact only_bind (only_perform trivial) fun deleted => only_ofOutcome deleted

theorem store_keeps (volume : Volume) (printed : Except Thrown ByteArray) : Only Op.keeps (store volume printed) := by
  refine only_bind (only_perform trivial) fun created => only_bind (only_ofOutcome created) fun _ => ?_
  refine only_bind (writeTemp_keeps printed) fun content => ?_
  refine only_bind (only_perform trivial) fun reply => ?_
  rcases reply with moved | notSupported | thrown
  · exact only_pure ()
  · exact moveReplacing_keeps volume content
  · exact only_throw thrown

theorem caught_keeps (thrown : Thrown) : Only Op.keeps (caught thrown) := by
  unfold caught
  split_ifs
  · exact only_pure ()
  · exact only_throw thrown

theorem patch_keeps (volume : Volume) (patcher : Patcher) (consumer : Consumer) :
    Only Op.keeps (patch volume patcher consumer) := by
  unfold patch
  split_ifs
  · exact only_pure ()
  · refine only_bind (only_perform trivial) fun read => ?_
    rcases read with absent | thrown | bytes
    · exact only_pure ()
    · exact caught_keeps thrown
    · simp only [patchContent]
      split
      · exact only_pure ()
      · exact only_pure ()
      · refine only_bind (only_ofOutcome _) fun patched => ?_
        refine only_bind (only_attempt (store_keeps volume _)) fun stored => ?_
        rcases stored with thrown | done
        · exact caught_keeps thrown
        · exact only_pure ()

theorem reacts_keeps {op : Op} {reply : Reply op} {w t : World} (keeps : op.keeps) (kept : w.deleted = false)
    (reacts : Reacts op w reply t) : t.deleted = false := by
  cases op with
  | readTarget => exact reacts.1 ▸ kept
  | createTempFile | newFileOutputStream | toJson =>
    obtain ⟨temp,rfl⟩ := reacts
    exact kept
  | flush =>
    obtain ⟨temp,rfl,_⟩ := reacts
    exact kept
  | lock | force | close =>
    cases reacts
    exact kept
  | moveAtomic =>
    rcases reply with moved | notSupported | thrown
    · exact reacts.2 ▸ kept
    · exact reacts ▸ kept
    · exact reacts ▸ kept
  | removeTarget | deleteSource =>
    rcases reply with thrown | done
    · exact reacts ▸ kept
    · exact reacts ▸ kept
  | createTarget | copyPiece | closeTarget =>
    rcases reply with thrown | done
    · obtain ⟨target,rfl⟩ := reacts
      exact kept
    · exact reacts ▸ kept
  | deleteTarget => exact absurd keeps id

/-- At any moment, also where the process is killed: the file holds the old
    content or all of the new one, unless `saveSettings` has deleted it, or a move
    that is not atomic has removed it and not copied everything. -/
theorem stored_whole (volume : Volume) (old : Option ByteArray) :
    (∀ printed rest t, Steps Reacts (saveSettings volume printed) (World.begin old) rest t → t.spared →
      Stored old printed t.target) ∧
    ∀ patcher consumer rest t, Steps Reacts (patch volume patcher consumer) (World.begin old) rest t →
      (t.removed = true → t.copied = true) → Stored old (patchedContent patcher consumer old) t.target := by
  have untouched : Untouched old (World.begin old) := ⟨rfl,rfl,rfl,rfl⟩
  constructor
  · intro printed rest t steps
    exact ensures_reached (saveSettings_spec untouched) steps
  · intro patcher consumer rest t steps replaced
    let Kept : World → Prop := fun t => t.deleted = false
    have kept : Ensures Reacts (fun _ t => Kept t) (patch volume patcher consumer) (fun _ t => Kept t)
        (World.begin old) :=
      ensures_only (patch_keeps volume patcher consumer) rfl (fun _ _ _ kept => kept)
        fun _ _ _ _ keeps kept reacts => reacts_keeps keeps kept reacts
    have spared : Kept t := ensures_reached kept steps
    exact ensures_reached (patch_spec untouched) steps ⟨spared,replaced⟩

/-! ## Two ways to lose the settings -/

/-- A disk that may be full, and may have the temporary files on another volume. -/
private def disk (full atomic : Bool) : Handler storing World := fun op w =>
  match op with
  | .readTarget => (match w.target with
    | some bytes => .content bytes
    | none => .absent,w)
  | .createTempFile => (.ok (),{ w with temp := some ByteArray.empty })
  | .newFileOutputStream => (.ok (),w)
  | .lock => (.ok (),w)
  | .toJson _ => (.ok (),w)
  | .flush content => if full then (.error .io,w) else (.ok (),{ w with temp := some content })
  | .force => (.ok (),w)
  | .close => (.ok (),w)
  | .moveAtomic =>
    if atomic && w.temp.isSome then (.moved,{ w with target := w.temp, temp := none }) else (.notSupported,w)
  | .removeTarget => (.ok (),{ w with target := none, removed := true })
  | .createTarget => (.ok (),{ w with target := some ByteArray.empty })
  | .copyPiece piece => (.ok (),{ w with target := w.target.map fun copied => copied ++ piece })
  | .closeTarget => (.ok (),{ w with copied := true })
  | .deleteSource => (.ok (),{ w with temp := none })
  | .deleteTarget => if w.target.isSome then (true,{ w with target := none, deleted := true }) else (false,w)

private theorem disk_reacts (full atomic : Bool) (op : Op) (w : World) :
    Reacts op w (disk full atomic op w).1 (disk full atomic op w).2 := by
  cases op with
  | readTarget =>
    refine ⟨rfl,?_⟩
    intro bytes read
    cases here : w.target with
    | none => simp [disk,here] at read
    | some stored =>
      simp only [disk,here] at read
      cases read
      rfl
  | createTempFile => exact ⟨_,rfl⟩
  | newFileOutputStream | toJson => exact ⟨w.temp,rfl⟩
  | flush content =>
    cases full with
    | true => exact ⟨w.temp,rfl,fun flushed => by cases flushed⟩
    | false => exact ⟨_,rfl,fun _ => rfl⟩
  | moveAtomic =>
    cases possible : atomic && w.temp.isSome with
    | true =>
      simp only [disk,possible]
      exact ⟨(Bool.and_eq_true _ _ ▸ possible).2,rfl⟩
    | false =>
      simp only [disk,possible]
      rfl
  | deleteTarget =>
    cases here : w.target.isSome with
    | true =>
      simp only [disk,here]
      exact ⟨here,rfl⟩
    | false =>
      simp only [disk,here]
      rfl
  | lock | force | close | removeTarget | createTarget | copyPiece | closeTarget | deleteSource => rfl

private def oneByte : Volume where
  pieces content := [content]
  whole _ := by simp

private def old : ByteArray := "\x7b\x7d".toUTF8

private def new : Except Thrown ByteArray := .ok "\x7b\"debug\": true\x7d".toUTF8

private def saved (full atomic : Bool) (steps : Nat) : World :=
  (advance (disk full atomic) steps (saveSettings oneByte new) (World.begin (some old))).2

theorem stored_whole_sample : Stored (some old) new (saved false false 13).target :=
  (stored_whole oneByte (some old)).1 new _ _ (advance_steps (disk_reacts false false) 13 _ _) ⟨rfl,fun _ => rfl⟩

private theorem full_disk : Runs Reacts (saveSettings oneByte new) (World.begin (some old)) (.ok ())
    (execute (disk true true) (saveSettings oneByte new) (World.begin (some old))).2 :=
  execute_runs (disk_reacts true true) (saveSettings oneByte new) (World.begin (some old))

/-- On a full disk the settings are deleted; and between two volumes they are
    missing when the process is killed after it has removed them. -/
theorem settings_lost :
    (∃ t, Runs Reacts (saveSettings oneByte new) (World.begin (some old)) (.ok ()) t ∧ t.target = none) ∧
      ∃ rest t, Steps Reacts (saveSettings oneByte new) (World.begin (some old)) rest t ∧ t.target = none :=
  ⟨⟨_,full_disk,rfl⟩,_,_,advance_steps (disk_reacts false false) 9 _ _,rfl⟩

end OpenRune.Storing
