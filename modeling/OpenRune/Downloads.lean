import OpenRune.Operations

/-!
# Downloads

`Launcher.download(String, String, IntConsumer, OutputStream)`, which both the
repository directory and the updater use, for any operations that connect, show
progress and write.
-/
namespace OpenRune.Downloads
open OpenRune.Java OpenRune.Programs OpenRune.Operations

section
variable {sig : Signature} {σ : Type}

/-- One turn of the loop: the bytes so far, which are also the position of the
    output, and the progress. -/
def copyBuffer (progress : Int → Program sig Thrown Unit) (write : Nat → Bytes → Program sig Thrown Unit)
    (sofar : Bytes × Int) (buffer : Bytes) : Program sig Thrown (Bytes × Int) := do
  write sofar.1.length buffer
  let downloaded := int32 (sofar.2 + buffer.length)
  progress downloaded
  return (sofar.1 ++ buffer,downloaded)

/-- The output is given by its `write`; the bytes written are returned as well. -/
def downloadTo (sha256 : Bytes → String) (connect : Program sig Thrown Connection) (hash : Option String)
    (progress : Int → Program sig Thrown Unit) (write : Nat → Bytes → Program sig Thrown Unit) :
    Program sig Thrown Bytes := do
  match ← connect with
  | .refused thrown => throw thrown
  | .errorStream => throw .io
  | .stream reads cut =>
    let sofar ← reads.foldlM (copyBuffer progress write) ([],0)
    if cut then throw .io
    let expected ← ofOutcome (deref hash)
    if expected = sha256 sofar.1 then return sofar.1 else throw .verification

variable {sha256 : Bytes → String} {connect : Program sig Thrown Connection} {hash : Option String}
  {progress : Int → Program sig Thrown Unit} {write : Nat → Bytes → Program sig Thrown Unit}

theorem downloadTo_only {allowed : sig.Op → Prop} (connects : Only allowed connect)
    (progresses : ∀ completed, Only allowed (progress completed))
    (writes : ∀ position buffer, Only allowed (write position buffer)) :
    Only allowed (downloadTo sha256 connect hash progress write) := by
  refine only_bind connects ?_
  rintro (thrown | - | ⟨reads,cut⟩)
  · exact only_throw _
  · exact only_throw _
  · refine only_bind (only_foldlM ?_ reads _) ?_
    · intro sofar buffer
      exact only_bind (writes _ _) fun _ => only_bind (progresses _) fun _ => only_pure _
    · intro sofar
      split
      · exact only_throw _
      · refine only_bind (only_ofOutcome _) ?_
        intro expected
        split
        · exact only_pure _
        · exact only_throw _

/-- What the writes establish of the bytes so far holds of all of them at the end,
    and a normal end means that they have the hash. -/
theorem downloadTo_spec {env : Environment sig σ} {guard : sig.Op → σ → Prop} {inv : Bytes → σ → Prop} {s : σ}
    (connects : Ensures env guard connect (fun _ t => inv [] t) s)
    (writes : ∀ sofar buffer t, inv sofar t →
      Ensures env guard (write sofar.length buffer) (fun outcome u => outcome = .ok () → inv (sofar ++ buffer) u) t)
    (progresses : ∀ completed sofar t, inv sofar t →
      Ensures env guard (progress completed) (fun _ u => inv sofar u) t) :
    Ensures env guard (downloadTo sha256 connect hash progress write) (fun outcome t =>
      ∀ bytes, outcome = .ok bytes → hash = some (sha256 bytes) ∧ inv bytes t) s := by
  refine ensures_bind (ensures_mono connects ?_)
  rintro (thrown | connection) t started
  · exact nofun
  rcases connection with thrown | - | ⟨reads,cut⟩
  · exact nofun
  · exact nofun
  refine ensures_bind (@ensures_foldlM _ _ _ _ _ _ _ _ (fun _ sofar u => inv sofar.1 u) _ _ _ _ started ?_ ?_)
  · intro buffer rest sofar u holds
    refine ensures_bind (ensures_mono (writes _ buffer u holds) ?_)
    rintro (thrown | done) v written
    · exact nofun
    refine ensures_bind (ensures_mono (progresses _ _ v (written rfl)) ?_)
    rintro (thrown | done) x still
    · exact nofun
    · exact still
  · intro sofar u holds
    dsimp only
    split
    · exact nofun
    · refine ensures_outcome ?_ fun _ _ => nofun
      intro expected given
      split
      · rename_i same
        intro bytes ended
        cases ended
        cases hash with
        | none => cases given
        | some found =>
          cases given
          exact ⟨congrArg some same,holds⟩
      · exact nofun

end
end OpenRune.Downloads
