import OpenRune.Downloads
import OpenRune.RunningTotals

/-!
# Streamed downloads

One call of `Launcher.download(String, String, IntConsumer, OutputStream)` on its
own. However the body is cut into reads, what is written, what is reported and how
the call ends depend on the bytes that were read.
-/
namespace OpenRune.StreamedDownloads
open OpenRune.Java OpenRune.Programs OpenRune.Downloads OpenRune.RunningTotals
open OpenRune.Operations (Bytes Connection overwrite overwrite_end)

/-- What a call does with its arguments: the connection, the callback and the
    output stream. -/
inductive Op
  | connect (path : String)
  | accept (downloaded : Int)
  | write (position : Nat) (buffer : Bytes)

def Reply : Op → Type
  | .connect _ => Connection
  | .accept _ => Unit
  | .write _ _ => Except Thrown Unit

abbrev transfer : Signature := ⟨Op,Reply⟩

abbrev Transferring (α : Type) := Program transfer Thrown α

def ask (op : Op) : Transferring (Reply op) := @perform transfer Thrown op

/-- `Launcher.download(path, hash, progress, out)`, which returns nothing; the bytes
    that were hashed are given here. -/
def download (sha256 : Bytes → String) (path : String) (hash : Option String) : Transferring Bytes :=
  downloadTo sha256 (ask (.connect path)) hash (fun downloaded => ask (.accept downloaded))
    fun position buffer => do ofOutcome (← ask (.write position buffer))

/-- What the caller has got so far. -/
structure Receiver where
  out : Bytes := []
  progress : List Int := []
  deriving DecidableEq, Repr

/-- A server that sends the reads, and then breaks off or not. -/
def sending (reads : List Bytes) (cut : Bool) : Handler transfer Receiver
  | .connect _, receiver => (.stream reads cut,receiver)
  | .accept downloaded, receiver => ((),{ receiver with progress := receiver.progress ++ [downloaded] })
  | .write position buffer, receiver => (.ok (),{ receiver with out := overwrite receiver.out position buffer })

section
variable {sha256 : Bytes → String} {path : String} {hash : Option String} {reads : List Bytes} {cut : Bool}

/-- One turn of the loop: the chunk is appended, and the new length reported. -/
theorem copyBuffer_sent (sent : List Bytes) (shown : List Int) (sofar buffer : Bytes)
    (short : sofar.length + buffer.length < 2 ^ 31) :
    execute (sending sent cut) (copyBuffer (fun downloaded => ask (.accept downloaded))
        (fun position buffer => do ofOutcome (← ask (.write position buffer))) (sofar,sofar.length) buffer)
        ⟨sofar,shown⟩ =
      (.ok (sofar ++ buffer,((sofar.length + buffer.length : Nat) : Int)),
        ⟨sofar ++ buffer,shown ++ [((sofar.length + buffer.length : Nat) : Int)]⟩) := by
  have exact' : int32 (sofar.length + buffer.length) = ((sofar.length + buffer.length : Nat) : Int) := by
    rw [int32_eq (by omega) (by omega)]
    omega
  unfold copyBuffer
  rw [execute_bind]
  change (execute (sending sent cut) _ (⟨overwrite sofar sofar.length buffer,shown⟩ : Receiver)) = _
  rw [overwrite_end,exact']
  rfl

/-- The whole loop. -/
theorem copyBuffers_sent (sent : List Bytes) (shown : List Int) (sofar : Bytes)
    (short : sofar.length + reads.flatten.length < 2 ^ 31) :
    execute (sending sent cut) (reads.foldlM (copyBuffer (fun downloaded => ask (.accept downloaded))
        (fun position buffer => do ofOutcome (← ask (.write position buffer)))) (sofar,(sofar.length : Int)))
        ⟨sofar,shown⟩ =
      (.ok (sofar ++ reads.flatten,((sofar.length + reads.flatten.length : Nat) : Int)),
        ⟨sofar ++ reads.flatten,shown ++ (totals sofar.length (reads.map List.length)).map Nat.cast⟩) := by
  induction reads generalizing sofar shown with
  | nil => simp [execute,pure]
  | cons buffer rest ih =>
    rw [List.flatten_cons,List.length_append] at short
    rw [List.foldlM_cons,execute_bind,copyBuffer_sent sent shown sofar buffer (by omega)]
    have later := ih (shown ++ [((sofar.length + buffer.length : Nat) : Int)]) (sofar ++ buffer)
      (by rw [List.length_append]; omega)
    rw [List.length_append] at later
    dsimp only
    rw [later]
    simp [Nat.add_assoc]

/-- How a call ends once the body has been read. -/
def verdict (sha256 : Bytes → String) (hash : Option String) (body : Bytes) (cut : Bool) : Except Thrown Bytes :=
  if cut then .error .io
  else match hash with
    | none => .error .unchecked
    | some expected => if expected = sha256 body then .ok body else .error .verification

theorem download_sent (short : reads.flatten.length < 2 ^ 31) :
    execute (sending reads cut) (download sha256 path hash) {} = (verdict sha256 hash reads.flatten cut,
      ⟨reads.flatten,(totals 0 (reads.map List.length)).map Nat.cast⟩) := by
  have copied := @copyBuffers_sent reads cut reads [] [] (by simpa using short)
  simp only [List.nil_append,List.length_nil,Nat.zero_add,Nat.cast_zero] at copied
  unfold download downloadTo
  change execute (sending reads cut) (reads.foldlM _ ([],0) >>= _) {} = _
  rw [execute_bind,copied]
  cases cut with
  | true => rfl
  | false =>
    cases hash with
    | none => rfl
    | some expected =>
      by_cases same : expected = sha256 reads.flatten
      · simp [verdict,same,execute,pure,bind,Program.bind,ofOutcome]
      · simp only [verdict,if_neg same]
        change execute _ (if expected = sha256 reads.flatten then _ else _) _ = _
        rw [if_neg same]
        rfl

/-- What the caller has when a call has ended, and how it has ended. -/
structure Streamed (sha256 : Bytes → String) (hash : Option String) (reads : List Bytes) (cut : Bool)
    (outcome : Except Thrown Bytes) (receiver : Receiver) : Prop where
  written : receiver.out = reads.flatten
  reported : receiver.progress = (totals 0 (reads.map List.length)).map Nat.cast
  increasing : receiver.progress.Pairwise (· < ·)
  completed : reads.flatten ≠ [] → receiver.progress.getLast? = some (reads.flatten.length : Int)
  returns : cut = false → (outcome.isOk = true ↔ hash = some (sha256 reads.flatten))
  refuses : cut = false → ∀ expected, hash = some expected → expected ≠ sha256 reads.flatten →
    outcome = .error .verification
  breaks : cut = true → outcome = .error .io

/-- Whatever the reads are that a body of less than 2^31 bytes comes in, and
    wherever it breaks off. -/
theorem download_streamed (sha256 : Bytes → String) (path : String) (hash : Option String) {reads : List Bytes}
    (cut : Bool) (filled : ∀ buffer ∈ reads, buffer ≠ []) (short : reads.flatten.length < 2 ^ 31) :
    Streamed sha256 hash reads cut (execute (sending reads cut) (download sha256 path hash) {}).1
      (execute (sending reads cut) (download sha256 path hash) {}).2 := by
  rw [download_sent short]
  refine ⟨rfl,rfl,?_,fun given => ?_,?_,?_,?_⟩
  · exact (totals_strict (lengths_positive filled)).map _ fun _ _ less => Int.ofNat_lt.mpr less
  · have some' : reads.map List.length ≠ [] := by
      rintro empty
      exact given (by simp [List.map_eq_nil_iff.mp empty])
    simp [totals_last some',List.length_flatten]
  · rintro rfl
    cases hash with
    | none => simp [verdict,Except.isOk,Except.toBool]
    | some expected =>
      by_cases same : expected = sha256 reads.flatten
      · simp [verdict,same,Except.isOk,Except.toBool]
      · simp [verdict,same,Except.isOk,Except.toBool]
  · rintro rfl expected rfl differs
    simp [verdict,differs]
  · rintro rfl
    rfl

theorem download_streamed_sample :
    Streamed (fun body => toString body.length) (some "3") [[1],[2,3]] false
      (execute (sending [[1],[2,3]] false) (download (fun body => toString body.length) "client.jar" (some "3")) {}).1
      (execute (sending [[1],[2,3]] false) (download (fun body => toString body.length) "client.jar" (some "3")) {}).2 :=
  download_streamed (fun body => toString body.length) "client.jar" (some "3") false (by decide) (by decide)

end
end OpenRune.StreamedDownloads
