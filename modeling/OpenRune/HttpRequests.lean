import OpenRune.Startup

/-!
# HTTP requests

`HttpRequestManager.sendGet` on one connection, with the reads of its body and the
`finally` that closes it. The body of a failure is printed before the failure is
thrown, which needs a body.
-/
namespace OpenRune.HttpRequests
open OpenRune.Java OpenRune.Programs OpenRune.Operations OpenRune.Launchers OpenRune.Startup

/-- What is read piece by piece, and the exception that ends it if there is one. -/
structure Stream (α : Type) where
  items : List α
  ending : Option Thrown

inductive Op
  | openConnection (url : String)
  | setRequest
  | getResponseCode
  | getInputStream
  | getErrorStream
  | closeReader
  | close
  | disconnect

def Reply : Op → Type
  | .openConnection _ => Except Thrown Unit
  | .setRequest => Except Thrown Unit
  | .getResponseCode => Except Thrown Int
  | .getInputStream => Except Thrown (Stream Bytes)
  | .getErrorStream => Option (Stream (List Char))
  | .closeReader => Except Thrown Unit
  | .close => Except Thrown Unit
  | .disconnect => Unit

abbrev http : Signature := ⟨Op,Reply⟩

abbrev Requesting (α : Type) := Program http Thrown α

def ask (op : Op) : Requesting (Reply op) := @perform http Thrown op

def HTTP_OK : Int := 200

section
variable (limit : Nat)

def Stream.finish {α : Type} (stream : Stream α) : Except Thrown Unit :=
  match stream.ending with
  | none => .ok ()
  | some thrown => .error thrown

/-- `ByteArrayOutputStream.write`, with the longest array of the virtual machine. -/
def append (outputStream buffer : Bytes) : Except Thrown Bytes :=
  if limit < outputStream.length + buffer.length then .error .error else .ok (outputStream ++ buffer)

/-- `HttpRequestManager.readFully`. -/
def readFully (inputStream : Stream Bytes) : Except Thrown Bytes := do
  let outputStream ← inputStream.items.foldlM (append limit) []
  inputStream.finish
  return outputStream

/-- `BufferedReader.readLine`, which puts a line together in an array. -/
def readLine (line : List Char) : Except Thrown Unit := if limit < line.length then .error .error else .ok ()

def readLines (reader : Stream (List Char)) : Except Thrown Unit := do
  reader.items.forM (readLine limit)
  reader.finish

/-- The reader of the error stream, which is closed at the end. -/
def printLines : Requesting Unit := do
  let reader ← ofOutcome (deref (← ask .getErrorStream))
  let closed ← ask .closeReader
  ofOutcome ((readLines limit reader).bind fun _ => closed)

/-- `catch (IOException e)`. -/
def caught : Except Thrown Unit → Except Thrown Unit
  | .error thrown => if thrown.isIOException then .ok () else .error thrown
  | .ok () => .ok ()

def printBody : Requesting Unit := do
  ofOutcome (caught (← attempt (printLines limit)))

/-- Where the `try` block leaves the variables, and how it ends. -/
structure Block where
  connection : Bool
  inputStream : Bool
  outcome : Except Thrown Bytes

/-- The `try` block. -/
def request (url : String) : Requesting Block := do
  match ← ask (.openConnection url) with
  | .error thrown => return ⟨false,false,.error thrown⟩
  | .ok () =>
    match ← ask .setRequest with
    | .error thrown => return ⟨true,false,.error thrown⟩
    | .ok () =>
      match ← ask .getResponseCode with
      | .error thrown => return ⟨true,false,.error thrown⟩
      | .ok responseCode =>
        if responseCode = HTTP_OK then
          match ← ask .getInputStream with
          | .error thrown => return ⟨true,false,.error thrown⟩
          | .ok inputStream => return ⟨true,true,readFully limit inputStream⟩
        else
          return ⟨true,false,(← attempt (printBody limit)).bind fun _ => .error .io⟩

/-- `HttpRequestManager.sendGet`; a failure to close takes the place of the outcome. -/
def sendGet (url : String) : Requesting Bytes := do
  let block ← request limit url
  if block.inputStream then ofOutcome (← ask .close)
  if block.connection then ask .disconnect
  ofOutcome block.outcome

end

/-! ## One connection -/

/-- What the operations give on one connection. -/
structure Connection where
  opened : Except Thrown Unit
  requested : Except Thrown Unit
  responseCode : Except Thrown Int
  inputStream : Except Thrown (Stream Bytes)
  errorStream : Option (Stream (List Char))
  readerClosed : Except Thrown Unit
  closed : Except Thrown Unit

def Connection.answer (connection : Connection) : (op : Op) → Reply op
  | .openConnection _ => connection.opened
  | .setRequest => connection.requested
  | .getResponseCode => connection.responseCode
  | .getInputStream => connection.inputStream
  | .getErrorStream => connection.errorStream
  | .closeReader => connection.readerClosed
  | .close => connection.closed
  | .disconnect => ()

/-- Only an exception that is declared is thrown. -/
def Declared {α : Type} (outcome : Except Thrown α) : Prop := ∀ thrown, outcome = .error thrown → thrown.isIOException = true

/-- The operations throw what they declare, and there is an error stream only for a
    status from 400 on. -/
structure Connection.Documented (connection : Connection) : Prop where
  opened : Declared connection.opened
  requested : Declared connection.requested
  responseCode : Declared connection.responseCode
  inputStream : Declared connection.inputStream
  body : ∀ stream, connection.inputStream = .ok stream → Declared stream.finish
  errorBody : ∀ stream, connection.errorStream = some stream → Declared stream.finish
  readerClosed : Declared connection.readerClosed
  closed : Declared connection.closed
  failed : ∀ responseCode, connection.responseCode = .ok responseCode → responseCode < 400 → connection.errorStream = none

section
variable (limit : Nat) (connection : Connection) (url : String)

def Connection.outcome : Except Thrown Bytes := (sendGet limit url).answered connection.answer

/-- The whole body of a response with status 200, or an `IOException`. -/
def Connection.Faithful : Prop :=
  (∃ stream, connection.responseCode = .ok HTTP_OK ∧ connection.inputStream = .ok stream ∧ stream.ending = none ∧
    connection.outcome limit url = .ok stream.items.flatten) ∨
  ∃ thrown, connection.outcome limit url = .error thrown ∧ thrown.isIOException = true

/-- A body that fits into an array, or a failure to close it; for another status an
    error stream whose lines fit. -/
def Connection.Manageable : Prop :=
  connection.opened = .ok () → connection.requested = .ok () → ∀ responseCode, connection.responseCode = .ok responseCode →
    if responseCode = HTTP_OK then ∀ stream, connection.inputStream = .ok stream →
      stream.items.flatten.length ≤ limit ∨ connection.closed ≠ .ok ()
    else ∃ stream, connection.errorStream = some stream ∧ ∀ line ∈ stream.items, line.length ≤ limit

end

/-! ## Reading -/

section
variable {limit : Nat}

theorem append_all {items : List Bytes} {outputStream : Bytes} (within : outputStream.length ≤ limit) :
    items.foldlM (append limit) outputStream = if limit < outputStream.length + items.flatten.length then .error .error
      else .ok (outputStream ++ items.flatten) := by
  induction items generalizing outputStream with
  | nil => simp [Nat.not_lt.mpr within]
  | cons buffer items ih =>
    rw [List.foldlM_cons,append,List.flatten_cons,List.length_append]
    by_cases full : limit < outputStream.length + buffer.length
    · rw [if_pos full,if_pos (by omega)]
      rfl
    · rw [if_neg full,ok_bind,ih (by rw [List.length_append]; omega)]
      simp only [List.length_append,Nat.add_assoc,List.append_assoc]

theorem readFully_fits {stream : Stream Bytes} (fits : stream.items.flatten.length ≤ limit) :
    readFully limit stream = stream.finish.map fun _ => stream.items.flatten := by
  rw [readFully,append_all (Nat.zero_le limit),if_neg (by simpa using fits),ok_bind]
  cases stream.finish <;> rfl

theorem readFully_full {stream : Stream Bytes} (full : ¬ stream.items.flatten.length ≤ limit) :
    readFully limit stream = .error .error := by
  rw [readFully,append_all (Nat.zero_le limit),if_pos (by simpa using full)]
  rfl

theorem readLine_all (items : List (List Char)) : items.forM (readLine limit) =
    if ∀ line ∈ items, line.length ≤ limit then .ok () else .error .error := by
  induction items with
  | nil => rfl
  | cons line items ih =>
    change (readLine limit line >>= fun _ => items.forM (readLine limit)) = _
    by_cases long : limit < line.length
    · rw [readLine,if_pos long,if_neg fun fits => Nat.not_le.mpr long (fits line List.mem_cons_self)]
      rfl
    · rw [readLine,if_neg long,ok_bind,ih]
      simp only [List.forall_mem_cons,Nat.not_lt.mp long,true_and]

theorem readLines_fits {reader : Stream (List Char)} (fits : ∀ line ∈ reader.items, line.length ≤ limit) :
    readLines limit reader = reader.finish := by
  rw [readLines,readLine_all,if_pos fits]
  rfl

theorem readLines_full {reader : Stream (List Char)} (full : ¬ ∀ line ∈ reader.items, line.length ≤ limit) :
    readLines limit reader = .error .error := by
  rw [readLines,readLine_all,if_neg full]
  rfl

variable {connection : Connection} {url : String}

theorem bind_declared {α β : Type} {first : Except Thrown α} {second : α → Except Thrown β} (one : Declared first)
    (two : ∀ value, Declared (second value)) : Declared (first.bind second) := by
  cases first with
  | error thrown =>
    rintro thrown' same
    cases same
    exact one thrown rfl
  | ok value => exact two value

theorem declared_caught {outcome : Except Thrown Unit} (declared : Declared outcome) : caught outcome = .ok () := by
  cases outcome with
  | error thrown => exact if_pos (declared thrown rfl)
  | ok value => rfl

theorem printBody_answered : (printBody limit).answered connection.answer = caught ((deref connection.errorStream).bind
    fun reader => (readLines limit reader).bind fun _ => connection.readerClosed) := by
  have lines : (printLines limit).answered connection.answer = (deref connection.errorStream).bind fun reader =>
      (readLines limit reader).bind fun _ => connection.readerClosed := by
    unfold printLines
    change ((ofOutcome (deref connection.errorStream) : Requesting _) >>= _).answered connection.answer = _
    rw [answered_bind,answered_outcome]
    cases deref connection.errorStream with
    | error thrown => rfl
    | ok reader => exact answered_outcome _
  rw [printBody,answered_bind,answered_attempt,ok_bind,answered_outcome,lines]

/-- Printing throws nothing when there are lines that fit. -/
theorem printBody_fits (documented : connection.Documented) {reader : Stream (List Char)}
    (given : connection.errorStream = some reader) (fits : ∀ line ∈ reader.items, line.length ≤ limit) :
    (printBody limit).answered connection.answer = .ok () := by
  rw [printBody_answered,given]
  refine declared_caught ?_
  change Declared ((readLines limit reader).bind _)
  rw [readLines_fits fits]
  exact bind_declared (documented.errorBody reader given) fun _ => documented.readerClosed

theorem printBody_fails (unfit : ¬ ∃ reader, connection.errorStream = some reader ∧ ∀ line ∈ reader.items, line.length ≤ limit) :
    ∃ thrown, (printBody limit).answered connection.answer = .error thrown ∧ thrown.isIOException = false := by
  rw [printBody_answered]
  cases given : connection.errorStream with
  | none => exact ⟨.unchecked,rfl,rfl⟩
  | some reader =>
    refine ⟨.error,?_,rfl⟩
    change caught ((readLines limit reader).bind _) = _
    rw [readLines_full fun fits => unfit ⟨reader,given,fits⟩]
    rfl

/-! ## The outcome -/

/-- After the `try` block: the streams are closed, and the failure to close is thrown
    in place of the outcome. -/
theorem outcome_eq {block : Block} (left : (request limit url).answered connection.answer = .ok block) :
    connection.outcome limit url = (if block.inputStream then connection.closed else .ok ()).bind fun _ => block.outcome := by
  rw [Connection.outcome,sendGet,answered_bind,left,ok_bind]
  cases block.inputStream with
  | true =>
    rw [if_pos rfl,if_pos rfl]
    change ((ofOutcome connection.closed : Requesting Unit) >>= _).answered connection.answer = _
    rw [answered_bind,answered_outcome]
    cases connection.closed with
    | error thrown => rfl
    | ok value => cases block.connection <;> exact answered_outcome _
  | false =>
    rw [if_neg Bool.false_ne_true,if_neg Bool.false_ne_true]
    cases block.connection <;> exact answered_outcome _

theorem request_unopened {thrown : Thrown} (opened : connection.opened = .error thrown) :
    (request limit url).answered connection.answer = .ok ⟨false,false,.error thrown⟩ := by
  obtain ⟨_,_,_,_,_,_,_⟩ := connection
  subst opened
  rfl

theorem request_unsent {thrown : Thrown} (opened : connection.opened = .ok ()) (requested : connection.requested = .error thrown) :
    (request limit url).answered connection.answer = .ok ⟨true,false,.error thrown⟩ := by
  obtain ⟨_,_,_,_,_,_,_⟩ := connection
  subst opened requested
  rfl

section
variable (opened : connection.opened = .ok ()) (requested : connection.requested = .ok ())
include opened requested

theorem request_unanswered {thrown : Thrown} (answered : connection.responseCode = .error thrown) :
    (request limit url).answered connection.answer = .ok ⟨true,false,.error thrown⟩ := by
  obtain ⟨_,_,_,_,_,_,_⟩ := connection
  dsimp only at opened requested answered
  subst opened requested answered
  rfl

theorem request_stream {stream : Stream Bytes} (answered : connection.responseCode = .ok HTTP_OK)
    (given : connection.inputStream = .ok stream) :
    (request limit url).answered connection.answer = .ok ⟨true,true,readFully limit stream⟩ := by
  obtain ⟨_,_,_,_,_,_,_⟩ := connection
  dsimp only at opened requested answered given
  subst opened requested answered given
  rfl

theorem request_refused {thrown : Thrown} (answered : connection.responseCode = .ok HTTP_OK)
    (refused : connection.inputStream = .error thrown) :
    (request limit url).answered connection.answer = .ok ⟨true,false,.error thrown⟩ := by
  obtain ⟨_,_,_,_,_,_,_⟩ := connection
  dsimp only at opened requested answered refused
  subst opened requested answered refused
  rfl

theorem request_status {responseCode : Int} (answered : connection.responseCode = .ok responseCode)
    (other : responseCode ≠ HTTP_OK) : (request limit url).answered connection.answer =
      .ok ⟨true,false,((printBody limit).answered connection.answer).bind fun _ => .error .io⟩ := by
  have branch : (request limit url).answered connection.answer = (do
      return ⟨true,false,(← attempt (printBody limit)).bind fun _ => .error .io⟩ : Requesting Block).answered
        connection.answer := by
    obtain ⟨_,_,_,_,_,_,_⟩ := connection
    dsimp only at opened requested answered
    subst opened requested answered
    change (if responseCode = HTTP_OK then _ else _ : Requesting Block).answered _ = _
    rw [if_neg other]
  rw [branch,answered_bind,answered_attempt,ok_bind]
  rfl

end

theorem fails_early {thrown : Thrown} {connected : Bool} (left : (request limit url).answered connection.answer =
    .ok ⟨connected,false,.error thrown⟩) (declared : thrown.isIOException = true) : connection.Faithful limit url := by
  refine .inr ⟨thrown,?_,declared⟩
  rw [outcome_eq left,if_neg Bool.false_ne_true]
  rfl

/-- A response with status 200. -/
theorem faithful_stream (documented : connection.Documented) {stream : Stream Bytes}
    (answered : connection.responseCode = .ok HTTP_OK) (given : connection.inputStream = .ok stream)
    (left : (request limit url).answered connection.answer = .ok ⟨true,true,readFully limit stream⟩) :
    connection.Faithful limit url ↔ stream.items.flatten.length ≤ limit ∨ connection.closed ≠ .ok () := by
  have whole := outcome_eq left
  rw [if_pos rfl] at whole
  cases closed : connection.closed with
  | error thrown =>
    refine iff_of_true (.inr ⟨thrown,?_,documented.closed thrown closed⟩) (.inr (by simp))
    rw [whole,closed]
    rfl
  | ok value =>
    rw [closed] at whole
    change connection.outcome limit url = readFully limit stream at whole
    by_cases fits : stream.items.flatten.length ≤ limit
    · refine iff_of_true ?_ (.inl fits)
      rw [readFully_fits fits] at whole
      cases ended : stream.ending with
      | none =>
        refine .inl ⟨stream,answered,given,ended,?_⟩
        rw [whole,Stream.finish,ended]
        rfl
      | some thrown =>
        have finished : stream.finish = .error thrown := by rw [Stream.finish,ended]
        refine .inr ⟨thrown,?_,documented.body stream given thrown finished⟩
        rw [whole,finished]
        rfl
    · rw [readFully_full fits] at whole
      refine iff_of_false ?_ (by simpa using fits)
      rintro (⟨_,-,-,-,same⟩ | ⟨thrown,same,declared⟩)
      · rw [whole] at same
        cases same
      · rw [whole] at same
        cases same
        cases declared

/-- A response with another status. -/
theorem faithful_status (documented : connection.Documented)
    (left : (request limit url).answered connection.answer =
      .ok ⟨true,false,((printBody limit).answered connection.answer).bind fun _ => .error .io⟩) :
    connection.Faithful limit url ↔
      ∃ reader, connection.errorStream = some reader ∧ ∀ line ∈ reader.items, line.length ≤ limit := by
  have whole := outcome_eq left
  rw [if_neg Bool.false_ne_true] at whole
  change connection.outcome limit url = ((printBody limit).answered connection.answer).bind fun _ => .error .io at whole
  by_cases fits : ∃ reader, connection.errorStream = some reader ∧ ∀ line ∈ reader.items, line.length ≤ limit
  · refine iff_of_true (.inr ⟨.io,?_,rfl⟩) fits
    obtain ⟨reader,given,fits⟩ := fits
    rw [whole,printBody_fits documented given fits]
    rfl
  · refine iff_of_false ?_ fits
    obtain ⟨thrown,printed,undeclared⟩ := @printBody_fails limit connection fits
    rw [printed] at whole
    rintro (⟨_,-,-,-,same⟩ | ⟨thrown',same,declared⟩)
    · rw [whole] at same
      cases same
    · rw [whole] at same
      cases same
      rw [undeclared] at declared
      cases declared

/-- `sendGet` returns the body or throws an `IOException` exactly when what it has to
    read is there and fits. -/
theorem faithful_iff (limit : Nat) (url : String) {connection : Connection} (documented : connection.Documented) :
    connection.Faithful limit url ↔ connection.Manageable limit := by
  unfold Connection.Manageable
  cases opened : connection.opened with
  | error thrown =>
    have left := @request_unopened limit connection url thrown opened
    exact iff_of_true (fails_early left (documented.opened thrown opened)) (by simp)
  | ok value =>
    cases requested : connection.requested with
    | error thrown =>
      have left := @request_unsent limit connection url thrown opened requested
      exact iff_of_true (fails_early left (documented.requested thrown requested)) (by simp)
    | ok value =>
      cases answered : connection.responseCode with
      | error thrown =>
        have left := @request_unanswered limit connection url opened requested thrown answered
        exact iff_of_true (fails_early left (documented.responseCode thrown answered)) (by simp)
      | ok responseCode =>
        simp only [forall_const,Except.ok.injEq,forall_eq']
        by_cases ok : responseCode = HTTP_OK
        · subst ok
          rw [if_pos rfl]
          cases given : connection.inputStream with
          | error thrown =>
            have left := @request_refused limit connection url opened requested thrown answered given
            exact iff_of_true (fails_early left (documented.inputStream thrown given)) (by simp)
          | ok stream =>
            have left := @request_stream limit connection url opened requested stream answered given
            simpa using faithful_stream documented answered given left
        · rw [if_neg ok]
          exact faithful_status documented (request_status opened requested answered ok)

/-- For a status below 400 there is nothing to print. -/
theorem outcome_below (documented : connection.Documented) (opened : connection.opened = .ok ())
    (requested : connection.requested = .ok ()) {responseCode : Int} (answered : connection.responseCode = .ok responseCode)
    (other : responseCode ≠ HTTP_OK) (below : responseCode < 400) : connection.outcome limit url = .error .unchecked := by
  rw [outcome_eq (request_status opened requested answered other),printBody_answered,
    documented.failed responseCode answered below]
  rfl

/-! ## The callers -/

/-- A fetch that fails faithfully is a network error for those who catch it. -/
theorem faithful_caught (faithful : connection.Faithful limit url) {thrown : Thrown}
    (failed : connection.outcome limit url = .error thrown) : isFetchError thrown = true := by
  rcases faithful with ⟨stream,-,-,-,read⟩ | ⟨thrown',failed',declared⟩
  · rw [failed] at read
    cases read
  · rw [failed] at failed'
    cases failed'
    simp [isFetchError,declared]

/-- `postInstall` ends with what it does not catch. -/
theorem postInstall_failed {library : Library} {host : Host} {settings : Settings.LauncherSettings}
    {answer : (op : Operations.Op) → Operations.Reply op} {thrown : Thrown}
    (failed : answer (.sendGet host.properties.bootstrap) = .error thrown) :
    (postInstall library host settings).answered answer = if isFetchError thrown then .ok () else .error thrown := by
  have fetched : (getBootstrap library host).answered answer = .error thrown := by
    unfold getBootstrap
    change ((ofOutcome (answer (.sendGet host.properties.bootstrap)) : Method Operations.Bytes) >>= _).answered answer = _
    rw [failed]
    rfl
  rw [postInstall,answered_bind,answered_attempt,ok_bind,fetched]
  dsimp only
  cases isFetchError thrown <;> rfl

end

/-! ## No content -/

/-- A server that answers with a status and a body, and no error stream. -/
def replying (responseCode : Int) (items : List Bytes) : Connection where
  opened := .ok ()
  requested := .ok ()
  responseCode := .ok responseCode
  inputStream := .ok ⟨items,none⟩
  errorStream := none
  readerClosed := .ok ()
  closed := .ok ()

theorem declared_ok {α : Type} (value : α) : Declared (.ok value) := by
  intro thrown failed
  cases failed

theorem replying_documented (responseCode : Int) (items : List Bytes) : (replying responseCode items).Documented where
  opened := declared_ok ()
  requested := declared_ok ()
  responseCode := declared_ok responseCode
  inputStream := declared_ok _
  body stream given := by
    cases given
    exact declared_ok ()
  errorBody stream given := by cases given
  readerClosed := declared_ok ()
  closed := declared_ok ()
  failed _ _ _ := rfl

theorem faithful_sample : (replying 200 [[1,2],[3]]).Faithful (2 ^ 31 - 1) "https://host/bootstrap" := by
  refine (faithful_iff (2 ^ 31 - 1) "https://host/bootstrap" (replying_documented 200 [[1,2],[3]])).mpr ?_
  intro _ _ responseCode answered
  obtain rfl : 200 = responseCode := Except.ok.inj answered
  rw [if_pos (by decide)]
  intro stream given
  cases given
  exact .inl (by decide)

/-- With status 204 the missing body is dereferenced, which no caller catches. -/
theorem noContent_thrown : (replying 204 []).Documented ∧
    (replying 204 []).outcome (2 ^ 31 - 1) "https://host/bootstrap" = .error .unchecked ∧ isFetchError .unchecked = false ∧
      ¬ (replying 204 []).Faithful (2 ^ 31 - 1) "https://host/bootstrap" := by
  have thrown : (replying 204 []).outcome (2 ^ 31 - 1) "https://host/bootstrap" = .error .unchecked := rfl
  refine ⟨replying_documented 204 [],thrown,rfl,?_⟩
  rintro (⟨stream,ok,-⟩ | ⟨thrown',failed,declared⟩)
  · cases ok
  · rw [thrown] at failed
    cases failed
    cases declared

end OpenRune.HttpRequests
