import OpenRune.JavaInstaller
import OpenRune.RunningTotals

/-!
# The progress of the installer

The percentages that `JavaInstaller` shows while it downloads and while it unpacks.
A server that does not tell the length of its body is reported as one of length
-1, and the bytes are divided by that.
-/
namespace OpenRune.InstallerProgress
open OpenRune.Java OpenRune.Programs OpenRune.RunningTotals OpenRune.JavaInstaller
open OpenRune.Operations (Bytes)

/-! ## What is shown -/

/-- The percentage of a loop, told from other stages by its text. -/
def percentage (subActionText : String) : Op → List Int
  | .stage percent _ text => if text = subActionText then [percent] else []
  | _ => []

/-- Any surroundings that answer some operations as told; the state is what the
    loop has shown. -/
def Shows (answers : (op : Op) → Reply op → Prop) (subActionText : String) : Environment installer (List Int) :=
  fun op shown reply shown' => answers op reply ∧ shown' = shown ++ percentage subActionText op

/-- Percentages as they should be. -/
structure InRange (shown : List Int) : Prop where
  bounded : ∀ percent ∈ shown, 0 ≤ percent ∧ percent ≤ 100
  ascending : shown.Pairwise (· ≤ ·)

theorem InRange.start {shown shown' : List Int} (inRange : InRange shown) (start : shown' <+: shown) : InRange shown' where
  bounded percent member := inRange.bounded percent (start.subset member)
  ascending := inRange.ascending.sublist start.sublist

/-- A turn with this total divides by something other than zero, and none of its
    numbers overflows. -/
structure Exact (computed : Except Thrown Int) (total : Nat) (percent : Int) : Prop where
  counted : int64 total = total
  multiplied : int64 (total * 100) = total * 100
  divided : computed = .ok percent

/-! ## The loops -/

/-- One turn of either loop. -/
def copyTurn (file : String) (percent : Int → Except Thrown Int) (subActionText : String) (sofar : Int) (buffer : Bytes) :
    Installing Int := do
  ofOutcome (← ask (.write file buffer))
  let sofar := int64 (sofar + buffer.length)
  let progress ← ofOutcome (percent sofar)
  showProgress progress subActionText
  return sofar

theorem downloadBuffer_turn (contentLength : Int) :
    downloadBuffer contentLength = copyTurn javaZip (downloadPercent contentLength) "Downloading Java" := rfl

theorem unzipBuffer_turn (totalSize : Nat) (name : String) :
    unzipBuffer totalSize name = copyTurn name (unzipPercent totalSize) "Unzipping Java" := rfl

/-- Every total of a loop gives the percentage `pct` of it. -/
def Computes (percent : Int → Except Thrown Int) (pct : Nat → Int) (start : Nat) (reads : List Bytes) : Prop :=
  ∀ total ∈ totals start (reads.map List.length), Exact (percent total) total (pct total)

/-- What a loop shows. -/
def shownOf (pct : Nat → Int) (start : Nat) (reads : List Bytes) : List Int :=
  (totals start (reads.map List.length)).map pct

section
variable {answers : (op : Op) → Reply op → Prop} {file subActionText : String} {percent : Int → Except Thrown Int}
  {pct : Nat → Int} {start : Nat} {reads : List Bytes} {shown all : List Int}

/-- An operation that shows no percentage, and what follows. -/
theorem ensures_unshown {α : Type} {op : Op} {f : Reply op → Installing α}
    {post : Except Thrown α → List Int → Prop} (before : shown <+: all) (unshown : percentage subActionText op = [])
    (follows : ∀ reply, answers op reply →
      Ensures (Shows answers subActionText) (fun _ shown => shown <+: all) (f reply) post shown) :
    Ensures (Shows answers subActionText) (fun _ shown => shown <+: all) (ask op >>= f) post shown := by
  refine ensures_perform before ?_
  rintro reply shown' ⟨answered,same⟩
  rw [unshown,List.append_nil] at same
  rw [same]
  exact follows reply answered

theorem copyTurn_shows {buffer : Bytes} (exact' : Exact (percent (start + buffer.length : Nat)) (start + buffer.length)
      (pct (start + buffer.length))) (before : shown <+: all) :
    Ensures (Shows answers subActionText) (fun _ shown => shown <+: all)
      (copyTurn file percent subActionText start buffer) (fun outcome shown' => match outcome with
        | .ok sofar => sofar = (start + buffer.length : Nat) ∧ shown' = shown ++ [pct (start + buffer.length)]
        | .error _ => shown' = shown) shown := by
  have counted : int64 ((start : Int) + buffer.length) = (start + buffer.length : Nat) := by
    rw [← exact'.counted,Nat.cast_add]
  refine ensures_unshown before rfl fun written _ => ?_
  refine ensures_outcome (fun _ _ => ?_) fun _ _ => rfl
  refine ensures_outcome (fun progress computed => ?_) fun _ _ => rfl
  rw [counted,exact'.divided] at computed
  cases computed
  refine ensures_perform before ?_
  rintro reply shown' ⟨-,same⟩
  refine ⟨counted,?_⟩
  simpa [percentage] using same

theorem computes_append {more : List Bytes} : Computes percent pct start (reads ++ more) ↔
    Computes percent pct start reads ∧ Computes percent pct (start + reads.flatten.length) more := by
  simp only [Computes,List.map_append,totals_append,List.forall_mem_append,List.length_flatten]

theorem shownOf_append {more : List Bytes} :
    shownOf pct start (reads ++ more) = shownOf pct start reads ++ shownOf pct (start + reads.flatten.length) more := by
  simp only [shownOf,List.map_append,totals_append,List.length_flatten]

/-- A loop whose turns all compute shows their percentages, until it breaks off. -/
theorem copyTurns_shows (computes : Computes percent pct start reads)
    (within : shown ++ shownOf pct start reads <+: all) :
    Ensures (Shows answers subActionText) (fun _ shown => shown <+: all)
      (reads.foldlM (copyTurn file percent subActionText) (start : Int)) (fun outcome shown' => match outcome with
        | .ok sofar => sofar = (start + reads.flatten.length : Nat) ∧ shown' = shown ++ shownOf pct start reads
        | .error _ => shown' <+: all) shown := by
  induction reads generalizing start shown with
  | nil => exact ⟨by simp,by simp [shownOf]⟩
  | cons buffer rest ih =>
    simp only [Computes,List.map_cons,totals_cons,List.forall_mem_cons] at computes
    have shows : shownOf pct start (buffer :: rest) =
        pct (start + buffer.length) :: shownOf pct (start + buffer.length) rest := by simp [shownOf]
    rw [shows,← List.singleton_append,← List.append_assoc] at within
    have before : shown <+: all := ((List.prefix_append shown _).trans (List.prefix_append _ _)).trans within
    rw [List.foldlM_cons]
    refine ensures_bind (ensures_mono (copyTurn_shows computes.1 before) ?_)
    rintro (thrown | sofar) shown'
    · rintro rfl
      exact before
    · rintro ⟨rfl,rfl⟩
      refine ensures_mono (ih computes.2 within) ?_
      rintro (thrown | sofar) shown'
      · exact id
      · rintro ⟨rfl,rfl⟩
        exact ⟨by simp [Nat.add_assoc],by rw [shows]; simp⟩

end

theorem shownOf_inRange {pct : Nat → Int} {start : Nat} {reads : List Bytes}
    (bounded : ∀ total ∈ totals start (reads.map List.length), 0 ≤ pct total ∧ pct total ≤ 100)
    (monotone : ∀ total total', total ≤ total' → pct total ≤ pct total') : InRange (shownOf pct start reads) where
  bounded percent member := by
    obtain ⟨total,listed,rfl⟩ := List.mem_map.mp member
    exact bounded total listed
  ascending := totals_ascending.map pct monotone

theorem total_most {reads : List Bytes} {total : Nat} (member : total ∈ totals 0 (reads.map List.length)) :
    total ≤ reads.flatten.length := by
  have most := totals_most total member
  rwa [Nat.zero_add,← List.length_flatten] at most

/-! ## Downloading -/

/-- A response that `downloadFile` accepts: a length that is not told is -1, no
    read is empty, and no body is longer than its length. -/
structure Response where
  contentLength : Int
  reads : List Bytes
  cut : Bool
  reported : -1 ≤ contentLength ∧ contentLength < 2 ^ 31
  filled : ∀ buffer ∈ reads, buffer ≠ []
  within : 0 ≤ contentLength → (reads.flatten.length : Int) ≤ contentLength

def Response.answers (response : Response) : (op : Op) → Reply op → Prop
  | .connect _, reply => reply = .answered 200 response.contentLength response.reads response.cut
  | _, _ => True

/-- The bytes so far in percent of the length. -/
def Response.percent (response : Response) (total : Nat) : Int := ((total : Int) * 100).tdiv response.contentLength

/-- Every percentage that any download of the response shows, and how each of them
    is computed. -/
structure DownloadInRange (response : Response) : Prop where
  shown : ∀ fileURL expectedChecksum shown, Reaches (Shows response.answers "Downloading Java")
    (downloadFile fileURL expectedChecksum) [] shown → InRange shown
  computes : Computes (downloadPercent response.contentLength) response.percent 0 response.reads

section
variable {response : Response}

theorem percent_bounds {total : Nat} (known : 0 ≤ response.contentLength) (within : (total : Int) ≤ response.contentLength) :
    0 ≤ response.percent total ∧ response.percent total ≤ 100 := by
  rw [Response.percent,Int.tdiv_eq_ediv_of_nonneg (by omega)]
  refine ⟨Int.ediv_nonneg (by omega) known,?_⟩
  by_cases empty : response.contentLength = 0
  · simp [empty]
  · refine Int.ediv_le_of_le_mul (by omega) ?_
    omega

theorem percent_monotone (known : 0 ≤ response.contentLength) (total total' : Nat) (less : total ≤ total') :
    response.percent total ≤ response.percent total' := by
  rw [Response.percent,Response.percent,Int.tdiv_eq_ediv_of_nonneg (by omega),Int.tdiv_eq_ediv_of_nonneg (by omega)]
  by_cases empty : response.contentLength = 0
  · simp [empty]
  · exact Int.ediv_le_ediv (by omega) (by omega)

/-- With a length that is told. -/
theorem download_computes (told : response.contentLength ≠ -1) :
    Computes (downloadPercent response.contentLength) response.percent 0 response.reads := by
  intro total member
  have most := total_most member
  have known : 0 ≤ response.contentLength := by have := response.reported.1; omega
  have within := response.within known
  have short := response.reported.2
  have positive := totals_above (lengths_positive response.filled) total member
  have multiplied : int64 ((total : Int) * 100) = total * 100 := int64_eq (by omega) (by omega)
  refine ⟨int64_eq (by omega) (by omega),multiplied,?_⟩
  obtain ⟨least,most⟩ := percent_bounds (by omega) (by omega : (total : Int) ≤ response.contentLength)
  rw [downloadPercent,if_neg (by omega),multiplied]
  change Except.ok (int32 (response.percent total)) = _
  rw [int32_eq (by omega) (by omega)]

theorem acceptDownload_unshown (expectedChecksum : Option String) :
    Only (fun op => percentage "Downloading Java" op = []) (acceptDownload expectedChecksum) := by
  refine only_bind (only_bind (only_perform rfl) ?_) ?_
  · rintro (thrown | actual)
    · dsimp only
      split <;> exact trivial
    · exact trivial
  · rintro (refused | verified)
    · refine only_bind (only_perform rfl) fun _ => only_bind (only_perform rfl) fun _ => ?_
      exact only_bind (only_perform rfl) fun _ => only_throw _
    · exact only_bind (only_perform rfl) fun _ => only_pure _

/-- A download shows the percentages of its totals, until it breaks off. -/
theorem downloadFile_shows (computes : Computes (downloadPercent response.contentLength) response.percent 0 response.reads)
    (fileURL expectedChecksum : Option String) :
    Ensures (Shows response.answers "Downloading Java")
      (fun _ shown => shown <+: shownOf response.percent 0 response.reads) (downloadFile fileURL expectedChecksum)
      (fun _ shown => shown <+: shownOf response.percent 0 response.reads) [] := by
  cases fileURL with
  | none => exact List.nil_prefix
  | some url =>
    refine ensures_unshown List.nil_prefix rfl fun connection answered => ?_
    obtain rfl : connection = .answered 200 response.contentLength response.reads response.cut := answered
    simp only [if_true]
    refine ensures_unshown List.nil_prefix rfl fun opened _ => ?_
    refine ensures_outcome (fun _ _ => ?_) fun _ _ => List.nil_prefix
    rw [downloadBuffer_turn]
    refine ensures_bind (ensures_mono (copyTurns_shows computes List.prefix_rfl) ?_)
    rintro (thrown | total) shown
    · exact id
    · rintro ⟨-,rfl⟩
      dsimp only
      split
      · exact List.prefix_rfl
      · refine ensures_only (acceptDownload_unshown expectedChecksum) List.prefix_rfl (fun _ _ _ before => before) ?_
        rintro op shown' reply shown'' unshown before ⟨-,rfl⟩
        rwa [unshown,List.append_nil]

/-- Where no length is told, the first bytes are shown as less than nothing. -/
theorem download_negative (untold : response.contentLength = -1) {buffer : Bytes} {rest : List Bytes}
    (given : response.reads = buffer :: rest)
    (computes : Computes (downloadPercent response.contentLength) response.percent 0 response.reads) :
    Reaches (Shows response.answers "Downloading Java") (downloadFile (some "url") none) []
      [-(buffer.length * 100 : Int)] := by
  have first := computes buffer.length (by simp [given])
  have counted : int64 (0 + (buffer.length : Int)) = buffer.length := by rw [Int.zero_add,first.counted]
  have negative : response.percent buffer.length = -(buffer.length * 100 : Int) := by
    rw [Response.percent,untold,Int.tdiv_neg,Int.tdiv_one]
  have connected : Shows response.answers "Downloading Java" (.connect "url") []
      (.answered 200 response.contentLength response.reads response.cut) [] := ⟨rfl,rfl⟩
  have opened : Shows response.answers "Downloading Java" (.newFileOutputStream javaZip) [] (.ok ()) [] := ⟨trivial,rfl⟩
  have written : Shows response.answers "Downloading Java" (.write javaZip buffer) [] (.ok ()) [] := ⟨trivial,rfl⟩
  have shown : Shows response.answers "Downloading Java" (.stage (response.percent buffer.length)
      (toString (response.percent buffer.length) ++ "%") "Downloading Java") [] () [response.percent buffer.length] :=
    ⟨trivial,rfl⟩
  rw [← negative]
  refine reaches_cons connected ?_
  simp only
  refine reaches_cons opened ?_
  rw [downloadBuffer_turn,given,List.foldlM_cons]
  refine reaches_cons written ?_
  simp only [ofOutcome,counted,first.divided]
  exact reaches_cons shown reaches_start

/-- A download is in range exactly when the server tells the length, or sends nothing. -/
theorem downloadInRange_iff (response : Response) :
    DownloadInRange response ↔ response.contentLength ≠ -1 ∨ response.reads = [] := by
  constructor
  · intro inRange
    by_contra! wrong
    obtain ⟨untold,some'⟩ := wrong
    obtain ⟨buffer,rest,given⟩ := List.exists_cons_of_ne_nil some'
    have shown := inRange.shown _ _ _ (download_negative untold given inRange.computes)
    have filled := List.length_pos_iff.mpr (response.filled buffer (by simp [given]))
    have least := (shown.bounded _ List.mem_cons_self).1
    omega
  · intro fine
    have computes : Computes (downloadPercent response.contentLength) response.percent 0 response.reads := by
      rcases fine with told | empty
      · exact download_computes told
      · simp [Computes,empty]
    have inRange : InRange (shownOf response.percent 0 response.reads) := by
      rcases fine with told | empty
      · have known : 0 ≤ response.contentLength := by have := response.reported.1; omega
        refine shownOf_inRange (fun total member => percent_bounds known ?_) (percent_monotone known)
        have within := response.within known
        have most := total_most member
        omega
      · simp only [empty,shownOf,List.map_nil,totals_nil]
        exact ⟨nofun,.nil⟩
    refine ⟨fun fileURL expectedChecksum shown reached => ?_,computes⟩
    obtain ⟨rest,steps⟩ := reached
    have before := ensures_reached (downloadFile_shows computes fileURL expectedChecksum) steps
    exact inRange.start before

end

/-! ## Unpacking -/

/-- The reads that an extraction comes to: nothing is read after an entry that
    breaks off. -/
def reads : List Entry → List Bytes
  | [] => []
  | .directory _ :: rest => reads rest
  | .file _ pieces cut :: rest => pieces ++ if cut.isSome then [] else reads rest

/-- An archive, and what `File.length` says of it. -/
structure Zip where
  archive : Archive
  totalSize : Nat

def Zip.answers (zip : Zip) : (op : Op) → Reply op → Prop
  | .newZipInputStream _, reply => ∀ archive, reply = .ok archive → archive = zip.archive
  | .length _, reply => reply = zip.totalSize
  | _, _ => True

/-- The bytes so far in percent of the archive, which is smaller. -/
def Zip.percent (zip : Zip) (total : Nat) : Int := min 100 (((total : Int) * 100).tdiv zip.totalSize)

/-- Every percentage that any extraction of the archive shows, and how each of them
    is computed. -/
structure UnzipInRange (zip : Zip) : Prop where
  shown : ∀ host zipFile shown, Reaches (Shows zip.answers "Unzipping Java") (unzip host zipFile) [] shown →
    InRange shown
  computes : Computes (unzipPercent zip.totalSize) zip.percent 0 (reads zip.archive.entries)

section
variable {zip : Zip}

theorem unzip_bounds (total : Nat) : 0 ≤ zip.percent total ∧ zip.percent total ≤ 100 := by
  have least : 0 ≤ ((total : Int) * 100) / zip.totalSize := Int.ediv_nonneg (by omega) (by omega)
  rw [Zip.percent,Int.tdiv_eq_ediv_of_nonneg (by omega)]
  omega

theorem unzip_monotone (total total' : Nat) (less : total ≤ total') : zip.percent total ≤ zip.percent total' := by
  have larger : ((total : Int) * 100) / zip.totalSize ≤ ((total' : Int) * 100) / zip.totalSize := by
    by_cases empty : zip.totalSize = 0
    · simp [empty]
    · exact Int.ediv_le_ediv (by omega) (by omega)
  rw [Zip.percent,Zip.percent,Int.tdiv_eq_ediv_of_nonneg (by omega),Int.tdiv_eq_ediv_of_nonneg (by omega)]
  omega

/-- Nothing is read, or nothing overflows and the divisor is not zero. -/
theorem unzip_computes : Computes (unzipPercent zip.totalSize) zip.percent 0 (reads zip.archive.entries) ↔
    reads zip.archive.entries = [] ∨
      zip.totalSize ≠ 0 ∧ 100 * (reads zip.archive.entries).flatten.length < 2 ^ 63 := by
  constructor
  · intro computes
    by_cases empty : reads zip.archive.entries = []
    · exact .inl empty
    refine .inr ?_
    have some' : (reads zip.archive.entries).map List.length ≠ [] := by simpa using empty
    have last := @totals_last 0 _ some'
    rw [Nat.zero_add,← List.length_flatten] at last
    obtain ⟨-,multiplied,divided⟩ := computes _ (List.mem_of_getLast? last)
    refine ⟨?_,?_⟩
    · intro divisor
      simp [unzipPercent,divisor] at divided
    · have small := int64_lt ((reads zip.archive.entries).flatten.length * 100)
      omega
  · rintro (empty | ⟨filled,small⟩) total member
    · simp [empty] at member
    · have most := total_most member
      have multiplied : int64 ((total : Int) * 100) = total * 100 := int64_eq (by omega) (by omega)
      have bounds := @unzip_bounds zip total
      refine ⟨int64_eq (by omega) (by omega),multiplied,?_⟩
      rw [unzipPercent,if_neg filled,multiplied]
      change Except.ok (int32 (zip.percent total)) = _
      rw [int32_eq (by omega) (by omega)]

/-- What is left of an extraction: its turns compute, and their percentages follow. -/
def Remaining (zip : Zip) (all : List Int) (entries : List Entry) (size : Int) (shown : List Int) : Prop :=
  ∃ start : Nat, size = start ∧ Computes (unzipPercent zip.totalSize) zip.percent start (reads entries) ∧
    shown ++ shownOf zip.percent start (reads entries) <+: all

theorem Remaining.before {all shown : List Int} {entries : List Entry} {size : Int}
    (remaining : Remaining zip all entries size shown) : shown <+: all := by
  obtain ⟨start,-,-,within⟩ := remaining
  exact (List.prefix_append shown _).trans within

theorem makeParent_shows {host : Surroundings} {name : String} {shown all : List Int} (before : shown <+: all) :
    Ensures (Shows zip.answers "Unzipping Java") (fun _ shown => shown <+: all) (makeParent host name)
      (fun _ shown' => shown' = shown) shown := by
  refine ensures_unshown before rfl fun (present : Bool) _ => ?_
  cases present with
  | true => exact rfl
  | false =>
    refine ⟨before,?_⟩
    rintro reply shown' ⟨-,same⟩
    exact same.trans (List.append_nil shown)

/-- One entry shows the percentages of its reads, and leads on to the others. -/
theorem unzipEntry_shows {host : Surroundings} {entry : Entry} {rest : List Entry} {size : Int} {shown all : List Int}
    (remaining : Remaining zip all (entry :: rest) size shown) :
    Ensures (Shows zip.answers "Unzipping Java") (fun _ shown => shown <+: all)
      (unzipEntry host zip.totalSize size entry) (fun outcome shown' => match outcome with
        | .ok size' => Remaining zip all rest size' shown'
        | .error _ => shown' <+: all) shown := by
  have before := remaining.before
  obtain ⟨start,rfl,computes,within⟩ := remaining
  cases entry with
  | directory name =>
    refine ensures_unshown before rfl fun made _ => ?_
    exact ⟨start,rfl,computes,within⟩
  | file name pieces cut =>
    have split : reads (.file name pieces cut :: rest) = pieces ++ if cut.isSome then [] else reads rest := rfl
    rw [split,computes_append] at computes
    rw [split,shownOf_append,← List.append_assoc] at within
    refine ensures_bind (ensures_mono (makeParent_shows before) ?_)
    rintro (thrown | done) shown' rfl
    · exact before
    refine ensures_unshown before rfl fun opened _ => ?_
    refine ensures_outcome (fun _ _ => ?_) fun _ _ => before
    rw [unzipBuffer_turn]
    refine ensures_bind (ensures_mono (copyTurns_shows computes.1 ((List.prefix_append _ _).trans within)) ?_)
    rintro (thrown | size) shown'
    · exact id
    · rintro ⟨rfl,rfl⟩
      cases cut with
      | some thrown => exact (List.prefix_append _ _).trans within
      | none => exact ⟨_,rfl,computes.2,within⟩

/-- An extraction shows the percentages of its totals, until it breaks off. -/
theorem unzip_shows (computes : Computes (unzipPercent zip.totalSize) zip.percent 0 (reads zip.archive.entries))
    (host : Surroundings) (zipFile : String) :
    Ensures (Shows zip.answers "Unzipping Java")
      (fun _ shown => shown <+: shownOf zip.percent 0 (reads zip.archive.entries)) (unzip host zipFile)
      (fun _ shown => shown <+: shownOf zip.percent 0 (reads zip.archive.entries)) [] := by
  refine ensures_unshown List.nil_prefix rfl fun opened answered => ?_
  refine ensures_outcome (fun archive found => ?_) fun _ _ => List.nil_prefix
  obtain rfl : archive = zip.archive := answered archive found
  refine ensures_unshown List.nil_prefix rfl fun totalSize told => ?_
  obtain rfl : totalSize = zip.totalSize := told
  have start : Remaining zip (shownOf zip.percent 0 (reads zip.archive.entries)) zip.archive.entries 0 [] :=
    ⟨0,rfl,computes,List.prefix_rfl⟩
  refine ensures_bind (ensures_foldlM start ?_ ?_)
  · intro entry rest size shown remaining
    refine ensures_mono (unzipEntry_shows remaining) ?_
    rintro (thrown | size') shown' ended <;> exact ended
  · intro size shown remaining
    dsimp only
    split <;> exact remaining.before

/-- An extraction is in range exactly when nothing overflows and the length of the
    archive is not given as zero, or when there is nothing to read. -/
theorem unzipInRange_iff (zip : Zip) : UnzipInRange zip ↔ reads zip.archive.entries = [] ∨
    zip.totalSize ≠ 0 ∧ 100 * (reads zip.archive.entries).flatten.length < 2 ^ 63 := by
  rw [← unzip_computes]
  refine ⟨UnzipInRange.computes,fun computes => ⟨fun host zipFile shown reached => ?_,computes⟩⟩
  obtain ⟨rest,steps⟩ := reached
  have before := ensures_reached (unzip_shows computes host zipFile) steps
  exact (shownOf_inRange (fun total _ => unzip_bounds total) unzip_monotone).start before

end

/-! ## Both loops -/

/-- Downloads are in range exactly when the server tells the length of what it sends,
    and extractions exactly when their arithmetic stays within a `long`. -/
theorem percentages_iff (response : Response) (zip : Zip) :
    (DownloadInRange response ↔ response.contentLength ≠ -1 ∨ response.reads = []) ∧
      (UnzipInRange zip ↔ reads zip.archive.entries = [] ∨
        zip.totalSize ≠ 0 ∧ 100 * (reads zip.archive.entries).flatten.length < 2 ^ 63) :=
  ⟨downloadInRange_iff response,unzipInRange_iff zip⟩

/-- One byte from a server that does not tell the length. -/
def untold : Response where
  contentLength := -1
  reads := [[0]]
  cut := false
  reported := by decide
  filled := by decide
  within := by decide

/-- The first byte is shown as -100 percent. -/
theorem untold_negative :
    Reaches (Shows untold.answers "Downloading Java") (downloadFile (some "https://host/java.zip") (some "checksum")) []
      [-100] ∧ ¬ DownloadInRange untold := by
  have connected : Shows untold.answers "Downloading Java" (.connect "https://host/java.zip") []
      (.answered 200 (-1) [[0]] false) [] := ⟨rfl,rfl⟩
  have opened : Shows untold.answers "Downloading Java" (.newFileOutputStream javaZip) [] (.ok ()) [] := ⟨trivial,rfl⟩
  have written : Shows untold.answers "Downloading Java" (.write javaZip [0]) [] (.ok ()) [] := ⟨trivial,rfl⟩
  have shown : Shows untold.answers "Downloading Java" (.stage (-100) "-100%" "Downloading Java") [] () [-100] :=
    ⟨trivial,rfl⟩
  have reached : Reaches (Shows untold.answers "Downloading Java")
      (downloadFile (some "https://host/java.zip") (some "checksum")) [] [-100] :=
    reaches_cons connected (reaches_cons opened (reaches_cons written (reaches_cons shown reaches_start)))
  refine ⟨reached,fun inRange => ?_⟩
  have least := ((inRange.shown _ _ _ reached).bounded _ List.mem_cons_self).1
  omega

end OpenRune.InstallerProgress
