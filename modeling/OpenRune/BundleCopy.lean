import OpenRune.MacosBundle

/-!
# Copies of bundles

`Updater.copy` without options. A walk visits a link as a file, and `Files.copy`
then copies what the link leads to: a copy has no links.
-/
namespace OpenRune.BundleCopy
open OpenRune.Java OpenRune.Programs OpenRune.Launchers OpenRune.Trees OpenRune.Walks OpenRune.SelfUpdate OpenRune.MacosBundle

/-- Only what is there already is said to exist. -/
def Truthful : (op : Op) → World → Reply op → World → Prop
  | .copy _ target, w, .alreadyExists, _ => w.files.lookup target ≠ none
  | _, _, _, _ => True

/-- Any surroundings in which links are followed so. -/
def surroundings (resolution : Resolution) (app : Path) (inputs : Inputs) : Environment updater World :=
  fun op w reply w' => Reacts app { inputs with resolution := resolution } op w reply w' ∧ Truthful op w reply w'

section
variable (resolution : Resolution) (source target : Path)

/-- What a copy does at an event, if it can. -/
def copyEvent (files : Forest Leaf) : Event Leaf → Option (Forest Leaf)
  | .preVisitDirectory path => some (files.insert .directory (retarget source target path))
  | .visitFile path (.file content) => some (files.insert (.leaf (.file content)) (retarget source target path))
  | .visitFile path (.link _) =>
    (resolution.leads files path).map fun node => files.insert node (retarget source target path)
  | .postVisitDirectory _ => some files

/-- The files after the copies of the events, one after the other. -/
def copyEvents (events : List (Event Leaf)) (files : Forest Leaf) : Option (Forest Leaf) :=
  events.foldlM (copyEvent resolution source target) files

/-- A copy that returns normally has the names of the source, and of each name the kind
    and the bytes or the text. -/
def Faithful (app : Path) (inputs : Inputs) (w : World) : Prop :=
  ∀ t, Runs (surroundings resolution app inputs) (copy source target) w (.ok ()) t →
    ∀ below, t.files.lookup (target ++ below) = w.files.lookup (source ++ below)

/-- The walk comes to a link that leads nowhere, with the copies made before. -/
def LeadsNowhere (files : Forest Leaf) : Prop :=
  ∃ entry before path text after made, files.find source = some entry ∧
    entry.walk source = before ++ .visitFile path (.link text) :: after ∧
      copyEvents resolution source target before files = some made ∧ resolution.leads made path = none

/-- No link is in the tree, or it cannot be copied: there is no directory for the copy,
    or a link leads nowhere. -/
def LinksKept (files : Forest Leaf) : Prop :=
  (∀ below text, files.lookup (source ++ below) ≠ some (.leaf (.link text))) ∨
    files.lookup target.dropLast ≠ some .directory ∨ LeadsNowhere resolution source target files

end

/-! ## Runs -/

section
variable {resolution : Resolution} {source target app : Path} {inputs : Inputs} {w t : World}
  {rel rel' : Forest Leaf → Forest Leaf → Prop}

/-- A normal end leaves the files related. -/
def Yields (rel : Forest Leaf → Forest Leaf → Prop) (w : World) (outcome : Except Thrown Unit) (t : World) : Prop :=
  outcome = .ok () → rel w.files t.files

/-- Where nothing was, there is the copy. -/
def Written (resolution : Resolution) (path place : Path) (before after : Forest Leaf) : Prop :=
  before.lookup place = none → ∃ parent name node, place = parent ++ [name] ∧ before.lookup parent = some .directory ∧
    resolution.followed before path = some node ∧ after = before.insert node place

def writes (resolution : Resolution) (source target : Path) : Event Leaf → Forest Leaf → Forest Leaf → Prop
  | .postVisitDirectory _, before, after => after = before
  | event, before, after => Written resolution event.path (retarget source target event.path) before after

theorem yields_error {thrown : Thrown} : Yields rel w (.error thrown) t := by
  intro ended
  cases ended

theorem yields_seq {p q : Updating Unit} (first : Ends (surroundings resolution app inputs) p (Yields rel w) w)
    (second : ∀ u, Ends (surroundings resolution app inputs) q (Yields rel' u) u) :
    Ends (surroundings resolution app inputs) (p >>= fun _ => q)
      (Yields (fun before after => ∃ between, rel before between ∧ rel' between after) w) w := by
  refine ensures_bind (ensures_mono first ?_)
  rintro (thrown | done) u early
  · exact yields_error
  · refine ensures_mono (second u) ?_
    intro outcome v late ended
    exact ⟨u.files,early rfl,late ended⟩

theorem written_copied {path place : Path} {u : World}
    (reacts : surroundings resolution app inputs (.copy path place) w Copying.copied u) :
    Written resolution path place w.files u.files := by
  obtain ⟨⟨-,parent,name,node,named,followed,there,-,rfl⟩ | ⟨other,-⟩,-⟩ := reacts
  · exact fun _ => ⟨parent,name,node,named,there,followed,rfl⟩
  · exact absurd rfl other

theorem copyFile_written (path place : Path) : Ends (surroundings resolution app inputs) (copyFile path place)
    (Yields (Written resolution path place) w) w := by
  refine ensures_perform trivial ?_
  rintro (- | - | thrown) u reacts
  · exact fun _ => written_copied reacts
  · exact yields_error
  · exact yields_error

theorem copyDirectory_written (path place : Path) : Ends (surroundings resolution app inputs) (copyDirectory path place)
    (Yields (Written resolution path place) w) w := by
  refine ensures_perform trivial ?_
  rintro (- | - | thrown) u reacts
  · exact fun _ => written_copied reacts
  · have exists' : w.files.lookup place ≠ none := reacts.2
    refine ensures_perform trivial ?_
    rintro there v -
    split
    · exact fun _ absent => absurd absent exists'
    · exact yields_error
  · exact yields_error

theorem visitEvent_written (source target : Path) (event : Event Leaf) : Ends (surroundings resolution app inputs)
    (visitEvent (copyVisitor source target) event) (Yields (writes resolution source target event) w) w := by
  have visited {rel : Forest Leaf → Forest Leaf → Prop} {path : Path} {q : Updating Unit}
      (rest : ∀ u, Ends (surroundings resolution app inputs) q (Yields rel u) u) :
      Ends (surroundings resolution app inputs) (do ofOutcome (← ask (.visit path)); q) (Yields rel w) w := by
    refine ensures_perform trivial ?_
    rintro (thrown | done) u reacts
    · exact yields_error
    · obtain rfl : u = { w with failed := w.failed || false } := reacts.1
      exact rest { w with failed := w.failed || false }
  cases event with
  | preVisitDirectory path => exact visited fun u => copyDirectory_written path _
  | visitFile path leaf => exact visited fun u => copyFile_written path _
  | postVisitDirectory path => exact fun _ => rfl

/-- A walk that ends normally has written at every event. -/
theorem copy_written (source target : Path) : Ends (surroundings resolution app inputs) (copy source target)
    (Yields (fun before after => ∃ entry, before.find source = some entry ∧
      Along (writes resolution source target) (entry.walk source) before after) w) w := by
  have walked (events : List (Event Leaf)) (u : World) : Ends (surroundings resolution app inputs)
      (events.forM (visitEvent (copyVisitor source target))) (Yields (Along (writes resolution source target) events) u) u := by
    induction events generalizing u with
    | nil => exact fun _ => rfl
    | cons event events ih => exact yields_seq (visitEvent_written source target event) ih
  refine ensures_perform trivial ?_
  rintro reply u ⟨⟨rfl,rfl⟩,-⟩
  cases found : w.files.find source with
  | none =>
    exact yields_error
  | some entry =>
    refine ensures_mono (walked (entry.walk source) _) ?_
    exact fun outcome v along ended => ⟨entry,found,along ended⟩

/-! ## Steps -/

variable {before after : Forest Leaf}

/-- What a copy is as far as links go: of a link, it is none. -/
def Copied : Option (Node Leaf) → Node Leaf → Prop
  | some (.leaf (.link _)), node => ∀ text, node ≠ .leaf (.link text)
  | some original, node => node = original
  | none, _ => False

theorem copied_directory (_ : Path) (node : Node Leaf) (copied : Copied (some .directory) node) : node = .directory := copied

/-- What is written where the walk meets something fresh. -/
theorem meets_written {event : Event Leaf} (meets : Meets (retarget source target) before event)
    (written : writes resolution source target event before after) :
    copyEvent resolution source target before event = some after := by
  have fresh {path : Path} {node : Node Leaf} (found : Fresh (retarget source target) before path node)
      (written : Written resolution path (retarget source target path) before after) :
      ∃ node', resolution.followed before path = some node' ∧ after = before.insert node' (retarget source target path) := by
    obtain ⟨-,-,node',-,-,followed,inserted⟩ := written found.absent
    exact ⟨node',followed,inserted⟩
  cases event with
  | preVisitDirectory path =>
    obtain ⟨node,followed,rfl⟩ := fresh meets written
    rw [Resolution.followed,meets.source] at followed
    cases followed
    rfl
  | visitFile path value =>
    obtain ⟨node,followed,rfl⟩ := fresh meets written
    rw [Resolution.followed,meets.source] at followed
    cases value with
    | file content =>
      cases followed
      rfl
    | link text =>
      change resolution.leads before path = some node at followed
      rw [copyEvent,followed]
      rfl
  | postVisitDirectory path => exact congrArg some (Eq.symm written)

theorem meets_copies {event : Event Leaf} (meets : Meets (retarget source target) before event)
    (copied : copyEvent resolution source target before event = some after) :
    copies (fun _ => Copied) (retarget source target) event before after := by
  have inserted {path : Path} {found node : Node Leaf} (fresh : Fresh (retarget source target) before path found)
      (copy : Copied (some found) node) : ∃ node', Copied (before.lookup path) node' ∧ ∀ other,
        (before.insert node (retarget source target path)).lookup other =
          if other = retarget source target path then some node' else before.lookup other := by
    obtain ⟨parent,name,named,there⟩ := fresh.parent
    refine ⟨node,fresh.source ▸ copy,fun other => ?_⟩
    have absent := fresh.absent
    rw [named] at absent ⊢
    exact lookup_insert there absent other
  cases event with
  | preVisitDirectory path =>
    cases copied
    exact inserted meets rfl
  | visitFile path value =>
    cases value with
    | file content =>
      cases copied
      exact inserted meets rfl
    | link text =>
      obtain ⟨node,leads,rfl⟩ := Option.map_eq_some_iff.mp copied
      exact inserted meets (resolution.resolved leads)
  | postVisitDirectory path => exact (Option.some.inj copied).symm

/-- A step that can be taken is taken by some run. -/
theorem meets_runs {event : Event Leaf} (meets : Meets (retarget source target) w.files event)
    (copied : copyEvent resolution source target w.files event = some after) :
    Runs (surroundings resolution app inputs) (visitEvent (copyVisitor source target) event) w (.ok ())
      { w with files := after } := by
  have visited (path : Path) : surroundings resolution app inputs (.visit path) w (.ok () : Except Thrown Unit) w :=
    ⟨show w = { w with failed := w.failed || false } by rw [Bool.or_false],trivial⟩
  have copying {path : Path} {found node : Node Leaf} (fresh : Fresh (retarget source target) w.files path found)
      (followed : resolution.followed w.files path = some node) :
      surroundings resolution app inputs (.copy path (retarget source target path)) w Copying.copied
        { w with files := w.files.insert node (retarget source target path) } := by
    obtain ⟨parent,name,named,there⟩ := fresh.parent
    exact ⟨.inl ⟨rfl,parent,name,node,named,followed,there,fresh.absent,rfl⟩,trivial⟩
  cases event with
  | preVisitDirectory path =>
    cases copied
    have followed : resolution.followed w.files path = some .directory := by rw [Resolution.followed,meets.source]
    exact steps_cons (visited path) (steps_cons (copying meets followed) .refl)
  | visitFile path value =>
    cases value with
    | file content =>
      cases copied
      have followed : resolution.followed w.files path = some (.leaf (.file content)) := by
        rw [Resolution.followed,meets.source]
      exact steps_cons (visited path) (steps_cons (copying meets followed) .refl)
    | link text =>
      obtain ⟨node,leads,rfl⟩ := Option.map_eq_some_iff.mp copied
      have followed : resolution.followed w.files path = some node := by
        rw [Resolution.followed,meets.source]
        exact leads
      exact steps_cons (visited path) (steps_cons (copying meets followed) .refl)
  | postVisitDirectory path =>
    cases copied
    exact .refl

/-- So is a walk. -/
theorem copy_runs {entry : Entry Leaf} (found : w.files.find source = some entry)
    (along : Along (fun event before after => Meets (retarget source target) before event ∧
      copyEvent resolution source target before event = some after) (entry.walk source) w.files after) :
    Runs (surroundings resolution app inputs) (copy source target) w (.ok ()) { w with files := after } := by
  have walked (events : List (Event Leaf)) (u : World) (along : Along (fun event before after =>
      Meets (retarget source target) before event ∧ copyEvent resolution source target before event = some after)
        events u.files after) : Runs (surroundings resolution app inputs)
      (events.forM (visitEvent (copyVisitor source target))) u (.ok ()) { u with files := after } := by
    induction events generalizing u with
    | nil =>
      obtain rfl : after = u.files := along
      exact .refl
    | cons event events ih =>
      obtain ⟨between,⟨meets,copied⟩,rest⟩ := along
      exact steps_after (meets_runs meets copied) (ih { u with files := between } rest)
  have listed : surroundings resolution app inputs (.tree source) w (some entry) w := by
    refine ⟨⟨found.symm,?_⟩,trivial⟩
    change w = { w with failed := w.failed || false }
    rw [Bool.or_false]
  exact steps_cons listed (walked (entry.walk source) w along)

/-! ## Walks -/

theorem along_copyEvents {events : List (Event Leaf)} : Along (fun event before after =>
      copyEvent resolution source target before event = some after) events before after ↔
    copyEvents resolution source target events before = some after := by
  induction events generalizing before with
  | nil => exact ⟨fun same => congrArg some (Eq.symm same),fun same => (Option.some.inj same).symm⟩
  | cons event events ih =>
    rw [copyEvents,List.foldlM_cons]
    exact (exists_congr fun between => and_congr_right fun _ => ih).trans Option.bind_eq_some_iff.symm

/-- Copying stops only at a link that leads nowhere. -/
theorem copyEvents_none {events : List (Event Leaf)} (stops : copyEvents resolution source target events before = none) :
    ∃ earlier path text later made, events = earlier ++ .visitFile path (.link text) :: later ∧
      copyEvents resolution source target earlier before = some made ∧ resolution.leads made path = none := by
  induction events generalizing before with
  | nil => cases stops
  | cons event events ih =>
    cases here : copyEvent resolution source target before event with
    | some between =>
      have rest : copyEvents resolution source target events between = none := by
        rw [copyEvents,List.foldlM_cons,here] at stops
        exact stops
      obtain ⟨earlier,path,text,later,made,rfl,copied,nowhere⟩ := ih rest
      refine ⟨event :: earlier,path,text,later,made,rfl,?_,nowhere⟩
      rw [copyEvents,List.foldlM_cons,here]
      exact copied
    | none =>
      cases event with
      | visitFile path value =>
        cases value with
        | file content => cases here
        | link text => exact ⟨[],path,text,events,before,rfl,rfl,Option.map_eq_none_iff.mp here⟩
      | preVisitDirectory path => cases here
      | postVisitDirectory path => cases here

theorem lookup_below {files : Forest Leaf} {path : Path} (absent : files.lookup path = none) (below : Path) :
    files.lookup (path ++ below) = none := by
  rw [lookup_append,Option.map_eq_none_iff.mp absent]
  rfl

theorem source_reads {entry : Entry Leaf} (found : before.find source = some entry) (below : Path) :
    before.lookup (source ++ below) = entry.lookup below := by
  rw [lookup_append,found]
  rfl

/-- The copy of the root needs its directory. -/
theorem along_parent {entry : Entry Leaf} (absent : before.lookup target = none)
    (along : Along (writes resolution source target) (entry.walk source) before after) :
    before.lookup target.dropLast = some .directory := by
  have root : retarget source target source = target := by simp [retarget]
  have written : ∃ between, Written resolution source target before between := by
    cases entry with
    | leaf value =>
      obtain ⟨between,written,-⟩ := along
      exact ⟨between,root ▸ written⟩
    | directory children =>
      obtain ⟨between,written,-⟩ := along
      exact ⟨between,root ▸ written⟩
  obtain ⟨between,written⟩ := written
  obtain ⟨parent,name,-,rfl,there,-⟩ := written absent
  rwa [List.dropLast_concat]

section
variable {entry : Entry Leaf} {step : Event Leaf → Forest Leaf → Forest Leaf → Prop} (found : before.find source = some entry)
  (absent : before.lookup target = none) (outside : ¬ source <+: target)
include found absent outside

theorem target_apart (below : Path) : ¬ target <+: source ++ below := by
  intro inside
  rcases List.prefix_or_prefix_of_prefix inside (List.prefix_append source below) with ⟨rest,rfl⟩ | within
  · have nothing := lookup_below absent rest
    simp [Forest.lookup,found] at nothing
  · exact outside within

/-- The walk to an absent target meets nothing but what is fresh. -/
theorem copy_meets (there : before.lookup target.dropLast = some .directory)
    (copying : ∀ event before after, Meets (retarget source target) before event → step event before after →
      copyEvent resolution source target before event = some after)
    (along : Along step (entry.walk source) before after) : Along (fun event before after =>
      Meets (retarget source target) before event ∧ copyEvent resolution source target before event = some after)
        (entry.walk source) before after := by
  have nonempty : target ≠ [] := by
    rintro rfl
    simp at absent
  have met := walk_meets (fun event b a meets here => meets_copies meets (copying event b a meets here)) copied_directory
    (fun below => by simp [retarget]) (target_apart found absent outside) (source_reads found)
    (lookup_below absent) (List.dropLast_concat_getLast nonempty).symm there along
  exact along_mono (fun event b a both => ⟨both.1,copying event b a both.1 both.2⟩) met

end

/-! ## Faithful copies -/

/-- A run that ends normally has made all copies, and so a replica. -/
theorem run_copied (absent : w.files.lookup target = none) (outside : ¬ source <+: target)
    (runs : Runs (surroundings resolution app inputs) (copy source target) w (.ok ()) t) :
    ∃ entry, w.files.find source = some entry ∧ w.files.lookup target.dropLast = some .directory ∧
      copyEvents resolution source target (entry.walk source) w.files = some t.files ∧
        ∀ below, CopyOf Copied (entry.lookup below) (t.files.lookup (target ++ below)) := by
  obtain ⟨entry,found,along⟩ := ensures_runs (copy_written source target) runs rfl
  have there := along_parent absent along
  have met := copy_meets found absent outside there (fun event b a meets written => meets_written meets written) along
  have replica := walk_copies (fun below => by simp [retarget]) (target_apart found absent outside) (source_reads found)
    (lookup_below absent) (along_mono (fun event b a both => meets_copies both.1 both.2) met)
  exact ⟨entry,found,there,along_copyEvents.mp (along_mono (fun event b a both => both.2) met),replica⟩

/-- A run that makes all copies ends normally. -/
theorem run_exists {entry : Entry Leaf} {files : Forest Leaf} (absent : w.files.lookup target = none) (outside : ¬ source <+: target)
    (found : w.files.find source = some entry) (there : w.files.lookup target.dropLast = some .directory)
    (copied : copyEvents resolution source target (entry.walk source) w.files = some files) :
    Runs (surroundings resolution app inputs) (copy source target) w (.ok ()) { w with files := files } :=
  copy_runs found (copy_meets found absent outside there (fun _ _ _ _ step => step) (along_copyEvents.mpr copied))

/-- A replica of a tree without links is the tree. -/
theorem copyOf_plain {source found : Option (Node Leaf)} (plain : ∀ text, source ≠ some (.leaf (.link text)))
    (copy : CopyOf Copied source found) : found = source := by
  rcases source with - | ((content | text) | -)
  · exact copy
  · obtain ⟨node,rfl,same⟩ := copy
    exact congrArg some same
  · exact absurd rfl (plain text)
  · obtain ⟨node,rfl,same⟩ := copy
    exact congrArg some same

/-- A replica has no links. -/
theorem copyOf_link {text : String} {found : Option (Node Leaf)} (copy : CopyOf Copied (some (.leaf (.link text))) found) :
    found ≠ some (.leaf (.link text)) := by
  obtain ⟨node,rfl,other⟩ := copy
  exact fun same => other text (Option.some.inj same)

/-- Copies keep everything exactly when there is no link to be replaced. -/
theorem faithful_iff_linksKept (resolution : Resolution) (app : Path) (inputs : Inputs) {source target : Path} {w : World}
    (absent : w.files.lookup target = none) (outside : ¬ source <+: target) :
    Faithful resolution source target app inputs w ↔ LinksKept resolution source target w.files := by
  constructor
  · intro faithful
    by_contra lost
    simp only [LinksKept,not_or,not_forall,not_not] at lost
    obtain ⟨⟨below,text,link⟩,there,somewhere⟩ := lost
    obtain ⟨entry,found⟩ : ∃ entry, w.files.find source = some entry := by
      rw [lookup_append] at link
      obtain ⟨entry,found,-⟩ := Option.bind_eq_some_iff.mp link
      exact ⟨entry,found⟩
    cases copied : copyEvents resolution source target (entry.walk source) w.files with
    | none =>
      obtain ⟨earlier,path,text,later,made,walk,early,nowhere⟩ := copyEvents_none copied
      exact somewhere ⟨entry,earlier,path,text,later,made,found,walk,early,nowhere⟩
    | some files =>
      have runs := @run_exists resolution source target app inputs w entry files absent outside found there copied
      obtain ⟨entry',found',-,-,replica⟩ := run_copied absent outside runs
      have copy := replica below
      rw [← source_reads found' below,link] at copy
      exact copyOf_link copy ((faithful _ runs below).trans link)
  · intro kept t runs below
    obtain ⟨entry,found,there,copied,replica⟩ := run_copied absent outside runs
    rcases kept with plain | nowhere | ⟨entry',earlier,path,text,later,made,found',walk,early,nowhere⟩
    · have copy := replica below
      rw [← source_reads found below] at copy
      exact copyOf_plain (plain below) copy
    · exact absurd there nowhere
    · obtain rfl : entry = entry' := Option.some.inj (found.symm.trans found')
      rw [walk,← along_copyEvents] at copied
      obtain ⟨between,first,next,step,-⟩ := along_append copied
      obtain rfl : made = between := Option.some.inj (early.symm.trans (along_copyEvents.mp first))
      rw [copyEvent,nowhere] at step
      cases step

end

/-! ## A framework -/

/-- Links are names beside them, and not followed further. -/
def beside : Resolution where
  leads files path := match files.lookup path with
    | some (.leaf (.link text)) => match files.lookup (path.dropLast ++ [text]) with
      | some (.leaf (.link _)) => none
      | other => other
    | _ => none
  resolved := by
    intro files path node found text same
    subst same
    split at found
    · split at found
      · cases found
      · rename_i other
        exact other _ found
    · cases found

def imageInputs : Inputs where
  now := 0
  currentTimeMillis := 0
  tasklist := .ok []
  installId := .ok none
  random := .finite 0

/-- An image with a bundle that holds the version `A`, and other entries; nothing is
    installed. -/
def imageWorld (others : Forest Leaf) : World where
  stored := {}
  files := .directory "Image" (.directory "App" (.directory "A" (.leaf "code" (.file [1]) .nil) others) .nil)
    (.directory "Applications" .nil .nil)

def bundleSource : Path := ["Image","App"]

def bundleTarget : Path := ["Applications","App"]

theorem faithful_iff_linksKept_sample : Faithful beside bundleSource bundleTarget bundleTarget imageInputs (imageWorld .nil) := by
  refine (faithful_iff_linksKept beside bundleTarget imageInputs rfl (by decide)).mpr (.inl ?_)
  intro below text link
  have found : (imageWorld .nil).files.find bundleSource =
      some (.directory (.directory "A" (.leaf "code" (.file [1]) .nil) .nil)) := rfl
  rw [source_reads found] at link
  rcases below with - | ⟨first,- | ⟨second,rest⟩⟩
  · cases link
  · by_cases here : "A" = first <;> simp [Entry.lookup,here] at link
  · by_cases here : "A" = first
    · by_cases file : "code" = second
      · by_cases whole : rest = [] <;> simp [Entry.lookup,here,file,whole] at link
      · simp [Entry.lookup,here,file] at link
    · simp [Entry.lookup,here] at link

/-- The link to the current version becomes an empty directory. -/
theorem link_lost : ∃ t : World, Runs (surroundings beside bundleTarget imageInputs) (copy bundleSource bundleTarget)
      (imageWorld (.leaf "Current" (.link "A") .nil)) (.ok ()) t ∧
    (imageWorld (.leaf "Current" (.link "A") .nil)).files.lookup (bundleSource ++ ["Current"]) = some (.leaf (.link "A")) ∧
      t.files.lookup (bundleTarget ++ ["Current"]) = some .directory ∧
        t.files.lookup (bundleTarget ++ ["Current","code"]) = none ∧
          ¬ Faithful beside bundleSource bundleTarget bundleTarget imageInputs (imageWorld (.leaf "Current" (.link "A") .nil)) := by
  have runs := @run_exists beside bundleSource bundleTarget bundleTarget imageInputs (imageWorld (.leaf "Current" (.link "A") .nil))
    _ _ rfl (by decide) rfl rfl rfl
  refine ⟨_,runs,rfl,rfl,rfl,fun faithful => ?_⟩
  have same := faithful _ runs ["Current"]
  cases same

end OpenRune.BundleCopy
