import OpenRune.Trees

/-!
# Work along a walk

What is done to a tree at the events of a walk, one after the other. Removing
every node after what is in it leaves nothing at the root; copying every node to
its new place, before what is in it, makes a replica there.
-/
namespace OpenRune.Walks
open OpenRune.Trees

section
variable {α : Type} {step : Event α → Forest α → Forest α → Prop} {before after : Forest α}

/-- One step at each event, in order. -/
def Along (step : Event α → Forest α → Forest α → Prop) : List (Event α) → Forest α → Forest α → Prop
  | [], before, after => after = before
  | event :: events, before, after => ∃ between, step event before between ∧ Along step events between after

theorem along_append {first second : List (Event α)} (along : Along step (first ++ second) before after) :
    ∃ between, Along step first before between ∧ Along step second between after := by
  induction first generalizing before with
  | nil => exact ⟨before,rfl,along⟩
  | cons event events ih =>
    obtain ⟨next,here,rest⟩ := along
    obtain ⟨between,earlier,later⟩ := ih rest
    exact ⟨between,⟨next,here,earlier⟩,later⟩

theorem along_join {first second : List (Event α)} {between : Forest α} (earlier : Along step first before between)
    (later : Along step second between after) : Along step (first ++ second) before after := by
  induction first generalizing before with
  | nil =>
    obtain rfl : between = before := earlier
    exact later
  | cons event events ih =>
    obtain ⟨next,here,rest⟩ := earlier
    exact ⟨next,here,ih rest⟩

theorem along_mono {step' : Event α → Forest α → Forest α → Prop} {events : List (Event α)}
    (weaker : ∀ event before after, step event before after → step' event before after)
    (along : Along step events before after) : Along step' events before after := by
  induction events generalizing before with
  | nil => exact along
  | cons event events ih =>
    obtain ⟨between,here,rest⟩ := along
    exact ⟨between,weaker event before between here,ih rest⟩

/-- What every step keeps holds before each of them. -/
theorem along_invariant {inv : Forest α → Prop} {events : List (Event α)}
    (kept : ∀ event before after, inv before → step event before after → inv after) (start : inv before)
    (along : Along step events before after) :
    Along (fun event before after => inv before ∧ step event before after) events before after := by
  induction events generalizing before with
  | nil => exact along
  | cons event events ih =>
    obtain ⟨between,here,rest⟩ := along
    exact ⟨between,⟨start,here⟩,ih (kept event before between start here) rest⟩

theorem along_single {event : Event α} (along : Along step [event] before after) : step event before after := by
  obtain ⟨between,here,rfl⟩ := along
  exact here

/-! ## Removing -/

/-- A directory is removed when it is left. -/
def removes : Event α → Forest α → Forest α → Prop
  | .preVisitDirectory _, before, after => after = before
  | .visitFile path _, before, after => after = before.remove path
  | .postVisitDirectory path, before, after => after = before.remove path

theorem lookup_remove_elsewhere (forest : Forest α) {removed path : Path} (elsewhere : ¬ removed <+: path) :
    (forest.remove removed).lookup path = forest.lookup path := by
  cases removed with
  | nil => exact absurd List.nil_prefix elsewhere
  | cons first rest => rw [lookup_remove,if_neg elsewhere]

private theorem removes_elsewhere {event : Event α} (step : removes event before after) {path : Path}
    (elsewhere : ¬ event.path <+: path) : after.lookup path = before.lookup path := by
  cases event with
  | preVisitDirectory visited => rw [show after = before from step]
  | visitFile visited value | postVisitDirectory visited =>
    rw [show after = before.remove visited from step]
    exact lookup_remove_elsewhere before elsewhere

theorem along_removes_elsewhere {events : List (Event α)} {root path : Path} (below : ∀ event ∈ events, root <+: event.path)
    (along : Along removes events before after) (elsewhere : ¬ root <+: path) :
    after.lookup path = before.lookup path := by
  induction events generalizing before with
  | nil => rw [show after = before from along]
  | cons event events ih =>
    obtain ⟨between,here,rest⟩ := along
    have apart : ¬ event.path <+: path := fun found => elsewhere ((below event List.mem_cons_self).trans found)
    rw [ih (fun later member => below later (List.mem_cons_of_mem _ member)) rest,removes_elsewhere here apart]

/-- Nothing is left at the root of a walk that removes. -/
theorem walk_removes {entry : Entry α} {first : String} {rest : Path}
    (along : Along removes (entry.walk (first :: rest)) before after) (path : Path) :
    after.lookup path = if first :: rest <+: path then none else before.lookup path := by
  obtain ⟨earlier,last,whole,ends,below⟩ := walk_last entry (first :: rest)
  rw [whole] at along
  obtain ⟨between,walked,final⟩ := along_append along
  have removed : after = between.remove (first :: rest) := by
    rcases ends with rfl | ⟨value,rfl⟩ <;> exact along_single final
  rw [removed,lookup_remove]
  split
  · rfl
  · rename_i elsewhere
    exact along_removes_elsewhere below walked elsewhere

/-! ## Copying -/

/-- What the source holds is copied to its new place; `copied` says what counts as
    a copy of what is found at a path. -/
def copies (copied : Path → Option (Node α) → Node α → Prop) (place : Path → Path) :
    Event α → Forest α → Forest α → Prop
  | .postVisitDirectory _, before, after => after = before
  | event, before, after => ∃ node, copied event.path (before.lookup event.path) node ∧
      ∀ path, after.lookup path = if path = place event.path then some node else before.lookup path

/-- What is found where a copy should be. -/
def CopyOf (copied : Option (Node α) → Node α → Prop) : Option (Node α) → Option (Node α) → Prop
  | none, found => found = none
  | some node, found => ∃ copy, found = some copy ∧ copied (some node) copy

variable {copied : Path → Option (Node α) → Node α → Prop} {place : Path → Path} {base target : Path} {seen : List String}

/-- Everything in the directory at `base` is copied into `target`, but for the names
    already seen, and nothing else changes. -/
def Replicated (copied : Path → Option (Node α) → Node α → Prop) (forest : Forest α) (base target : Path)
    (seen : List String) (before after : Forest α) : Prop :=
  (∀ name, name ∉ seen → ∀ below,
    CopyOf (copied (base ++ name :: below)) (forest.lookup (name :: below)) (after.lookup (target ++ name :: below))) ∧
    ∀ path, (∀ name, name ∉ seen → ∀ below, path ≠ target ++ name :: below) → after.lookup path = before.lookup path

/-- The first entry, and the others after it. -/
private theorem replicated_cons {forest rest between : Forest α} {name : String}
    (others : ∀ other, other ≠ name → ∀ below, forest.lookup (other :: below) = rest.lookup (other :: below))
    (here : ∀ below,
      CopyOf (copied (base ++ name :: below)) (forest.lookup (name :: below)) (between.lookup (target ++ name :: below)))
    (elsewhere : ∀ path, (∀ below, path ≠ target ++ name :: below) → between.lookup path = before.lookup path)
    (fresh : name ∉ seen) (later : Replicated copied rest base target (name :: seen) between after) :
    Replicated copied forest base target seen before after := by
  refine ⟨fun other unseen below => ?_,fun path outside => ?_⟩
  · by_cases same : other = name
    · subst same
      rw [later.2]
      · exact here below
      · intro next unseen' below' clash
        have first := (List.cons.inj (List.append_cancel_left clash)).1
        exact unseen' (first ▸ List.mem_cons_self)
    · rw [others other same]
      exact later.1 other (by simp [same,unseen]) below
  · rw [later.2 path (fun next unseen => outside next fun member => unseen (List.mem_cons_of_mem _ member))]
    exact elsewhere path (outside name fresh)

/-- A name that was seen already. -/
private theorem replicated_skip {forest rest : Forest α} {name : String}
    (others : ∀ other, other ≠ name → ∀ below, forest.lookup (other :: below) = rest.lookup (other :: below))
    (old : name ∈ seen) (later : Replicated copied rest base target (name :: seen) before after) :
    Replicated copied forest base target seen before after := by
  have differs {other : String} (unseen : other ∉ seen) : other ≠ name := fun same => unseen (same ▸ old)
  refine ⟨fun other unseen below => ?_,fun path outside => ?_⟩
  · rw [others other (differs unseen)]
    exact later.1 other (by simp [differs unseen,unseen]) below
  · exact later.2 path fun next unseen => outside next fun member => unseen (List.mem_cons_of_mem _ member)

private theorem leaf_others (name : String) (value : α) (rest : Forest α) (other : String) (differs : other ≠ name)
    (below : Path) : (Forest.leaf name value rest).lookup (other :: below) = rest.lookup (other :: below) := by
  rw [lookup_leaf,if_neg (Ne.symm differs)]

private theorem directory_others (name : String) (children rest : Forest α) (other : String) (differs : other ≠ name)
    (below : Path) : (Forest.directory name children rest).lookup (other :: below) = rest.lookup (other :: below) := by
  rw [lookup_directory,if_neg (Ne.symm differs)]

/-- What a walk through a directory reads, and where it may write. -/
structure Ready (forest : Forest α) (base target : Path) (seen : List String) (before : Forest α) : Prop where
  apart : ∀ below, ¬ target <+: base ++ below
  reads : ∀ name, name ∉ seen → ∀ below, before.lookup (base ++ name :: below) = forest.lookup (name :: below)
  empty : ∀ name, name ∉ seen → ∀ below, before.lookup (target ++ name :: below) = none

/-- Ready for the entries after the first, whatever was written below its place. -/
private theorem ready_rest {forest rest between : Forest α} {name : String}
    (others : ∀ other, other ≠ name → ∀ below, forest.lookup (other :: below) = rest.lookup (other :: below))
    (elsewhere : ∀ path, (∀ below, path ≠ target ++ name :: below) → between.lookup path = before.lookup path)
    (ready : Ready forest base target seen before) : Ready rest base target (name :: seen) between where
  apart := ready.apart
  reads other unseen below := by
    obtain ⟨differs,unseen⟩ := not_or.mp (fun member => unseen (List.mem_cons.mpr member))
    have outside (below' : Path) : base ++ other :: below ≠ target ++ name :: below' := fun clash =>
      ready.apart (other :: below) ⟨_,clash.symm⟩
    rw [elsewhere _ outside,ready.reads other unseen below,others other differs]
  empty other unseen below := by
    obtain ⟨differs,unseen⟩ := not_or.mp (fun member => unseen (List.mem_cons.mpr member))
    have outside (below' : Path) : target ++ other :: below ≠ target ++ name :: below' := fun clash =>
      differs (List.cons.inj (List.append_cancel_left clash)).1
    rw [elsewhere _ outside,ready.empty other unseen below]

/-- Ready for what is in a directory that has just been copied. -/
private theorem ready_children {children rest between : Forest α} {name : String} {node : Node α} (fresh : name ∉ seen)
    (written : ∀ path, between.lookup path = if path = target ++ [name] then some node else before.lookup path)
    (ready : Ready (.directory name children rest) base target seen before) :
    Ready children (base ++ [name]) (target ++ [name]) [] between where
  apart below inside := by
    rw [List.append_assoc] at inside
    exact ready.apart _ ((List.prefix_append target [name]).trans inside)
  reads other _ below := by
    have source : base ++ [name] ++ other :: below = base ++ name :: other :: below := by simp
    rw [source,written,if_neg,ready.reads name fresh,lookup_directory,if_pos rfl]
    exact fun clash => ready.apart (name :: other :: below) ⟨[name],clash.symm⟩
  empty other _ below := by
    have place : target ++ [name] ++ other :: below = target ++ name :: other :: below := by simp
    rw [place,written,if_neg (by simp),ready.empty name fresh]

/-- Once the directory at the root is made, what it holds can follow. -/
private theorem ready_root {children : Forest α} {node : Node α} (apart : ∀ below, ¬ target <+: base ++ below)
    (reads : ∀ below, before.lookup (base ++ below) = (Entry.directory children).lookup below)
    (empty : ∀ below, before.lookup (target ++ below) = none)
    (written : ∀ path, after.lookup path = if path = target then some node else before.lookup path) :
    Ready children base target [] after where
  apart := apart
  reads name _ below := by
    rw [written,if_neg (fun clash => apart (name :: below) ⟨[],by rw [List.append_nil,clash]⟩),reads]
    rfl
  empty name _ below := by
    rw [written,if_neg (by simp)]
    exact empty _

/-- A directory that was made and filled changed nothing outside. -/
private theorem replicated_outside {children made : Forest α} {name : String} {node : Node α}
    (written : ∀ path, made.lookup path = if path = target ++ [name] then some node else before.lookup path)
    (replica : Replicated copied children (base ++ [name]) (target ++ [name]) [] made after) (path : Path)
    (outside : ∀ below, path ≠ target ++ name :: below) : after.lookup path = before.lookup path := by
  rw [replica.2 path (fun next _ below => by simpa using outside (next :: below)),written,if_neg (outside [])]

/-- Copying along a walk through a directory replicates it. -/
theorem forest_copies {forest : Forest α} (placed : ∀ below, place (base ++ below) = target ++ below)
    (ready : Ready forest base target seen before)
    (along : Along (copies copied place) (forest.walk base seen) before after) :
    Replicated copied forest base target seen before after := by
  induction forest generalizing base target seen before after with
  | nil =>
    obtain rfl : after = before := along
    refine ⟨fun name unseen below => ?_,fun _ _ => rfl⟩
    rw [lookup_nil]
    exact ready.empty name unseen below
  | leaf name value rest ih =>
    obtain ⟨between,here,later⟩ := along_append along
    by_cases old : name ∈ seen
    · rw [if_pos old] at here
      obtain rfl : between = before := here
      have others := leaf_others name value rest
      exact replicated_skip others old (ih placed (ready_rest others (fun _ _ => rfl) ready) later)
    · rw [if_neg old] at here
      obtain ⟨node,copy,written⟩ := along_single here
      rw [show (Event.visitFile (base ++ [name]) value).path = base ++ [name] from rfl] at copy written
      rw [ready.reads name old] at copy
      simp only [placed] at written
      have elsewhere (path : Path) (outside : ∀ below, path ≠ target ++ name :: below) :
          between.lookup path = before.lookup path := by rw [written,if_neg (outside [])]
      have others := leaf_others name value rest
      refine replicated_cons others (fun below => ?_) elsewhere old
        (ih placed (ready_rest others elsewhere ready) later)
      rw [written]
      cases below with
      | nil =>
        rw [lookup_leaf,if_pos rfl,if_pos rfl] at copy ⊢
        exact ⟨node,if_pos rfl,copy⟩
      | cons second deeper =>
        rw [lookup_leaf,if_pos rfl,if_neg (by simp),if_neg (by simp)]
        exact ready.empty name old _
  | directory name children rest ihChildren ih =>
    obtain ⟨between,here,later⟩ := along_append along
    by_cases old : name ∈ seen
    · rw [if_pos old] at here
      obtain rfl : between = before := here
      have others := directory_others name children rest
      exact replicated_skip others old (ih placed (ready_rest others (fun _ _ => rfl) ready) later)
    · rw [if_neg old] at here
      obtain ⟨filled,⟨made,⟨node,copy,written⟩,inside⟩,left⟩ := along_append here
      obtain rfl : between = filled := along_single left
      rw [show (Event.preVisitDirectory (base ++ [name]) : Event α).path = base ++ [name] from rfl] at copy written
      rw [ready.reads name old] at copy
      simp only [placed] at written
      have replica : Replicated copied children (base ++ [name]) (target ++ [name]) [] made between := by
        refine ihChildren (fun below => ?_) (ready_children old written ready) inside
        rw [List.append_assoc,placed,List.append_assoc]
      have elsewhere := replicated_outside written replica
      have others := directory_others name children rest
      refine replicated_cons others (fun below => ?_) elsewhere old
        (ih placed (ready_rest others elsewhere ready) later)
      rw [lookup_directory,if_pos rfl] at copy ⊢
      cases below with
      | nil =>
        rw [lookup_root] at copy ⊢
        refine ⟨node,?_,copy⟩
        rw [replica.2 _ (by simp),written,if_pos rfl]
      | cons next deeper =>
        have inside := replica.1 next (by simp) deeper
        rw [List.append_assoc,List.append_assoc] at inside
        exact inside

/-- Copying along a walk replicates the entry at `target`, where nothing was. -/
theorem walk_copies {entry : Entry α} (placed : ∀ below, place (base ++ below) = target ++ below)
    (apart : ∀ below, ¬ target <+: base ++ below)
    (reads : ∀ below, before.lookup (base ++ below) = entry.lookup below)
    (empty : ∀ below, before.lookup (target ++ below) = none)
    (along : Along (copies copied place) (entry.walk base) before after) (below : Path) :
    CopyOf (copied (base ++ below)) (entry.lookup below) (after.lookup (target ++ below)) := by
  have root : place base = target := by simpa using placed []
  have source : before.lookup base = entry.lookup [] := by simpa using reads []
  cases entry with
  | leaf value =>
    obtain ⟨node,copy,written⟩ := along_single along
    rw [show (Event.visitFile base value).path = base from rfl] at copy written
    rw [source] at copy
    rw [written,root]
    cases below with
    | nil =>
      rw [List.append_nil,List.append_nil]
      exact ⟨node,if_pos rfl,copy⟩
    | cons first rest =>
      rw [if_neg (by simp)]
      exact empty _
  | directory children =>
    obtain ⟨filled,⟨made,⟨node,copy,written⟩,inside⟩,left⟩ := along_append along
    obtain rfl : after = filled := along_single left
    rw [show (Event.preVisitDirectory base : Event α).path = base from rfl] at copy written
    rw [source] at copy
    rw [root] at written
    have replica : Replicated copied children base target [] made after :=
      forest_copies placed (ready_root apart reads empty written) inside
    cases below with
    | nil =>
      rw [List.append_nil,List.append_nil,replica.2 target (by simp),written,if_pos rfl]
      rw [Entry.lookup,lookup_root] at copy ⊢
      exact ⟨node,rfl,copy⟩
    | cons name deeper => exact replica.1 name (by simp) deeper

/-! ## What a copying walk meets -/

/-- The source is as it was, nothing is at the new place, and the directory for it is
    there. -/
structure Fresh (place : Path → Path) (files : Forest α) (path : Path) (node : Node α) : Prop where
  source : files.lookup path = some node
  parent : ∃ parent name, place path = parent ++ [name] ∧ files.lookup parent = some .directory
  absent : files.lookup (place path) = none

def Meets (place : Path → Path) (files : Forest α) : Event α → Prop
  | .preVisitDirectory path => Fresh place files path .directory
  | .visitFile path value => Fresh place files path (.leaf value)
  | .postVisitDirectory _ => True

private theorem fresh_entry {forest : Forest α} {name : String} {node : Node α}
    (placed : ∀ below, place (base ++ below) = target ++ below) (ready : Ready forest base target seen before)
    (there : before.lookup target = some .directory) (unseen : name ∉ seen) (found : forest.lookup [name] = some node) :
    Fresh place before (base ++ [name]) node where
  source := (ready.reads name unseen []).trans found
  parent := ⟨target,name,placed [name],there⟩
  absent := placed [name] ▸ ready.empty name unseen []

/-- If steps copy where they meet something fresh, they do so along a walk. -/
theorem forest_meets {forest : Forest α}
    (copying : ∀ event before after, Meets place before event → step event before after → copies copied place event before after)
    (directories : ∀ path node, copied path (some .directory) node → node = .directory)
    (placed : ∀ below, place (base ++ below) = target ++ below) (ready : Ready forest base target seen before)
    (there : before.lookup target = some .directory) (along : Along step (forest.walk base seen) before after) :
    Along (fun event before after => Meets place before event ∧ step event before after) (forest.walk base seen) before after := by
  induction forest generalizing base target seen before after with
  | nil => exact along
  | leaf name value rest ih =>
    obtain ⟨between,here,later⟩ := along_append along
    have others := leaf_others name value rest
    by_cases old : name ∈ seen
    · rw [if_pos old] at here
      obtain rfl : between = before := here
      rw [Forest.walk,if_pos old]
      exact ih placed (ready_rest others (fun _ _ => rfl) ready) there later
    · rw [if_neg old] at here
      have meets : Fresh place before (base ++ [name]) (.leaf value) :=
        fresh_entry placed ready there old (by rw [lookup_leaf,if_pos rfl,if_pos rfl])
      obtain ⟨node,copy,written⟩ := copying (.visitFile (base ++ [name]) value) _ _ meets (along_single here)
      rw [show (Event.visitFile (base ++ [name]) value).path = base ++ [name] from rfl,placed] at written
      have elsewhere (path : Path) (outside : ∀ below, path ≠ target ++ name :: below) :
          between.lookup path = before.lookup path := by rw [written,if_neg (outside [])]
      rw [Forest.walk,if_neg old]
      refine along_join ⟨between,⟨meets,along_single here⟩,rfl⟩ (ih placed (ready_rest others elsewhere ready) ?_ later)
      rw [elsewhere target (by simp)]
      exact there
  | directory name children rest ihChildren ih =>
    obtain ⟨between,here,later⟩ := along_append along
    have others := directory_others name children rest
    by_cases old : name ∈ seen
    · rw [if_pos old] at here
      obtain rfl : between = before := here
      rw [Forest.walk,if_pos old]
      exact ih placed (ready_rest others (fun _ _ => rfl) ready) there later
    · rw [if_neg old] at here
      obtain ⟨filled,⟨made,begun,inside⟩,left⟩ := along_append here
      obtain rfl : between = filled := copying (.postVisitDirectory (base ++ [name])) _ _ trivial (along_single left)
      have meets : Fresh place before (base ++ [name]) .directory :=
        fresh_entry placed ready there old (by rw [lookup_directory,if_pos rfl,lookup_root])
      obtain ⟨node,copy,written⟩ := copying (.preVisitDirectory (base ++ [name])) _ _ meets begun
      rw [show (Event.preVisitDirectory (base ++ [name]) : Event α).path = base ++ [name] from rfl] at copy written
      rw [meets.source] at copy
      obtain rfl := directories _ node copy
      rw [placed] at written
      have readyChildren := ready_children old written ready
      have placedChildren (below : Path) : place (base ++ [name] ++ below) = target ++ [name] ++ below := by
        rw [List.append_assoc,placed,List.append_assoc]
      have deeper := ihChildren placedChildren readyChildren (by rw [written,if_pos rfl]) inside
      have replica : Replicated copied children (base ++ [name]) (target ++ [name]) [] made between :=
        forest_copies placedChildren readyChildren (along_mono (fun event b a both => copying event b a both.1 both.2) deeper)
      have elsewhere := replicated_outside written replica
      rw [Forest.walk,if_neg old]
      refine along_join (along_join ⟨made,⟨meets,begun⟩,deeper⟩ ⟨between,⟨trivial,along_single left⟩,rfl⟩)
        (ih placed (ready_rest others elsewhere ready) ?_ later)
      rw [elsewhere target (by simp)]
      exact there

/-- So does the walk from its root. -/
theorem walk_meets {entry : Entry α} {parent : Path} {name : String}
    (copying : ∀ event before after, Meets place before event → step event before after → copies copied place event before after)
    (directories : ∀ path node, copied path (some .directory) node → node = .directory)
    (placed : ∀ below, place (base ++ below) = target ++ below) (apart : ∀ below, ¬ target <+: base ++ below)
    (reads : ∀ below, before.lookup (base ++ below) = entry.lookup below)
    (empty : ∀ below, before.lookup (target ++ below) = none) (named : target = parent ++ [name])
    (there : before.lookup parent = some .directory) (along : Along step (entry.walk base) before after) :
    Along (fun event before after => Meets place before event ∧ step event before after) (entry.walk base) before after := by
  have root : place base = target := by simpa using placed []
  have source : before.lookup base = entry.lookup [] := by simpa using reads []
  have absent : before.lookup (place base) = none := by simpa [root] using empty []
  cases entry with
  | leaf value =>
    have meets : Fresh place before base (.leaf value) := ⟨source,⟨parent,name,root.trans named,there⟩,absent⟩
    exact ⟨after,⟨meets,along_single along⟩,rfl⟩
  | directory children =>
    obtain ⟨filled,⟨made,begun,inside⟩,left⟩ := along_append along
    obtain rfl : after = filled := copying (.postVisitDirectory base) _ _ trivial (along_single left)
    rw [Entry.lookup,lookup_root] at source
    have meets : Fresh place before base .directory := ⟨source,⟨parent,name,root.trans named,there⟩,absent⟩
    obtain ⟨node,copy,written⟩ := copying (.preVisitDirectory base) _ _ meets begun
    rw [show (Event.preVisitDirectory base : Event α).path = base from rfl,root] at written
    rw [show (Event.preVisitDirectory base : Event α).path = base from rfl,source] at copy
    obtain rfl := directories _ node copy
    have ready : Ready children base target [] made := ready_root apart reads empty written
    have deeper := forest_meets copying directories placed ready (by rw [written,if_pos rfl]) inside
    exact along_join ⟨made,⟨meets,begun⟩,deeper⟩ ⟨after,⟨trivial,along_single left⟩,rfl⟩

end
end OpenRune.Walks
