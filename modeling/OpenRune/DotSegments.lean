import Mathlib

/-!
# Paths with dots

A path is resolved segment by segment: `.` stays, `..` leaves a directory, anything
else enters one. Two places are near when one of them is on the way to the other.
-/
namespace OpenRune.DotSegments

def enter (here : List String) (segment : String) : List String :=
  if segment = "." then here else if segment = ".." then here.dropLast else here ++ [segment]

def resolve (start segments : List String) : List String := segments.foldl enter start

/-- The segments of a name; separators next to each other count once. -/
def segments (separates : Char → Bool) (name : String) : List String :=
  ((name.toList.splitOnP separates).filter fun segment => !segment.isEmpty).map String.ofList

def Near {α : Type} (place other : List α) : Prop := place <+: other ∨ other <+: place

instance {α : Type} [DecidableEq α] (place other : List α) : Decidable (Near place other) :=
  inferInstanceAs (Decidable (_ ∨ _))

theorem near_between {α : Type} {place other between : List α} (near : Near place other) (onTheWay : between <+: other) :
    Near place between := by
  rcases near with below | above
  · exact List.prefix_or_prefix_of_prefix below onTheWay
  · exact .inr (onTheWay.trans above)

/-- Without `..` no directory is left. -/
theorem resolve_below (start : List String) {parts : List String} (absent : ".." ∉ parts) :
    start <+: resolve start parts := by
  induction parts generalizing start with
  | nil => exact List.prefix_refl start
  | cons part rest ih =>
    simp only [List.mem_cons,not_or] at absent
    have entered : start <+: enter start part := by
      unfold enter
      by_cases same : part = "."
      · rw [if_pos same]
      · rw [if_neg same,if_neg (Ne.symm absent.1)]
        exact List.prefix_append start [part]
    exact entered.trans (ih (enter start part) absent.2)

theorem segments_nil (separates : Char → Bool) : segments separates "" = [] := rfl

theorem segments_single {separates : Char → Bool} {segment : String} (filled : segment ≠ "")
    (whole : ∀ c ∈ segment.toList, separates c = false) : segments separates segment = [segment] := by
  have text : segment.toList ≠ [] := fun empty => filled (String.toList_inj.mp (by simpa using empty))
  rw [segments,List.splitOnP_eq_singleton whole]
  simp [text]

theorem segments_joined {separates : Char → Bool} {first : String} {separator : Char}
    (separated : separates separator = true) (filled : first ≠ "") (whole : ∀ c ∈ first.toList, separates c = false)
    (rest : String) :
    segments separates (first ++ String.singleton separator ++ rest) = first :: segments separates rest := by
  have text : first.toList ≠ [] := fun empty => filled (String.toList_inj.mp (by simpa using empty))
  have pieces : (first ++ String.singleton separator ++ rest).toList.splitOnP separates =
      first.toList :: rest.toList.splitOnP separates := by
    rw [String.toList_append,String.toList_append,String.toList_singleton,List.append_assoc,List.singleton_append]
    exact List.splitOnP_append_cons_of_forall_mem whole separator separated rest.toList
  rw [segments,pieces]
  simp [segments,text]

/-- A separator divides the segments in front of it from those behind it. -/
theorem segments_append {separates : Char → Bool} {separator : Char} (separated : separates separator = true)
    (before after : List Char) : segments separates (String.ofList (before ++ separator :: after)) =
      segments separates (String.ofList before) ++ segments separates (String.ofList after) := by
  simp only [segments,String.toList_ofList]
  rw [List.splitOnP_append_cons _ _ separated,List.filter_append,List.map_append]

/-- Resolving takes no segment that was not there. -/
theorem resolve_subset (start parts : List String) : resolve start parts ⊆ start ++ parts := by
  induction parts generalizing start with
  | nil => simp [resolve]
  | cons part rest ih =>
    have entered : enter start part ⊆ start ++ [part] := by
      unfold enter
      split
      · exact List.subset_append_left start [part]
      split
      · exact fun segment member => List.mem_append_left [part] (List.dropLast_subset start member)
      · exact List.Subset.refl _
    intro segment member
    rcases List.mem_append.mp (ih (enter start part) member) with early | late
    · have first := entered early
      simp only [List.mem_append,List.mem_singleton] at first ⊢
      rcases first with listed | rfl
      · exact .inl listed
      · exact .inr List.mem_cons_self
    · exact List.mem_append_right start (List.mem_cons_of_mem part late)

/-- Segments without dots are entered one after the other. -/
theorem resolve_plain (start : List String) {parts : List String} (plain : ∀ part ∈ parts, part ≠ "." ∧ part ≠ "..") :
    resolve start parts = start ++ parts := by
  induction parts generalizing start with
  | nil => simp [resolve]
  | cons part rest ih =>
    obtain ⟨current,parent⟩ := plain part List.mem_cons_self
    have entered : enter start part = start ++ [part] := by rw [enter,if_neg current,if_neg parent]
    change resolve (enter start part) rest = _
    rw [ih (enter start part) fun other member => plain other (List.mem_cons_of_mem part member),entered]
    simp

/-- What is left after resolving has no dots, if nothing before had. -/
theorem resolve_undotted {start : List String} (clean : ∀ part ∈ start, part ≠ "." ∧ part ≠ "..") (parts : List String) :
    ∀ part ∈ resolve start parts, part ≠ "." ∧ part ≠ ".." := by
  induction parts generalizing start with
  | nil => exact clean
  | cons part rest ih =>
    refine ih fun other member => ?_
    unfold enter at member
    split at member
    · exact clean other member
    split at member
    · exact clean other (List.dropLast_subset start member)
    · rename_i current parent
      rcases List.mem_append.mp member with listed | last
      · exact clean other listed
      · rw [List.mem_singleton.mp last]
        exact ⟨current,parent⟩

/-- The segments of what was joined. -/
theorem segments_intercalate {separates : Char → Bool} {separator : Char} (separated : separates separator = true)
    {parts : List String} (whole : ∀ part ∈ parts, part ≠ "" ∧ ∀ c ∈ part.toList, separates c = false) :
    segments separates ((String.singleton separator).intercalate parts) = parts := by
  induction parts with
  | nil => simp [segments_nil]
  | cons part rest ih =>
    have first := whole part List.mem_cons_self
    have later := ih fun other member => whole other (List.mem_cons_of_mem part member)
    cases rest with
    | nil => simpa using segments_single first.1 first.2
    | cons next rest => rw [String.intercalate_cons_cons,segments_joined separated first.1 first.2,later]

theorem splitOnP_whole (separates : Char → Bool) (text : List Char) :
    ∀ part ∈ text.splitOnP separates, ∀ c ∈ part, separates c = false := by
  induction text with
  | nil => simp
  | cons c rest ih =>
    rw [List.splitOnP_cons_eq_if_modifyHead]
    by_cases separator : separates c = true
    · rw [if_pos separator]
      intro part member
      rcases List.mem_cons.mp member with rfl | later
      · simp
      · exact ih part later
    · rw [if_neg separator]
      cases pieces : rest.splitOnP separates with
      | nil => exact absurd pieces (List.splitOnP_ne_nil _ _)
      | cons first others =>
        rw [pieces] at ih
        intro part member d inside
        rcases List.mem_cons.mp member with rfl | later
        · rcases List.mem_cons.mp inside with rfl | further
          · exact Bool.eq_false_iff.mpr separator
          · exact ih first List.mem_cons_self d further
        · exact ih part (List.mem_cons_of_mem first later) d inside

theorem splitOnP_subset (separates : Char → Bool) (text : List Char) : ∀ part ∈ text.splitOnP separates, part ⊆ text := by
  induction text with
  | nil => simp
  | cons c rest ih =>
    rw [List.splitOnP_cons_eq_if_modifyHead]
    by_cases separator : separates c = true
    · rw [if_pos separator]
      intro part member
      rcases List.mem_cons.mp member with rfl | later
      · exact List.nil_subset _
      · exact fun d inside => List.mem_cons_of_mem c (ih part later inside)
    · rw [if_neg separator]
      cases pieces : rest.splitOnP separates with
      | nil => exact absurd pieces (List.splitOnP_ne_nil _ _)
      | cons first others =>
        rw [pieces] at ih
        intro part member
        rcases List.mem_cons.mp member with rfl | later
        · exact List.cons_subset_cons c (ih first List.mem_cons_self)
        · exact fun d inside => List.mem_cons_of_mem c (ih part (List.mem_cons_of_mem first later) inside)

theorem segments_subset (separates : Char → Bool) (name : String) :
    ∀ part ∈ segments separates name, part.toList ⊆ name.toList := by
  intro part member
  obtain ⟨text,kept,rfl⟩ := List.mem_map.mp member
  rw [String.toList_ofList]
  exact splitOnP_subset separates name.toList text (List.mem_filter.mp kept).1

theorem segments_whole (separates : Char → Bool) (name : String) :
    ∀ part ∈ segments separates name, part ≠ "" ∧ ∀ c ∈ part.toList, separates c = false := by
  intro part member
  obtain ⟨text,kept,rfl⟩ := List.mem_map.mp member
  obtain ⟨piece,filled⟩ := List.mem_filter.mp kept
  refine ⟨fun empty => ?_,by simpa using splitOnP_whole separates name.toList text piece⟩
  have none : text = [] := by simpa using congrArg String.toList empty
  simp [none] at filled

end OpenRune.DotSegments
