import Mathlib

/-!
# Replacing a character

`String.replace` searches for a pattern. For a pattern of one character it is the
replacement character by character.
-/
namespace OpenRune.Replacement
open String String.Slice String.Slice.Pattern String.Slice.Pattern.Model

theorem matchesAt_singleton {c d : Char} {s : Slice} {p : s.Pos} {t₁ t₂ : String}
    (splits : p.Splits t₁ (String.singleton d ++ t₂)) : MatchesAt (String.singleton c) p ↔ d = c := by
  rw [ForwardStringSearcher.matchesAt_iff_splits]
  constructor
  · rintro ⟨u₁,u₂,found⟩
    have same := congrArg String.toList (splits.eq_right found)
    simpa using (List.cons.inj (by simpa using same)).1
  · rintro rfl
    exact ⟨t₁,t₂,splits⟩

/-- A stretch without a match holds the character nowhere. -/
theorem splits_unmatched {c : Char} {s : Slice} {start stop : s.Pos} (ordered : start ≤ stop)
    (unmatched : ∀ p, start ≤ p → p < stop → ¬ MatchesAt (String.singleton c) p) {t₁ t₂ : String}
    (splits : start.Splits t₁ t₂) :
    ∃ m t, t₂ = m ++ t ∧ stop.Splits (t₁ ++ m) t ∧ c ∉ m.toList := by
  induction start using WellFounded.induction Slice.Pos.wellFounded_gt generalizing t₁ t₂ with | h start ih =>
  by_cases further : start < stop
  · have inside : start ≠ s.endPos := Slice.Pos.ne_endPos_of_lt further
    obtain ⟨t,rfl⟩ := splits.exists_eq_singleton_append inside
    have different := mt (matchesAt_singleton splits).mpr (unmatched start (Slice.Pos.le_refl _) further)
    obtain ⟨m,rest,rfl,reached,absent⟩ := ih (start.next inside) (by simp) (by simpa using further)
      (fun p after before => unmatched p (Std.le_of_lt (by simpa using after)) before) splits.next
    refine ⟨String.singleton (start.get inside) ++ m,rest,String.append_assoc.symm,String.append_assoc ▸ reached,?_⟩
    simpa [absent] using Ne.symm different
  · obtain rfl : start = stop := Std.le_antisymm ordered (Std.not_lt.1 further)
    exact ⟨"",t₂,by simp,by simpa using splits,by simp⟩

/-- One step of `String.replace`. -/
private def replaceStep {s : Slice} (replacement : String) : String → SearchStep s → String
  | sofar, .matched _ _ => sofar ++ replacement.toSlice
  | sofar, .rejected start stop => sofar ++ s.slice! start stop

private theorem replace_steps {s : Slice} {c : Char} (replacement : String) {p : s.Pos} {steps : List (SearchStep s)}
    (searched : IsValidSearchFrom (String.singleton c) p steps) {t₁ t₂ : String} (splits : p.Splits t₁ t₂)
    (sofar : String) : (steps.foldl (replaceStep replacement) sofar).toList =
      sofar.toList ++ t₂.toList.flatMap fun d => if d = c then replacement.toList else [d] := by
  induction searched generalizing sofar t₁ t₂ with
  | endPos =>
    obtain ⟨-,rfl⟩ := Slice.splits_endPos_iff.mp splits
    simp
  | matched longest _ ih =>
    obtain ⟨u₁,u₂,first,last⟩ := ForwardStringSearcher.isLongestMatchAt_iff_splits.mp longest
    obtain ⟨rfl,rfl⟩ := splits.eq first
    rw [List.foldl_cons,ih last]
    simp [replaceStep]
  | mismatched further unmatched _ ih =>
    obtain ⟨m,t,rfl,reached,absent⟩ := splits_unmatched (Std.le_of_lt further) unmatched splits
    obtain ⟨ordered,sliced⟩ := Slice.copy_slice_eq_iff_splits.mpr ⟨t₁,t,splits,reached⟩
    have kept : (m.toList.flatMap fun d => if d = c then replacement.toList else [d]) = m.toList := by
      have single : ∀ d ∈ m.toList, (if d = c then replacement.toList else [d]) = [d] := fun d member =>
        if_neg fun same : d = c => absent (same ▸ member)
      rw [List.flatMap_congr single]
      simp
    rw [List.foldl_cons,ih reached,replaceStep,← @Slice.slice_eq_slice! s _ _ ordered]
    simp [sliced,kept]

theorem replace_singleton (text : String) (c : Char) (replacement : String) :
    (text.replace (String.singleton c) replacement).toList =
      text.toList.flatMap fun d => if d = c then replacement.toList else [d] := by
  have lawful : LawfulToForwardSearcherModel (String.singleton c) :=
    ForwardStringSearcher.lawfulToForwardSearcherModel (by simp)
  have replaced := replace_steps replacement (lawful.isValidSearchFrom_toList text.toSlice)
    (Slice.splits_startPos text.toSlice) ""
  unfold String.replace Slice.replace
  rw [← Std.Iter.foldl_toList]
  rw [String.copy_toSlice,String.toList_empty,List.nil_append] at replaced
  refine (congrArg (fun step => (List.foldl step "" _).toList) (funext₂ fun sofar step => ?_)).trans replaced
  cases step <;> rfl

end OpenRune.Replacement
