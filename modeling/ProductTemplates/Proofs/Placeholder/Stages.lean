import ProductTemplates.Proofs.Placeholder.Occurrence

/-! Substitution in stages. In a text whose dollar signs all begin tokens, one set of values without
dollar signs and then another one fill in what the merged set fills in at once. -/
namespace ProductTemplates

namespace Placeholder

variable {ps : List Piece} {id : String}

theorem exists_mem_places_iff (start : Nat) :
    (∃ place, (place, id) ∈ places start ps) ↔ Piece.token id ∈ ps := by
  induction ps generalizing start with
  | nil => simp [places]
  | cons p rest ih =>
    cases p with
    | character c => simpa [places] using ih (start + 1)
    | token own =>
      simp only [places, List.mem_cons, Prod.mk.injEq, Piece.token.injEq, exists_or, ih]
      simp

theorem mentions_iff_exists_tokenAt {text : String} :
    Mentions text id ↔ ∃ place, TokenAt text.toList place id := by
  rw [Mentions, ← exists_mem_places_iff 0]
  simp [mem_places_iff]

end Placeholder

namespace OverrideSet

open Placeholder

/-- Substituting with one set and then with another is substituting once with the merged set. So
the first set has nothing to do in a second round, and what is left over are the tokens that it does
not fix. -/
theorem apply_apply_merge (s t : OverrideSet) (text : String) (tidy : IsTidy text.toList)
    (plain : ∀ e ∈ s.entries, '$' ∉ e.value.toList) :
    t.apply (s.apply text) = (s.merge t.entries).apply text ∧
    s.apply (s.apply text) = s.apply text ∧
    ∀ id, (∃ place, TokenAt (s.apply text).toList place id) ↔
      (∃ place, TokenAt text.toList place id) ∧ s.contains id = false := by
  refine ⟨?merged, ?again, fun id => ?left⟩
  case merged =>
    apply apply_apply tidy plain
    intro id
    exact (get?_merge s t.entries id).symm
  case again =>
    apply apply_apply tidy plain
    intro id
    exact Option.or_self
  case left =>
    rw [← mentions_iff_exists_tokenAt, ← mentions_iff_exists_tokenAt]
    exact mentions_apply_iff tidy plain

def firstStage : OverrideSet := ofList [⟨"a", "\x7b "⟩, ⟨"b", ""⟩]

/-- A value that looks like a token, and one for an id that is fixed already. -/
def secondStage : OverrideSet := ofList [⟨"c", "${a}"⟩, ⟨"a", "1"⟩]

/-- A text in which the first stage brings braces together. -/
def staged : String := "${a}${b}{c} ${c}"

theorem apply_apply_merge_staged :
    IsTidy staged.toList ∧ (∀ e ∈ firstStage.entries, '$' ∉ e.value.toList) ∧
    firstStage.apply staged = "\x7b {c} ${c}" ∧
    secondStage.apply (firstStage.apply staged) =
      (firstStage.merge secondStage.entries).apply staged ∧
    firstStage.apply (firstStage.apply staged) = firstStage.apply staged ∧
    ¬ ∃ place, TokenAt (firstStage.apply staged).toList place "a" := by
  have tidy : IsTidy staged.toList := by
    have decided : decide (IsTidy staged.toList) = true := by decide +kernel
    exact of_decide_eq_true decided
  have plain : ∀ e ∈ firstStage.entries, '$' ∉ e.value.toList := by decide
  obtain ⟨merged, again, left⟩ := apply_apply_merge firstStage secondStage staged tidy plain
  have fixed : firstStage.contains "a" = true := by decide
  refine ⟨tidy, plain, by decide +kernel, merged, again, fun there => ?_⟩
  have unfixed := ((left "a").1 there).2
  rw [fixed] at unfixed
  contradiction

end OverrideSet
end ProductTemplates
