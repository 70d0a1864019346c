import Mathlib.Data.Finset.Card
import ProductTemplates.Proofs.Placeholder

/-! An override set after any history of offers: it holds the first entry of every id among all that
was offered, in the order of the offers, and fills in texts by the values of the ids alone. -/
namespace ProductTemplates.OverrideSet

/-- A way in which a set grows: an entry is offered, or all that a template fixes. -/
inductive Step where
  | offer (entry : FixedVariable)
  | merge (fixed : List FixedVariable)
deriving Repr, DecidableEq, Inhabited

def Step.offered : Step → List FixedVariable
  | offer entry => [entry]
  | merge fixed => fixed

def take (s : OverrideSet) : Step → OverrideSet
  | .offer entry => (s.offer entry).2
  | .merge fixed => s.merge fixed

def run (s : OverrideSet) (steps : List Step) : OverrideSet := steps.foldl take s

def offers (steps : List Step) : List FixedVariable := steps.flatMap Step.offered

variable {s t : OverrideSet} {entry : FixedVariable} {fixed known : List FixedVariable} {id : String}

theorem offer_added_iff : (s.offer entry).1 = true ↔ s.contains entry.id = false := by
  unfold offer
  split
  · next taken => simp [taken]
  · next free => simpa using free

theorem offer_set (s : OverrideSet) (entry : FixedVariable) : (s.offer entry).2 = s.insert entry := by
  unfold offer
  split
  · next taken => rw [insert, dif_pos taken]
  · rfl

theorem take_eq (s : OverrideSet) (step : Step) : s.take step = s.merge step.offered := by
  cases step with
  | offer entry => exact offer_set s entry
  | merge fixed => rfl

theorem run_eq (s : OverrideSet) (steps : List Step) : s.run steps = s.merge (offers steps) := by
  induction steps generalizing s with
  | nil => rfl
  | cons step rest ih =>
    calc s.run (step :: rest)
      _ = (s.merge step.offered).run rest := congrArg (run · rest) (take_eq s step)
      _ = (s.merge step.offered).merge (offers rest) := ih _
      _ = s.merge (offers (step :: rest)) := (merge_append s step.offered (offers rest)).symm

theorem entries_prefix_merge (s : OverrideSet) (fixed : List FixedVariable) :
    s.entries <+: (s.merge fixed).entries := by
  rw [entries_merge]
  exact List.prefix_append _ _

theorem get?_merge_of_get? {value : String} (there : s.get? id = some value) :
    (s.merge fixed).get? id = some value := by
  rw [get?_merge, there, Option.some_or]

theorem merge_of_contains (taken : ∀ e ∈ known, s.contains e.id = true) : s.merge known = s := by
  induction known with
  | nil => rfl
  | cons e rest ih =>
    rw [List.forall_mem_cons] at taken
    have same : s.insert e = s := by rw [insert, dif_pos taken.1]
    calc s.merge (e :: rest)
      _ = (s.insert e).merge rest := rfl
      _ = s := by rw [same, ih taken.2]

theorem apply_congr (same : ∀ id, s.get? id = t.get? id) (text : String) :
    s.apply text = t.apply text := by
  apply String.toList_injective
  rw [apply_eq, apply_eq, funext same]

theorem get?_eq_of_perm (perm : s.entries.Perm t.entries) (id : String) : s.get? id = t.get? id := by
  rw [get?, get?, find?_eq_of_perm perm (List.pairwise_map.2 s.distinct)]

theorem size_eq_card (s : OverrideSet) : s.size = (s.entries.map (·.id)).toFinset.card := by
  rw [List.toFinset_card_of_nodup (List.pairwise_map.2 s.distinct), List.length_map, size]

theorem isEmpty_merge_iff (fixed : List FixedVariable) :
    (empty.merge fixed).isEmpty = true ↔ fixed = [] := by
  cases fixed with
  | nil => simp [isEmpty, empty]
  | cons e rest => simp [isEmpty, entries_merge, empty, firsts_cons_fresh]

/-- After any history from any start, the entries of a set are the first ones of their ids among all
that was offered. Later steps only add to them; offers and look-ups go by them; offering in two steps,
or what is known already, is no different; and texts depend on the values of ids alone. -/
theorem run_ofList (start : List FixedVariable) (steps : List Step) :
    let offered := start ++ offers steps
    let s := (ofList start).run steps
    (s.entries = firsts (·.id) [] offered ∧ (s.entries.map (·.id)).Nodup) ∧
    (∀ later, s.entries <+: (s.run later).entries ∧
      ∀ id value, s.get? id = some value → (s.run later).get? id = some value) ∧
    (∀ entry, ((s.offer entry).1 = true ↔ s.contains entry.id = false) ∧
      (s.offer entry).2.entries = if s.contains entry.id then s.entries else s.entries ++ [entry]) ∧
    (∀ id, s.get? id = (offered.find? (·.id == id)).map (·.value) ∧
      (s.contains id = true ↔ ∃ e ∈ offered, e.id = id)) ∧
    (s.size = (offered.map (·.id)).toFinset.card ∧ (s.isEmpty = true ↔ offered = [])) ∧
    (∀ a b, (s.merge a).merge b = s.merge (a ++ b)) ∧
    (∀ known, (∀ e ∈ known, s.contains e.id = true) → s.merge known = s) ∧
    ∀ t : OverrideSet, (∀ id, t.get? id = s.get? id) ∨ t.entries.Perm s.entries →
      ∀ text, t.apply text = s.apply text := by
  intro offered s
  have whole : s = empty.merge offered := by
    calc s
      _ = (ofList start).merge (offers steps) := run_eq _ _
      _ = empty.merge offered := (merge_append empty start (offers steps)).symm
  have entries : s.entries = firsts (·.id) [] offered := by
    rw [whole, entries_merge]
    rfl
  have distinct : (s.entries.map (·.id)).Nodup := List.pairwise_map.2 s.distinct
  have contained (id : String) : s.contains id = true ↔ ∃ e ∈ offered, e.id = id := by
    rw [whole, contains_merge_iff]
    simp [contains, empty]
  refine ⟨⟨entries, distinct⟩, fun later => ?_, fun entry => ?_, fun id => ⟨?_, contained id⟩,
    ⟨?size, ?empty⟩, fun a b => (merge_append s a b).symm, fun known => merge_of_contains,
    fun t alike text => ?_⟩
  · rw [run_eq]
    exact ⟨entries_prefix_merge _ _, fun id value => get?_merge_of_get?⟩
  · exact ⟨offer_added_iff, by rw [offer_set, entries_insert]⟩
  · rw [whole, get?_merge]
    rfl
  case size =>
    have ids : (s.entries.map (·.id)).toFinset = (offered.map (·.id)).toFinset := by
      ext id
      have both := contains_iff.symm.trans (contained id)
      simpa using both
    rw [size_eq_card, ids]
  case empty =>
    rw [whole]
    exact isEmpty_merge_iff offered
  · exact apply_congr (alike.elim id get?_eq_of_perm) text

end ProductTemplates.OverrideSet
