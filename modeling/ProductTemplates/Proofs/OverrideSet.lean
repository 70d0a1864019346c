import ProductTemplates.OverrideSet
import ProductTemplates.Proofs.Firsts

/-! An override set read through its entries: merging appends the first entry of each new id, so
what is fixed stays fixed, and merging in two steps is merging once. -/
namespace ProductTemplates.OverrideSet

variable {s : OverrideSet} {fixed : List FixedVariable} {id : String}

theorem eq_of_entries_eq {s t : OverrideSet} (same : s.entries = t.entries) : s = t := by
  cases s
  cases t
  cases same
  rfl

theorem entries_insert (s : OverrideSet) (e : FixedVariable) :
    (s.insert e).entries = if s.contains e.id then s.entries else s.entries ++ [e] := by
  unfold insert
  split <;> rfl

/-- The set extended by a list holds the first entry of each id. -/
theorem entries_merge (s : OverrideSet) (fixed : List FixedVariable) :
    (s.merge fixed).entries = s.entries ++ firsts (·.id) (s.entries.map (·.id)) fixed := by
  rw [← foldl_append_fresh]
  induction fixed generalizing s with
  | nil => rfl
  | cons e rest ih =>
    change ((s.insert e).merge rest).entries = _
    rw [ih, entries_insert]
    rfl

theorem mem_entries_merge {e : FixedVariable} (h : e ∈ (s.merge fixed).entries) :
    e ∈ s.entries ∨ e ∈ fixed := by
  rw [entries_merge] at h
  exact (List.mem_append.1 h).imp_right (firsts_sublist.subset ·)

@[simp] theorem merge_nil (s : OverrideSet) : s.merge [] = s := rfl

theorem merge_append (s : OverrideSet) (xs ys : List FixedVariable) :
    s.merge (xs ++ ys) = (s.merge xs).merge ys := List.foldl_append

theorem merge_empty_entries (s : OverrideSet) : empty.merge s.entries = s := by
  apply eq_of_entries_eq
  have distinct : (s.entries.map (·.id)).Nodup := List.pairwise_map.2 s.distinct
  rw [entries_merge, firsts_of_nodup distinct (by simp [empty])]
  rfl

/-- Who fixes an id first keeps it. -/
theorem get?_merge (s : OverrideSet) (fixed : List FixedVariable) (id : String) :
    (s.merge fixed).get? id = (s.get? id).or ((fixed.find? (·.id == id)).map (·.value)) := by
  rw [get?, get?, entries_merge, List.find?_append]
  cases old : s.entries.find? (·.id == id) with
  | some e => rfl
  | none =>
    have fresh : id ∉ s.entries.map (·.id) := by
      simpa [List.find?_eq_none] using old
    rw [Option.none_or, find?_firsts fresh]
    rfl

theorem contains_merge_iff :
    (s.merge fixed).contains id = true ↔ s.contains id = true ∨ ∃ e ∈ fixed, e.id = id := by
  rw [contains_iff, contains_iff, entries_merge]
  constructor
  · rintro ⟨e, member, same⟩
    rcases List.mem_append.1 member with old | new
    · exact .inl ⟨e, old, same⟩
    · exact .inr ⟨e, firsts_sublist.subset new, same⟩
  · rintro (⟨e, member, same⟩ | offered)
    · exact ⟨e, List.mem_append_left _ member, same⟩
    · by_cases old : id ∈ s.entries.map (·.id)
      · obtain ⟨e, member, same⟩ := List.mem_map.1 old
        exact ⟨e, List.mem_append_left _ member, same⟩
      · obtain ⟨e, new, same⟩ := key_mem_firsts_iff.2 ⟨old, offered⟩
        exact ⟨e, List.mem_append_right _ new, same⟩

theorem get?_eq_none_iff : s.get? id = none ↔ s.contains id = false := by
  simp [get?, contains]

/-- What is fixed nearer the leaf is fixed further up. -/
theorem contains_merge_of_contains (h : s.contains id = true) :
    (s.merge fixed).contains id = true := contains_merge_iff.2 (.inl h)

theorem not_contains_of_merge (h : (s.merge fixed).contains id = false) : s.contains id = false := by
  rw [← Bool.not_eq_true] at h ⊢
  exact mt contains_merge_of_contains h

end ProductTemplates.OverrideSet
