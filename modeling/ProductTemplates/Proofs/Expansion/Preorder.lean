import ProductTemplates.Proofs.Expansion

/-! The replacement of references as a walk. The list is walked once from left to right, and at a
reference the walk goes through the entries of its template before it goes on, so that the loop,
which looks for the first reference again and again, returns what the walk keeps. -/
namespace ProductTemplates.Expansion

variable {templates : List VariableTemplate} {spliced : List String}
  {entries later kept rest : List InstanceVariable} {v : InstanceVariable} {id : String}
  {t : VariableTemplate}

/-- What a walk has kept so far, and the templates whose entries it went through. -/
structure Walked where
  kept : List InstanceVariable := []
  spliced : List String := []
deriving Repr

theorem template?_of_find? (fresh : id ∉ spliced) (found : templates.find? (·.id == id) = some t) :
    template? templates spliced id = some t :=
  template?_eq_some_iff.2 ⟨by simpa using List.find?_some found, fresh, found⟩

theorem unspliced_cons_lt (fresh : id ∉ spliced) (found : templates.find? (·.id == id) = some t) :
    unspliced templates (id :: spliced) < unspliced templates spliced :=
  unspliced_lt (template?_of_find? fresh found)

/-- The entries of a template that have no id, or one that occurs nowhere in a list. -/
def newEntries (t : VariableTemplate) (others : List InstanceVariable) : List InstanceVariable :=
  t.instanceVariables.filter fun w => w.id = none ∨ w.id ∉ others.map (·.id)

/-- Walks through a part of the list that other entries follow. The whole list is what was kept,
what is left of the part and what follows it. -/
def walk (templates : List VariableTemplate) : (entries later : List InstanceVariable) →
    (s : Walked) → { s' : Walked // unspliced templates s'.spliced ≤ unspliced templates s.spliced }
  | [], _, s => ⟨s, Nat.le_refl _⟩
  | v :: rest, later, s =>
    match v.template with
    | none =>
      let after := walk templates rest later { s with kept := s.kept ++ [v] }
      ⟨after.1, after.2⟩
    | some id =>
      if seen : id ∈ s.spliced then walk templates rest later s
      else
        match found : templates.find? (·.id == id) with
        | none => walk templates rest later s
        | some t =>
          let inner := walk templates (newEntries t (s.kept ++ (rest ++ later))) (rest ++ later)
            { s with spliced := id :: s.spliced }
          let after := walk templates rest later inner.1
          ⟨after.1, Nat.le_trans after.2
            (Nat.le_trans inner.2 (Nat.le_of_lt (unspliced_cons_lt seen found)))⟩
termination_by entries _ s => (unspliced templates s.spliced, entries.length)
decreasing_by
  · exact Prod.Lex.right _ (Nat.lt_succ_self _)
  · exact Prod.Lex.right _ (Nat.lt_succ_self _)
  · exact Prod.Lex.right _ (Nat.lt_succ_self _)
  · exact Prod.Lex.left _ _ (unspliced_cons_lt seen found)
  · exact Prod.Lex.left _ _ (Nat.lt_of_le_of_lt inner.2 (unspliced_cons_lt seen found))

/-- The entries that a walk through the whole list keeps. -/
def preorder (templates : List VariableTemplate) (entries : List InstanceVariable) :
    List InstanceVariable :=
  (walk templates entries [] {}).1.kept

theorem firstReference?_append (plain : ∀ v ∈ kept, v.template = none)
    (reference : v.template = some id) (rest : List InstanceVariable) :
    firstReference? (kept ++ v :: rest) = some (kept, id, rest) := by
  induction kept with
  | nil => simp [firstReference?, reference]
  | cons w more ih =>
    rw [List.forall_mem_cons] at plain
    rw [List.cons_append, firstReference?, plain.1, ih plain.2]
    rfl

theorem isDeclared_eq_false_iff :
    isDeclared entries v = false ↔ v.id = none ∨ v.id ∉ entries.map (·.id) := by
  cases known : v.id with
  | none => simp [isDeclared, known]
  | some id => simp [isDeclared, known]

/-- What the loop puts in a reference's place is what the walk goes through. -/
theorem filter_isDeclared (t : VariableTemplate) (others : List InstanceVariable) :
    t.instanceVariables.filter (fun w => !isDeclared others w) = newEntries t others := by
  apply List.filter_congr
  intro w _
  rw [Bool.eq_iff_iff, Bool.not_eq_true', isDeclared_eq_false_iff, decide_eq_true_iff]

theorem expandReferences_drop (plain : ∀ v ∈ kept, v.template = none)
    (reference : v.template = some id) (unknown : template? templates spliced id = none)
    (rest : List InstanceVariable) :
    expandReferences templates spliced (kept ++ v :: rest) =
      expandReferences templates spliced (kept ++ rest) := by
  rw [expandReferences_of_cut (firstReference?_append plain reference rest), unknown]

theorem expandReferences_splice (plain : ∀ v ∈ kept, v.template = none)
    (reference : v.template = some id) (known : template? templates spliced id = some t)
    (rest : List InstanceVariable) :
    expandReferences templates spliced (kept ++ v :: rest) =
      expandReferences templates (id :: spliced)
        (kept ++ (newEntries t (kept ++ rest) ++ rest)) := by
  rw [expandReferences_of_cut (firstReference?_append plain reference rest), known]
  simp only [filter_isDeclared]

/-- While the loop looks for the first reference behind what was kept, the walk keeps plain entries
only, and the loop goes on with the same list behind the part that was walked through. -/
theorem expandReferences_walk (templates : List VariableTemplate)
    (entries later : List InstanceVariable) (s : Walked) (plain : ∀ v ∈ s.kept, v.template = none) :
    (∀ v ∈ (walk templates entries later s).1.kept, v.template = none) ∧
    expandReferences templates s.spliced (s.kept ++ (entries ++ later)) =
      expandReferences templates (walk templates entries later s).1.spliced
        ((walk templates entries later s).1.kept ++ later) := by
  fun_induction walk templates entries later s with
  | case1 later s => exact ⟨plain, rfl⟩
  | case2 v rest later s own after ih =>
    have kept : ∀ w ∈ s.kept ++ [v], w.template = none := by
      intro w member
      rcases List.mem_append.1 member with old | new
      · exact plain w old
      · exact List.mem_singleton.1 new ▸ own
    simpa using ih kept
  | case3 v rest later s id reference seen ih =>
    rw [List.cons_append,
      expandReferences_drop plain reference (template?_eq_none_iff.2 (.inl seen))]
    exact ih plain
  | case4 v rest later s id reference fresh unknown ih =>
    rw [List.cons_append,
      expandReferences_drop plain reference (template?_eq_none_iff.2 (.inr unknown))]
    exact ih plain
  | case5 v rest later s id reference fresh t found inner after throughTemplate throughRest _ =>
    have known := template?_of_find? fresh found
    obtain ⟨plainInner, inside⟩ := throughTemplate plain
    obtain ⟨plainAfter, behind⟩ := throughRest plainInner
    refine ⟨plainAfter, ?_⟩
    rw [List.cons_append, expandReferences_splice plain reference known]
    exact inside.trans behind

/-- Without defaults, expanded variables are what a walk through them keeps. -/
theorem expandVariables_eq_preorder (entries : List InstanceVariable)
    (templates : List VariableTemplate) :
    expandVariables entries templates [] = preorder templates entries := by
  have start : ∀ v ∈ ({} : Walked).kept, v.template = none := by simp
  obtain ⟨plain, same⟩ := expandReferences_walk templates entries [] {} start
  calc expandVariables entries templates []
    _ = expandReferences templates [] ([] ++ (entries ++ [])) := by
      rw [List.nil_append, List.append_nil]
      rfl
    _ = expandReferences templates (walk templates entries [] {}).1.spliced
          ((walk templates entries [] {}).1.kept ++ []) := same
    _ = preorder templates entries := by
      rw [List.append_nil, expandReferences_of_plain _ _ plain]
      rfl

/-- A reference that is still to come keeps out the entries of its id, and goes itself. -/
example : preorder [{ id := "common", instanceVariables := [.declare "zone" "south"] }]
    [.reference "common", { id := some "zone", template := some "gone" }] = [] := by cbv

end ProductTemplates.Expansion
