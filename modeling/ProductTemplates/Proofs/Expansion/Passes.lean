import ProductTemplates.Proofs.Expansion
import ProductTemplates.Proofs.Firsts

/-! The replacement of references pass by pass. A pass takes the first reference away and may put
the entries of its template in its place, so that one reference less is left to go through, among
those of the list and of the templates that were not spliced. -/
namespace ProductTemplates.Expansion

/-- Where the loop stands: the templates spliced so far, the last one first, and the list. -/
structure Stage where
  spliced : List String := []
  entries : List InstanceVariable
deriving Repr

namespace Stage

/-- One pass: the template that comes in the place of the first reference, if one does, and where
the loop stands afterwards. There is none if there is no reference. -/
def pass? (templates : List VariableTemplate) (s : Stage) :
    Option (Option VariableTemplate × Stage) :=
  (firstReference? s.entries).map fun (kept, id, later) =>
    match template? templates s.spliced id with
    | none => (none, { s with entries := kept ++ later })
    | some t =>
      let fresh := t.instanceVariables.filter fun v => !isDeclared (kept ++ later) v
      (some t, ⟨id :: s.spliced, kept ++ (fresh ++ later)⟩)

/-- The references still to go through: those of the list, and those of the templates that may yet
be spliced, of which the first one of each id counts. -/
def ahead (templates : List VariableTemplate) (s : Stage) : Nat :=
  referenceCount s.entries +
    referenceCount ((firsts (·.id) s.spliced templates).flatMap (·.instanceVariables))

end Stage

/-- Passes of the loop one after another, with the templates that came in the places of
references. -/
inductive Passes (templates : List VariableTemplate) :
    Stage → List (Option VariableTemplate) → Stage → Prop where
  | done {s : Stage} : Passes templates s [] s
  | pass {s s' s'' : Stage} {put : Option VariableTemplate}
      {puts : List (Option VariableTemplate)} :
      s.pass? templates = some (put, s') → Passes templates s' puts s'' →
        Passes templates s (put :: puts) s''

def splicedIds (puts : List (Option VariableTemplate)) : List String :=
  puts.filterMap fun put => put.map (·.id)

variable {templates : List VariableTemplate} {spliced : List String} {t : VariableTemplate}
  {s s' : Stage} {put : Option VariableTemplate} {puts : List (Option VariableTemplate)}

/-- All that a pass can do. -/
theorem pass?_cases (h : s.pass? templates = some (put, s')) :
    ∃ kept id later, firstReference? s.entries = some (kept, id, later) ∧
      (template? templates s.spliced id = none ∧ put = none ∧ s' = ⟨s.spliced, kept ++ later⟩ ∨
       ∃ t, template? templates s.spliced id = some t ∧ put = some t ∧
        s' = ⟨id :: s.spliced,
          kept ++ (t.instanceVariables.filter (fun v => !isDeclared (kept ++ later) v) ++ later)⟩) := by
  obtain ⟨⟨kept, id, later⟩, cut, same⟩ := Option.map_eq_some_iff.1 h
  refine ⟨kept, id, later, cut, ?_⟩
  simp only at same
  split at same
  · next unknown =>
    obtain ⟨rfl, rfl⟩ := Prod.mk.inj same
    exact .inl ⟨unknown, rfl, rfl⟩
  · next t known =>
    obtain ⟨rfl, rfl⟩ := Prod.mk.inj same
    exact .inr ⟨t, known, rfl, rfl⟩

theorem expandReferences_eq (templates : List VariableTemplate) (s : Stage) :
    expandReferences templates s.spliced s.entries =
      match s.pass? templates with
      | none => s.entries
      | some (_, s') => expandReferences templates s'.spliced s'.entries := by
  cases step : s.pass? templates with
  | none => exact expandReferences_of_none (Option.map_eq_none_iff.1 step)
  | some next =>
    obtain ⟨put, s'⟩ := next
    obtain ⟨kept, id, later, cut, ⟨unknown, -, rfl⟩ | ⟨t, known, -, rfl⟩⟩ := pass?_cases step
    · rw [expandReferences_of_cut cut, unknown]
    · rw [expandReferences_of_cut cut, known]

/-- A pass splices nothing, or a template whose id was not spliced before. -/
theorem spliced_pass (h : s.pass? templates = some (put, s')) :
    put = none ∧ s'.spliced = s.spliced ∨
    ∃ t, put = some t ∧ t.id ∉ s.spliced ∧ s'.spliced = t.id :: s.spliced := by
  obtain ⟨kept, id, later, -, ⟨-, rfl, rfl⟩ | ⟨t, known, rfl, rfl⟩⟩ := pass?_cases h
  · exact .inl ⟨rfl, rfl⟩
  · obtain ⟨rfl, fresh, -⟩ := template?_eq_some_iff.1 known
    exact .inr ⟨t, rfl, fresh, rfl⟩

/-- What is ahead once a template is spliced is less by the references in it. -/
theorem referenceCount_firsts_spliced (fresh : t.id ∉ spliced)
    (first : templates.find? (·.id == t.id) = some t) :
    referenceCount ((firsts (·.id) spliced templates).flatMap (·.instanceVariables)) =
      referenceCount t.instanceVariables +
        referenceCount ((firsts (·.id) (t.id :: spliced) templates).flatMap (·.instanceVariables)) := by
  have same := (perm_firsts fresh first).flatMap_right (·.instanceVariables)
  rw [referenceCount, same.countP_eq, List.flatMap_cons, List.countP_append]
  rfl

/-- A pass leaves less ahead. -/
theorem ahead_pass (h : s.pass? templates = some (put, s')) :
    s'.ahead templates < s.ahead templates := by
  obtain ⟨kept, id, later, cut, ⟨-, -, rfl⟩ | ⟨t, known, -, rfl⟩⟩ := pass?_cases h
  · exact Nat.add_lt_add_right (referenceCount_of_first cut) _
  · obtain ⟨rfl, fresh, found⟩ := template?_eq_some_iff.1 known
    have fewer := referenceCount_of_first cut
    have added := (List.filter_sublist (l := t.instanceVariables)
      (p := fun v => !isDeclared (kept ++ later) v)).countP_le (p := (·.isReference))
    rw [Stage.ahead, Stage.ahead, referenceCount_firsts_spliced fresh found]
    simp only [referenceCount, List.countP_append] at *
    omega

/-- A run has no more passes than there are references ahead. -/
theorem Passes.length_le (run : Passes templates s puts s') :
    puts.length + s'.ahead templates ≤ s.ahead templates := by
  induction run with
  | done => simp
  | pass step _ ih =>
    have := ahead_pass step
    rw [List.length_cons]
    omega

/-- No id is spliced in a run that was spliced before it or is spliced again in it. -/
theorem Passes.nodup (run : Passes templates s puts s') :
    (∀ id ∈ splicedIds puts, id ∉ s.spliced) ∧ (splicedIds puts).Nodup := by
  induction run with
  | done => simp [splicedIds]
  | pass step _ ih =>
    obtain ⟨rfl, same⟩ | ⟨t, rfl, fresh, grown⟩ := spliced_pass step
    · rw [same] at ih
      exact ih
    · obtain ⟨others, distinct⟩ := ih
      rw [grown] at others
      refine ⟨?_, List.nodup_cons.2 ⟨fun again => others _ again List.mem_cons_self, distinct⟩⟩
      intro id member
      rcases List.mem_cons.1 member with rfl | later
      · exact fresh
      · exact fun old => others id later (List.mem_cons_of_mem _ old)

theorem Passes.expandReferences_eq (run : Passes templates s puts s') :
    expandReferences templates s.spliced s.entries =
      expandReferences templates s'.spliced s'.entries := by
  induction run with
  | done => rfl
  | pass step _ ih =>
    rw [Expansion.expandReferences_eq, step]
    exact ih

theorem exists_passes (templates : List VariableTemplate) (s : Stage) :
    ∃ puts s', Passes templates s puts s' ∧ s'.pass? templates = none := by
  induction size : s.ahead templates using Nat.strongRecOn generalizing s with
  | ind n ih =>
    cases step : s.pass? templates with
    | none => exact ⟨[], s, .done, step⟩
    | some next =>
      obtain ⟨put, s'⟩ := next
      obtain ⟨puts, s'', run, ended⟩ := ih _ (size ▸ ahead_pass step) s' rfl
      exact ⟨put :: puts, s'', .pass step run, ended⟩

/-- The loop takes at most one pass for each reference in the list and in the first template of each
id, and splices no id twice. It ends without a reference and returns the list it ends with, in
which the defaults are set then. -/
theorem expansion_ends (entries : List InstanceVariable) (templates : List VariableTemplate) :
    (∀ puts s, Passes templates { entries } puts s →
      puts.length ≤ referenceCount entries +
        referenceCount ((firsts (·.id) [] templates).flatMap (·.instanceVariables)) ∧
      (splicedIds puts).Nodup) ∧
    ∃ puts s, Passes templates { entries } puts s ∧ s.pass? templates = none ∧
      ∀ ds, expandVariables entries templates ds = ds.foldl applyDefault s.entries ∧
        ∀ v ∈ expandVariables entries templates ds, v.isReference = false := by
  constructor
  · intro puts s run
    exact ⟨Nat.le_trans (Nat.le_add_right _ _) run.length_le, run.nodup.2⟩
  · obtain ⟨puts, s, run, ended⟩ := exists_passes templates { entries }
    refine ⟨puts, s, run, ended, fun ds => ⟨?result, ?plain⟩⟩
    case result => rw [expandVariables, run.expandReferences_eq, expandReferences_eq, ended]
    case plain =>
      intro v member
      rw [InstanceVariable.isReference, expandVariables_plain v member]
      rfl

/-- Two templates that refer to each other, and to themselves, are spliced once each. -/
example : expandVariables [.reference "inner", .reference "outer"]
    [{ id := "outer",
       instanceVariables := [.reference "inner", .declare "a" "1", .reference "outer"] },
      { id := "inner", instanceVariables := [.reference "outer", .declare "b" "2"] }] [] =
    [.declare "a" "1", .declare "b" "2"] := by cbv

end ProductTemplates.Expansion
