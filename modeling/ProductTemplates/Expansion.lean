import ProductTemplates.Instance

/-! Instance variables: references to variable templates are replaced by the entries of the
template, each template once, and then values are set by the defaults. -/
namespace ProductTemplates.Expansion

/-- Cuts a list at its first reference: the entries before it, the template's id, the rest. -/
def firstReference? : List InstanceVariable →
    Option (List InstanceVariable × String × List InstanceVariable)
  | [] => none
  | v :: rest =>
    match v.template with
    | some id => some ([], id, rest)
    | none => (firstReference? rest).map fun (kept, id, later) => (v :: kept, id, later)

def referenceCount (vs : List InstanceVariable) : Nat := vs.countP (·.isReference)

theorem referenceCount_of_first {vs kept later : List InstanceVariable} {id : String}
    (h : firstReference? vs = some (kept, id, later)) :
    referenceCount (kept ++ later) < referenceCount vs := by
  induction vs generalizing kept with
  | nil => simp [firstReference?] at h
  | cons v rest ih =>
    simp only [firstReference?] at h
    split at h
    · next reference =>
      simp only [Option.some.injEq, Prod.mk.injEq] at h
      obtain ⟨rfl, -, rfl⟩ := h
      simp [referenceCount, InstanceVariable.isReference, reference]
    · next plain =>
      obtain ⟨⟨k, i, l⟩, found, same⟩ := Option.map_eq_some_iff.1 h
      simp only [Prod.mk.injEq] at same
      obtain ⟨rfl, rfl, rfl⟩ := same
      have := ih found
      simp only [referenceCount, List.cons_append, List.countP_cons] at this ⊢
      simp only [InstanceVariable.isReference, plain] at this ⊢
      simpa using this

def template? (templates : List VariableTemplate) (spliced : List String) (id : String) :
    Option VariableTemplate :=
  if spliced.contains id then none else templates.find? (·.id == id)

def unspliced (templates : List VariableTemplate) (spliced : List String) : Nat :=
  templates.countP fun t => !spliced.contains t.id

theorem unspliced_lt {templates : List VariableTemplate} {spliced : List String} {id : String}
    {t : VariableTemplate} (h : template? templates spliced id = some t) :
    unspliced templates (id :: spliced) < unspliced templates spliced := by
  unfold template? at h
  split at h
  · simp at h
  · next fresh =>
    have member := List.mem_of_find?_eq_some h
    have same : t.id = id := by simpa using List.find?_some h
    clear h
    have mono (ts : List VariableTemplate) : unspliced ts (id :: spliced) ≤ unspliced ts spliced := by
      apply List.countP_mono_left
      intro d _ h
      simp only [List.contains_cons, Bool.not_or, Bool.and_eq_true] at h
      exact h.2
    induction templates with
    | nil => simp at member
    | cons d rest ih =>
      have le := mono rest
      unfold unspliced at le ih ⊢
      rw [List.countP_cons, List.countP_cons]
      rcases List.mem_cons.1 member with rfl | member
      · have now : (!spliced.contains t.id) = true := by simpa [same] using fresh
        have gone : ¬(!(id :: spliced).contains t.id) = true := by simp [same]
        rw [if_pos now, if_neg gone]; omega
      · have := ih member
        by_cases h : (!(id :: spliced).contains d.id) = true
        · have : (!spliced.contains d.id) = true := by
            simp only [List.contains_cons, Bool.not_or, Bool.and_eq_true] at h
            exact h.2
          rw [if_pos h, if_pos this]; omega
        · rw [if_neg h]; omega

def isDeclared (entries : List InstanceVariable) (candidate : InstanceVariable) : Bool :=
  candidate.id.any fun id => entries.any (·.id == some id)

/-- Replaces the first reference until none is left. Entries of a template never come beside an
entry of their id; a reference to no template, or to one used before, just goes. -/
def expandReferences (templates : List VariableTemplate) (spliced : List String)
    (entries : List InstanceVariable) : List InstanceVariable :=
  match _cut : firstReference? entries with
  | none => entries
  | some (kept, id, later) =>
    match _found : template? templates spliced id with
    | none => expandReferences templates spliced (kept ++ later)
    | some t =>
      let fresh := t.instanceVariables.filter fun v => !isDeclared (kept ++ later) v
      expandReferences templates (id :: spliced) (kept ++ (fresh ++ later))
termination_by (unspliced templates spliced, referenceCount entries)
decreasing_by
  · exact Prod.Lex.right _ (referenceCount_of_first _cut)
  · exact Prod.Lex.left _ _ (unspliced_lt _found)

/-- Sets the value of the first variable with the default's id. -/
def applyDefault (entries : List InstanceVariable) (d : VariableDefault) :
    List InstanceVariable :=
  match entries with
  | [] => []
  | v :: rest =>
    if v.id == some d.id then { v with value := d.value } :: rest else v :: applyDefault rest d

end Expansion

/-- The variables that an instance gets: references replaced, then defaults applied in turn. -/
def expandVariables (entries : List InstanceVariable) (templates : List VariableTemplate)
    (defaults : List VariableDefault) : List InstanceVariable :=
  defaults.foldl Expansion.applyDefault (Expansion.expandReferences templates [] entries)

end ProductTemplates
