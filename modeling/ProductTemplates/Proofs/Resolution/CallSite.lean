import ProductTemplates.Proofs.Resolution.Surfacing

/-! Values that a caller passes in, and values that a node fixes itself. The two are kept apart where
the variables of the chain surface, but nothing that the caller fixes arrives there: the template
above has left it out. -/
namespace ProductTemplates

open Catalogue

def Application.fixing (values : List FixedVariable) (a : Application) : Application :=
  { a with fixedVariables := values ++ a.fixedVariables }

/-- The node with more values that it fixes, before its own. -/
def Resolvable.fixing (values : List FixedVariable) : Resolvable → Resolvable
  | application a => application (a.fixing values)
  | template t => template { t with app := t.app.fixing values }

namespace Resolution

variable {c : Catalogue} {maxDepth : Nat} {t : ApplicationTemplate} {a : Application}
  {exposed surfaced after : List TemplateVariable} {inherited : OverrideSet} {v : TemplateVariable}

section Unmoved

variable (node : Resolvable) (values : List FixedVariable)

theorem body_fixing : (node.fixing values).body = node.body.fixing values := by cases node <;> rfl

theorem parent?_fixing : c.parent? (node.fixing values) = c.parent? node := by cases node <;> rfl

theorem verdict?_fixing (met : List String) :
    c.verdict? maxDepth met (node.fixing values) = c.verdict? maxDepth met node := by
  cases node <;> rfl

theorem visit_fixing (met : List String) : visit met (node.fixing values) = visit met node := by
  cases node <;> rfl

theorem withdraw_fixing (fixed : OverrideSet) (exposed : List TemplateVariable) :
    withdraw (node.fixing values) fixed exposed = withdraw node fixed exposed := by
  cases node <;> rfl

end Unmoved

/-- A node that fixes them itself fixes what it does if its caller fixes them. -/
theorem merge_fixing (inherited : OverrideSet) (a : Application) :
    OverrideSet.empty.merge (a.fixing inherited.entries).fixedVariables =
      inherited.merge a.fixedVariables := by
  rw [Application.fixing, OverrideSet.merge_append, OverrideSet.merge_empty_entries]

theorem Resolves.unfixed (h : Resolves c (.template t) exposed inherited a after)
    (member : v ∈ after) : inherited.contains v.id = false := by
  have withdrawn : (inherited.merge t.app.fixedVariables).contains v.id = false := by
    cases h <;> simpa using (List.mem_filter.1 member).2
  exact OverrideSet.not_contains_of_merge withdrawn

theorem surface_of_unfixed (unfixed : ∀ v ∈ surfaced, inherited.contains v.id = false) :
    surface exposed surfaced inherited = surface exposed surfaced .empty := by
  rw [surface_eq, surface_eq, List.filter_eq_self.2, List.filter_eq_self.2]
  · exact fun v _ => rfl
  · intro v member
    rw [unfixed v member, Bool.not_false]

theorem conclude_fixing (node : Resolvable) (exposed : List TemplateVariable)
    (inherited : OverrideSet) (ending : Ending) :
    conclude (node.fixing inherited.entries) exposed .empty ending =
      ((conclude node exposed inherited ending).1.map (Option.map (.fixing inherited.entries)),
        (conclude node exposed inherited ending).2) := by
  cases ending with
  | refused e => rfl
  | dangling => rfl
  | complete =>
    rw [conclude, body_fixing, merge_fixing, withdraw_fixing]
    rfl

/-- A level below one that lets nothing fixed surface hands on alike. -/
theorem passOn_fixing (node : Resolvable) (exposed : List TemplateVariable) (inherited : OverrideSet)
    (result : Outcome × List TemplateVariable)
    (unfixed : ∀ above, result.1 = .ok (some above) →
      ∀ v ∈ result.2, inherited.contains v.id = false) :
    passOn (node.fixing inherited.entries) exposed .empty result =
      ((passOn node exposed inherited result).1.map (Option.map (.fixing inherited.entries)),
        (passOn node exposed inherited result).2) := by
  rcases result with ⟨_ | _ | above, surfaced⟩
  · rfl
  · rfl
  · rw [passOn, body_fixing, merge_fixing, withdraw_fixing,
      ← surface_of_unfixed (unfixed above rfl)]
    rfl

/-- Passing values in is fixing them at the node, before its own. What becomes of it is the same, an
application with those values before the ones it fixes otherwise, and so is what the caller sees. -/
theorem resolution_fixing (c : Catalogue) (maxDepth : Nat) (node : Resolvable)
    (exposed : List TemplateVariable) (inherited : OverrideSet) :
    c.resolution maxDepth (node.fixing inherited.entries) exposed .empty =
      ((c.resolution maxDepth node exposed inherited).1.map
          (Option.map (.fixing inherited.entries)),
        (c.resolution maxDepth node exposed inherited).2) := by
  unfold resolution
  cases verdict : c.verdict? maxDepth [] node with
  | some ending =>
    have verdict' := (verdict?_fixing node inherited.entries []).trans verdict
    rw [resolveNode_of_verdict verdict, resolveNode_of_verdict verdict', conclude_fixing]
  | none =>
    obtain ⟨-, -, parent, up⟩ := verdict?_eq_none_iff.1 verdict
    have verdict' := (verdict?_fixing node inherited.entries []).trans verdict
    have up' := (parent?_fixing node inherited.entries).trans up
    rw [resolveNode_of_goesOn verdict up, resolveNode_of_goesOn verdict' up', visit_fixing,
      body_fixing, merge_fixing]
    apply passOn_fixing
    intro above came v member
    have unfixed := (resolves_of_resolveNode _ _ _ _ (Prod.ext came rfl)).unfixed member
    exact OverrideSet.not_contains_of_merge unfixed

end Resolution
end ProductTemplates
