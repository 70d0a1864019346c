import ProductTemplates.Proofs.Bundle.FlatCatalogue
import ProductTemplates.Proofs.Bundle.Repetition
import ProductTemplates.Proofs.Descriptor.Carrying
import ProductTemplates.Proofs.Dictionary

/-! What holds of all opaque values of the raw templates holds of all those of the bundle: resolving
an application only brings in values of the templates it inherits from. -/
namespace ProductTemplates

open Resolution

variable {P : Value → Prop} {c : Catalogue} {raw : RawTemplates} {maxDepth : Nat} {a : Application}
  {node : Resolvable} {exposed after : List TemplateVariable} {inherited : OverrideSet}

theorem Application.Carries.inherit {above : Application} (own : a.Carries P)
    (their : above.Carries P) : (a.inherit above).Carries P :=
  Dictionary.forall_mem_fill own their

theorem Resolution.Resolves.carries (h : Resolves c node exposed inherited a after)
    (own : node.body.Carries P) (catalogue : ∀ t ∈ c, t.app.Carries P) : a.Carries P := by
  induction h with
  | root => exact own
  | @step node parent _ _ above _ up _ ih =>
    have known : parent ∈ c := List.mem_of_find?_eq_some (Catalogue.template_of_parent? up).2
    exact Application.Carries.inherit own (ih (catalogue parent known))

namespace Bundle

theorem ofRaw_carries (carries : raw.Carries P) (maxDepth : Nat) : (ofRaw raw maxDepth).Carries P where
  instances := by
    intro t member
    obtain ⟨listed, there, outcome⟩ := mem_instanceTemplates_ofRaw.1 member
    obtain ⟨-, rfl⟩ := resolveInstance_eq_some_iff.1 outcome
    intro g held a inGroup
    obtain ⟨-, group, inGroups, each⟩ := mem_resolveGroups held
    obtain ⟨own, inList, before, after, came⟩ := each a inGroup
    have known : own.Carries P := carries.instances listed there group inGroups own inList
    exact (resolves_of_resolveNode _ _ _ _ came).carries known carries.applications
  applications := by
    intro t member
    obtain ⟨entry, there, outcome⟩ := mem_flatCatalogue.1 member
    obtain ⟨-, came⟩ := resolveTemplate_eq_some outcome
    exact (resolves_of_resolveNode _ _ _ _ came).carries (carries.applications entry there)
      carries.applications
  parameters := carries.parameters

end Bundle
end ProductTemplates
