import ProductTemplates.Descriptor.Reading

/-! The opaque values that descriptors carry along: below `processControl` and among the attributes
of parameters. -/
namespace ProductTemplates

open Document

section Carries

variable (P : Value → Prop)

/-- Whether something holds of all values that an application carries along. -/
def Application.Carries (a : Application) : Prop := ∀ e ∈ a.processControl.entries, P e.2

def Group.Carries (g : Group) : Prop := ∀ a ∈ g.applications, a.Carries P

def InstanceTemplate.Carries (t : InstanceTemplate) : Prop := ∀ g ∈ t.groups, g.Carries P

def ParameterDefinition.Carries (p : ParameterDefinition) : Prop := ∀ e ∈ p.attributes.entries, P e.2

def ParameterTemplate.Carries (t : ParameterTemplate) : Prop := ∀ p ∈ t.parameters, p.Carries P

structure RawTemplates.Carries (raw : RawTemplates) : Prop where
  instances : ∀ t ∈ raw.instanceTemplates, t.Carries P
  applications : ∀ t ∈ raw.applicationTemplates, t.app.Carries P
  parameters : ∀ t ∈ raw.parameterTemplates, t.Carries P

structure Bundle.Carries (b : Bundle) : Prop where
  instances : ∀ t ∈ b.instanceTemplates, t.Carries P
  applications : ∀ t ∈ b.applicationTemplates, t.app.Carries P
  parameters : ∀ t ∈ b.parameterTemplates, t.Carries P

end Carries

theorem RawTemplates.Carries.and {P Q R : Value → Prop} {raw : RawTemplates} (h : raw.Carries P)
    (h' : raw.Carries Q) (both : ∀ v, P v → Q v → R v) : raw.Carries R where
  instances t member g inside a held e entry :=
    both _ (h.instances t member g inside a held e entry) (h'.instances t member g inside a held e entry)
  applications t member e entry :=
    both _ (h.applications t member e entry) (h'.applications t member e entry)
  parameters t member p inside e entry :=
    both _ (h.parameters t member p inside e entry) (h'.parameters t member p inside e entry)

theorem Bundle.Carries.imp {P Q : Value → Prop} {b : Bundle} (h : b.Carries P)
    (weaker : ∀ v, P v → Q v) : b.Carries Q where
  instances t member g inside a held e entry := weaker _ (h.instances t member g inside a held e entry)
  applications t member e entry := weaker _ (h.applications t member e entry)
  parameters t member p inside e entry := weaker _ (h.parameters t member p inside e entry)

/-- Whether no attribute has the name of a field. -/
def ParameterDefinition.IsParted (p : ParameterDefinition) : Prop :=
  ∀ e ∈ p.attributes.entries, RecordField.find? fields e.1 = none

def ParameterTemplate.IsParted (t : ParameterTemplate) : Prop := ∀ p ∈ t.parameters, p.IsParted

end ProductTemplates
