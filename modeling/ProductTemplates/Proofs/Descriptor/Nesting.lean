import ProductTemplates.Descriptor.Reading
import ProductTemplates.Proofs.Document.Nesting

/-! What is read of a descriptor in which deep collections were refused is read of the whole one. -/
namespace ProductTemplates

open Document Node RecordField

@[simp] theorem TemplateVariable.steady : Steady TemplateVariable.read :=
  steady_record (by simp [fields]) _

@[simp] theorem FixedVariable.steady : Steady FixedVariable.read :=
  steady_record (by simp [fields]) _

@[simp] theorem StartParameter.steady : Steady StartParameter.read :=
  steady_record (by simp [fields]) _

@[simp] theorem Application.steady : Steady Application.read :=
  steady_record (by simp [fields]) _

@[simp] theorem ApplicationTemplate.steady : Steady ApplicationTemplate.read :=
  steady_bind (steady_partly (by simp [fields]) _) _

/-- A kind is told from the first key, from whether a null stands beside it, and from whether
another key follows; refusing deep collections changes none of that. -/
theorem NodeKind.read_entriesWithin {room : Nat} {shape : Shape} {entries : List (Node × Node)}
    {complete : Bool} : NodeKind.read (.mapping shape (entriesWithin room entries) complete) =
      NodeKind.read (.mapping shape entries complete) := by
  cases shape with
  | written => cases entries <;> rfl
  | typed =>
    match entries with
    | [] => rfl
    | (.refused, v) :: rest | (.malformed, v) :: rest => rfl
    | (.sequence .., v) :: rest | (.mapping .., v) :: rest =>
      rw [entriesWithin, within]
      split <;> rfl
    | (.scalar (.written ..), v) :: rest => rfl
    | (.scalar (.atom a), v) :: rest =>
      cases a with
      | null | bool | number => rfl
      | string text =>
        cases v with
        | scalar | refused | malformed => cases rest <;> rfl
        | sequence | mapping =>
          rw [entriesWithin, within]
          cases rest <;> split <;> rfl

@[simp] theorem NodeKind.steady : Steady NodeKind.read := by
  intro room n kind read
  cases n with
  | scalar | refused | malformed => exact read
  | sequence =>
    rw [within] at read
    split at read
    · contradiction
    · exact read
  | mapping shape entries complete =>
    rw [within] at read
    split at read
    · contradiction
    · rwa [NodeKind.read_entriesWithin] at read

@[simp] theorem Group.steady : Steady Group.read := steady_record (by simp [fields]) _

@[simp] theorem InstanceVariable.steady : Steady InstanceVariable.read :=
  steady_record (by simp [fields]) _

@[simp] theorem VariableDefault.steady : Steady VariableDefault.read :=
  steady_record (by simp [fields]) _

@[simp] theorem InstanceTemplate.steady : Steady InstanceTemplate.read :=
  steady_record (by simp [fields]) _

@[simp] theorem ParameterDefinition.steady : Steady ParameterDefinition.read :=
  steady_bind (steady_partly (by simp [fields]) _) _

@[simp] theorem ParameterTemplate.steady : Steady ParameterTemplate.read :=
  steady_record (by simp [fields]) _

@[simp] theorem Bundle.steady : Steady Bundle.read := steady_record (by simp [fields]) _

end ProductTemplates
