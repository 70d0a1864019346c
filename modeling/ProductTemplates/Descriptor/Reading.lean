import ProductTemplates.Bundle
import ProductTemplates.Document.Reading

/-! How descriptors are read from a document. A template's own application is settled before it is
read, so there its texts must be texts; an application in a group takes the text of any scalar. -/
namespace ProductTemplates

open Document

def TemplateVariable.fields : List (RecordField TemplateVariable) := [
  (RecordField.of "id" Node.string fun x v => { v with id := x }).needed.orNamed "uid",
  .of "name" (Node.optional Node.string) fun x v => { v with name := x },
  .of "description" (Node.optional Node.string) fun x v => { v with description := x },
  .of "defaultValue" Node.scalarText fun x v => { v with defaultValue := x },
  .of "suggestedValues" (Node.list Node.string) fun x v => { v with suggestedValues := x }]

def TemplateVariable.read : Reader TemplateVariable := RecordField.record fields { id := "" }

def FixedVariable.fields : List (RecordField FixedVariable) := [
  (RecordField.of "id" Node.string fun x v => { v with id := x }).needed,
  (RecordField.of "value" Node.requiredText fun x v => { v with value := x }).needed]

def FixedVariable.read : Reader FixedVariable := RecordField.record fields ⟨"", ""⟩

def StartParameter.fields : List (RecordField StartParameter) := [
  (RecordField.of "id" Node.string fun x p => { p with id := x }).needed.orNamed "uid",
  .of "value" Node.scalarText fun x p => { p with value := x }]

def StartParameter.read : Reader StartParameter := RecordField.record fields { id := "" }

def Application.fields : List (RecordField Application) := [
  .of "application" (Node.optional Node.string) fun x a => { a with application := x },
  .of "template" (Node.optional Node.string) fun x a => { a with template := x },
  .of "name" (Node.optional Node.string) fun x a => { a with name := x },
  .of "description" (Node.optional Node.string) fun x a => { a with description := x },
  .of "preferredProcessControlGroup" (Node.optional Node.string)
    fun x a => { a with preferredControlGroup := x },
  .of "processControl" Node.dictionary fun x a => { a with processControl := x },
  .of "startParameters" (Node.list StartParameter.read) fun x a => { a with startParameters := x },
  .of "fixedVariables" (Node.list FixedVariable.read) fun x a => { a with fixedVariables := x }]

def Application.read : Reader Application := RecordField.record fields {}

namespace ApplicationTemplate

def fields : List (RecordField ApplicationTemplate) := [
  (RecordField.of "id" Node.string fun x t => { t with id := x }).needed,
  .of "templateVariables" (Node.list TemplateVariable.read)
    fun x t => { t with templateVariables := x }]

def read : Reader ApplicationTemplate := fun n => do
  let (t, others) ← RecordField.partly fields { id := "" } n
  let p ← RecordField.readSettled Application.fields others ⟨[], {}⟩
  return { t with app := p.record }

end ApplicationTemplate

namespace NodeKind

/-- The kind of that name, if what comes with the name may come with it. -/
def named (text : String) (fitting : Bool) : Except ReadError NodeKind :=
  match ofText? text with
  | none => .error (.unknownVariant text)
  | some kind => if fitting then .ok kind else .error .malformed

/-- A kind is a text, or a tag or the only key of an object beside a null. -/
def read : Reader NodeKind := fun n =>
  match n with
  | .scalar (.atom (.string s)) => named s true
  | .scalar (.written text plain tag) =>
    match tag.bind localTag? with
    | some t => named t (plain && (text == "" || Plain.isNull text))
    | none => named text true
  | .sequence shape _ _ =>
    match shape.localTag? with
    | some t => named t false
    | none => .error .malformed
  | .mapping shape entries complete =>
    match shape, entries with
    | .typed, (.scalar (.atom (.string s)), v) :: rest =>
      let null := match v with
        | .scalar (.atom .null) => true
        | _ => false
      named s (null && rest.isEmpty && complete)
    | _, _ =>
      match shape.localTag? with
      | some t => named t false
      | none => .error .malformed
  | _ => .error .malformed

end NodeKind

def Group.fields : List (RecordField Group) := [
  (RecordField.of "name" Node.string fun x g => { g with name := x }).needed,
  .of "description" (Node.optional Node.string) fun x g => { g with description := x },
  .of "type" NodeKind.read fun x g => { g with kind := x },
  .of "applications" (Node.list Application.read) fun x g => { g with applications := x }]

def Group.read : Reader Group := RecordField.record fields { name := "" }

def InstanceVariable.fields : List (RecordField InstanceVariable) := [
  .of "id" (Node.optional Node.string) fun x v => { v with id := x },
  .of "template" (Node.optional Node.string) fun x v => { v with template := x },
  .of "value" Node.scalarText fun x v => { v with value := x },
  .of "description" (Node.optional Node.string) fun x v => { v with description := x },
  .of "type" (Node.optional Node.string) fun x v => { v with type := x }]

def InstanceVariable.read : Reader InstanceVariable := RecordField.record fields {}

def VariableDefault.fields : List (RecordField VariableDefault) := [
  (RecordField.of "id" Node.string fun x v => { v with id := x }).needed,
  .of "value" Node.scalarText fun x v => { v with value := x }]

def VariableDefault.read : Reader VariableDefault := RecordField.record fields { id := "" }

def VariableTemplate.fields : List (RecordField VariableTemplate) := [
  (RecordField.of "id" Node.string fun x t => { t with id := x }).needed,
  .of "instanceVariables" (Node.list InstanceVariable.read)
    fun x t => { t with instanceVariables := x }]

def VariableTemplate.read : Reader VariableTemplate := RecordField.record fields { id := "" }

def InstanceTemplate.fields : List (RecordField InstanceTemplate) := [
  (RecordField.of "name" Node.string fun x t => { t with name := x }).needed,
  .of "description" (Node.optional Node.string) fun x t => { t with description := x },
  .of "templateVariables" (Node.list TemplateVariable.read)
    fun x t => { t with templateVariables := x },
  .of "instanceVariables" (Node.list InstanceVariable.read)
    fun x t => { t with instanceVariables := x },
  .of "instanceVariableDefaults" (Node.list VariableDefault.read)
    fun x t => { t with variableDefaults := x },
  .of "groups" (Node.list Group.read) fun x t => { t with groups := x }]

def InstanceTemplate.read : Reader InstanceTemplate := RecordField.record fields { name := "" }

namespace ParameterDefinition

def fields : List (RecordField ParameterDefinition) := [
  (RecordField.of "id" Node.string fun x p => { p with id := x }).needed,
  .of "name" (Node.optional Node.string) fun x p => { p with name := x },
  .of "defaultValue" Node.scalarText fun x p => { p with defaultValue := x }]

def read : Reader ParameterDefinition := fun n => do
  let (p, others) ← RecordField.partly fields { id := "" } n
  let attributes ← others.mapM fun (key, v) => do return (key, ← v.value)
  return { p with attributes := .ofList attributes }

end ParameterDefinition

def ParameterTemplate.fields : List (RecordField ParameterTemplate) := [
  (RecordField.of "id" Node.string fun x t => { t with id := x }).needed,
  .of "name" (Node.optional Node.string) fun x t => { t with name := x },
  .of "description" (Node.optional Node.string) fun x t => { t with description := x },
  .of "parameters" (Node.list ParameterDefinition.read) fun x t => { t with parameters := x }]

def ParameterTemplate.read : Reader ParameterTemplate := RecordField.record fields { id := "" }

/-- All three lists must be there. -/
def Bundle.fields : List (RecordField Bundle) := [
  (RecordField.of "instanceTemplates" (Node.list InstanceTemplate.read)
    fun x b => { b with instanceTemplates := x }).needed,
  (RecordField.of "applicationTemplates" (Node.list ApplicationTemplate.read)
    fun x b => { b with applicationTemplates := x }).needed,
  (RecordField.of "parameterTemplates" (Node.list ParameterTemplate.read)
    fun x b => { b with parameterTemplates := x }).needed]

def Bundle.read : Reader Bundle := RecordField.record fields {}

end ProductTemplates
