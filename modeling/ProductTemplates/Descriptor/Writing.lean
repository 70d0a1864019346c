import ProductTemplates.Bundle

/-! How descriptors are written: as records of their fields in a fixed order. Absent texts and
most empty lists are left out. -/
namespace ProductTemplates

namespace Value

def textField (name : String) (x : Option String) : List (String × Value) :=
  x.toList.map fun s => (name, .string s)

def listField {α : Type} (name : String) (write : α → Value) (xs : List α) :
    List (String × Value) :=
  if xs.isEmpty then [] else [(name, .sequence (xs.map write))]

def ofDictionary (d : Dictionary Value) : Value := record d.entries

end Value

open Value

def TemplateVariable.toValue (v : TemplateVariable) : Value :=
  record ([("id", .string v.id)] ++ textField "name" v.name ++
    textField "description" v.description ++ textField "defaultValue" v.defaultValue ++
    listField "suggestedValues" .string v.suggestedValues)

def FixedVariable.toValue (v : FixedVariable) : Value :=
  record [("id", .string v.id), ("value", .string v.value)]

def StartParameter.toValue (p : StartParameter) : Value :=
  record ([("id", .string p.id)] ++ textField "value" p.value)

def Application.writtenFields (a : Application) : List (String × Value) :=
  textField "application" a.application ++ textField "template" a.template ++
    textField "name" a.name ++ textField "description" a.description ++
    textField "preferredProcessControlGroup" a.preferredControlGroup ++
    (if a.processControl.isEmpty then [] else [("processControl", ofDictionary a.processControl)]) ++
    listField "startParameters" StartParameter.toValue a.startParameters ++
    listField "fixedVariables" FixedVariable.toValue a.fixedVariables

def Application.toValue (a : Application) : Value := record a.writtenFields

/-- The fields of the application stand among those of its template. -/
def ApplicationTemplate.toValue (t : ApplicationTemplate) : Value :=
  record ([("id", .string t.id)] ++ t.app.writtenFields ++
    listField "templateVariables" TemplateVariable.toValue t.templateVariables)

def Group.toValue (g : Group) : Value :=
  record ([("name", .string g.name)] ++ textField "description" g.description ++
    [("type", .string g.kind.text), ("applications", .sequence (g.applications.map (·.toValue)))])

def InstanceVariable.toValue (v : InstanceVariable) : Value :=
  record (textField "id" v.id ++ textField "template" v.template ++ textField "value" v.value ++
    textField "description" v.description ++ textField "type" v.type)

def VariableDefault.toValue (d : VariableDefault) : Value :=
  record ([("id", .string d.id)] ++ textField "value" d.value)

def VariableTemplate.toValue (t : VariableTemplate) : Value :=
  record [("id", .string t.id),
    ("instanceVariables", .sequence (t.instanceVariables.map (·.toValue)))]

def InstanceTemplate.toValue (t : InstanceTemplate) : Value :=
  record ([("name", .string t.name)] ++ textField "description" t.description ++
    listField "templateVariables" TemplateVariable.toValue t.templateVariables ++
    listField "instanceVariables" InstanceVariable.toValue t.instanceVariables ++
    listField "instanceVariableDefaults" VariableDefault.toValue t.variableDefaults ++
    [("groups", .sequence (t.groups.map (·.toValue)))])

/-- Attributes follow the fields that the library knows. -/
def ParameterDefinition.toValue (p : ParameterDefinition) : Value :=
  record ([("id", .string p.id)] ++ textField "name" p.name ++
    textField "defaultValue" p.defaultValue ++ p.attributes.entries)

def ParameterTemplate.toValue (t : ParameterTemplate) : Value :=
  record ([("id", .string t.id)] ++ textField "name" t.name ++
    textField "description" t.description ++
    [("parameters", .sequence (t.parameters.map (·.toValue)))])

def Bundle.toValue (b : Bundle) : Value :=
  record [("instanceTemplates", .sequence (b.instanceTemplates.map (·.toValue))),
    ("applicationTemplates", .sequence (b.applicationTemplates.map (·.toValue))),
    ("parameterTemplates", .sequence (b.parameterTemplates.map (·.toValue)))]

end ProductTemplates
