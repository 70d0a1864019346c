import ProductTemplates.Application

/-! Instance templates: groups of applications, the variables asked for, and the variables that
the instance itself gets, which may come from reusable variable templates. -/
namespace ProductTemplates

inductive NodeKind where
  | server
  | client
deriving Repr, DecidableEq, Inhabited

namespace NodeKind

def text : NodeKind → String
  | server => "SERVER"
  | client => "CLIENT"

def ofText? : String → Option NodeKind
  | "SERVER" => some server
  | "CLIENT" => some client
  | _ => none

end NodeKind

structure Group where
  name : String
  description : Option String := none
  kind : NodeKind := .server
  applications : List Application := []
deriving Repr, Inhabited

/-- A variable of the instance, or a reference to a variable template in its place. -/
structure InstanceVariable where
  id : Option String := none
  template : Option String := none
  value : Option String := none
  description : Option String := none
  type : Option String := none
deriving Repr, DecidableEq, Inhabited

namespace InstanceVariable

def declare (id value : String) : InstanceVariable :=
  { id := some id, value := some value }

def reference (template : String) : InstanceVariable :=
  { template := some template }

def isReference (v : InstanceVariable) : Bool := v.template.isSome

end InstanceVariable

/-- A value for the variable of that id, or none to take its value away. -/
structure VariableDefault where
  id : String
  value : Option String := none
deriving Repr, DecidableEq, Inhabited

structure VariableTemplate where
  id : String
  instanceVariables : List InstanceVariable := []
deriving Repr, DecidableEq, Inhabited

structure InstanceTemplate where
  name : String
  description : Option String := none
  templateVariables : List TemplateVariable := []
  instanceVariables : List InstanceVariable := []
  variableDefaults : List VariableDefault := []
  groups : List Group := []
deriving Repr, Inhabited

namespace InstanceTemplate

def group? (t : InstanceTemplate) (name : String) : Option Group :=
  t.groups.find? (·.name == name)

def templateVariable? (t : InstanceTemplate) (id : String) : Option TemplateVariable :=
  t.templateVariables.find? (·.id == id)

end InstanceTemplate
end ProductTemplates
