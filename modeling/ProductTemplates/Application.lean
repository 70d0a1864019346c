import ProductTemplates.Dictionary
import ProductTemplates.Value

/-! Applications and the templates they are based on. An application names what to start, or a
template to inherit from; `inherit` fills its gaps from an ancestor and drops the reference. -/
namespace ProductTemplates

/-- A value the user is asked for. Within one template the id is unique by convention only. -/
structure TemplateVariable where
  id : String
  name : Option String := none
  description : Option String := none
  defaultValue : Option String := none
  suggestedValues : List String := []
deriving Repr, DecidableEq, Inhabited

/-- A variable that is no longer asked for because its value is settled. -/
structure FixedVariable where
  id : String
  value : String
deriving Repr, DecidableEq, Inhabited

/-- A parameter of the process to start. Without a value it is merely set. -/
structure StartParameter where
  id : String
  value : Option String := none
deriving Repr, DecidableEq, Inhabited

structure Application where
  /-- What to start. -/
  application : Option String := none
  /-- The id of the application template to inherit from. -/
  template : Option String := none
  name : Option String := none
  description : Option String := none
  preferredControlGroup : Option String := none
  /-- Settings of the process, passed through as they are. -/
  processControl : Dictionary Value := .empty
  startParameters : List StartParameter := []
  fixedVariables : List FixedVariable := []
deriving Repr, Inhabited

namespace Application

def forApplication (application : String) : Application :=
  { application := some application }

def fromTemplate (template : String) : Application :=
  { template := some template }

def startParameter? (a : Application) (id : String) : Option StartParameter :=
  a.startParameters.find? (·.id == id)

/-- Whether nothing is left to inherit and it is known what to start. -/
def isResolved (a : Application) : Bool :=
  a.template.isNone && a.application.isSome

/-- Appends those parameters of `theirs` whose id is not there yet, one after another. -/
def joinParameters (ours theirs : List StartParameter) : List StartParameter :=
  theirs.foldl (fun ps p => if ps.any (·.id == p.id) then ps else ps ++ [p]) ours

/-- Every gap of `a` filled from `ancestor`; what `a` says itself wins. -/
def inherit (a ancestor : Application) : Application :=
  { application := a.application <|> ancestor.application
    template := none
    name := a.name <|> ancestor.name
    description := a.description <|> ancestor.description
    preferredControlGroup := a.preferredControlGroup <|> ancestor.preferredControlGroup
    processControl := a.processControl.fill ancestor.processControl
    startParameters := joinParameters a.startParameters ancestor.startParameters
    fixedVariables := a.fixedVariables }

end Application

structure ApplicationTemplate where
  id : String
  app : Application := {}
  templateVariables : List TemplateVariable := []
deriving Repr, Inhabited

namespace ApplicationTemplate

def displayName (t : ApplicationTemplate) : String := t.app.name.getD t.id

end ApplicationTemplate
end ProductTemplates
