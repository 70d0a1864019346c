import ProductTemplates.Dictionary
import ProductTemplates.Value

/-! Parameter templates: definitions of parameters that are handed on as they were loaded. -/
namespace ProductTemplates

/-- What the library does not know of a parameter is kept among its attributes. -/
structure ParameterDefinition where
  id : String
  name : Option String := none
  defaultValue : Option String := none
  attributes : Dictionary Value := .empty
deriving Repr, Inhabited

structure ParameterTemplate where
  id : String
  name : Option String := none
  description : Option String := none
  parameters : List ParameterDefinition := []
deriving Repr, Inhabited

end ProductTemplates
