/-! The tokens of YAML. Indentation has become explicit: blocks open and end, and keys and values
are marked. -/
namespace ProductTemplates.Yaml

inductive Token where
  | streamStart
  | streamEnd
  | version (major minor : Nat)
  | tagHandle (handle start : String)
  | documentStart
  | documentEnd
  | openBlockSequence
  | openBlockMapping
  | endBlock
  | openFlowSequence
  | closeFlowSequence
  | openFlowMapping
  | closeFlowMapping
  | item
  | comma
  | key
  | value
  | reference (name : String)
  | anchor (name : String)
  | tag (handle rest : String)
  | scalar (text : String) (plain : Bool)
deriving Repr, DecidableEq, Inhabited

end ProductTemplates.Yaml
