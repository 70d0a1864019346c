import ProductTemplates.Expansion
import ProductTemplates.Parameter
import ProductTemplates.Resolution
import ProductTemplates.Text.Order

/-! A product's templates, as loaded and as resolved. Resolving drops what cannot be resolved,
then groups and instance templates that nothing is left of, and sorts by name. -/
namespace ProductTemplates

/-- All descriptors of one product, in the order in which they were found. -/
structure RawTemplates where
  instanceTemplates : List InstanceTemplate := []
  applicationTemplates : Catalogue := []
  parameterTemplates : List ParameterTemplate := []
  variableTemplates : List VariableTemplate := []
deriving Repr, Inhabited

namespace RawTemplates

def isEmpty (raw : RawTemplates) : Bool :=
  raw.instanceTemplates.isEmpty && raw.applicationTemplates.isEmpty &&
    raw.parameterTemplates.isEmpty && raw.variableTemplates.isEmpty

end RawTemplates

structure Bundle where
  instanceTemplates : List InstanceTemplate := []
  applicationTemplates : List ApplicationTemplate := []
  parameterTemplates : List ParameterTemplate := []
deriving Repr, Inhabited

namespace Bundle

/-- The applications of a group that can be resolved; all share one list of free variables. -/
def resolveApplications (catalogue : Catalogue) (maxDepth : Nat) :
    List Application → List TemplateVariable → List Application × List TemplateVariable
  | [], exposed => ([], exposed)
  | a :: rest, exposed =>
    let (outcome, exposed') := catalogue.resolution maxDepth (.application a) exposed .empty
    let (apps, exposed'') := resolveApplications catalogue maxDepth rest exposed'
    match outcome with
    | .ok (some app) => (app :: apps, exposed'')
    | _ => (apps, exposed'')

def resolveGroups (catalogue : Catalogue) (maxDepth : Nat) :
    List Group → List TemplateVariable → List Group × List TemplateVariable
  | [], exposed => ([], exposed)
  | g :: rest, exposed =>
    let (apps, exposed') := resolveApplications catalogue maxDepth g.applications exposed
    let (groups, exposed'') := resolveGroups catalogue maxDepth rest exposed'
    (if apps.isEmpty then groups else { g with applications := apps } :: groups, exposed'')

def resolveInstance (raw : RawTemplates) (maxDepth : Nat) (t : InstanceTemplate) :
    Option InstanceTemplate :=
  let (groups, exposed) :=
    resolveGroups raw.applicationTemplates maxDepth t.groups t.templateVariables
  if groups.isEmpty then none
  else some
    { t with
      templateVariables := exposed
      instanceVariables :=
        expandVariables t.instanceVariables raw.variableTemplates t.variableDefaults
      groups := groups }

def resolveTemplate (raw : RawTemplates) (maxDepth : Nat) (t : ApplicationTemplate) :
    Option ApplicationTemplate :=
  match raw.applicationTemplates.resolution maxDepth (.template t) t.templateVariables .empty with
  | (.ok (some app), exposed) => some ⟨t.id, app, exposed⟩
  | _ => none

def ofRaw (raw : RawTemplates) (maxDepth : Nat) : Bundle :=
  { instanceTemplates :=
      Text.sortOn (·.name) (raw.instanceTemplates.filterMap (resolveInstance raw maxDepth))
    applicationTemplates :=
      Text.sortOn (·.displayName) (raw.applicationTemplates.filterMap (resolveTemplate raw maxDepth))
    parameterTemplates := raw.parameterTemplates }

end Bundle
end ProductTemplates
