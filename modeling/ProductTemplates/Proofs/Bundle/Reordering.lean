import ProductTemplates.Proofs.Bundle.Repetition

/-! The order in which the descriptors of a product are found. Where no id stands twice it does not
matter to any look-up, so that the same is resolved; where no name stands twice either, it does not
matter to the bundle. -/
namespace ProductTemplates

open Catalogue Resolution

/-- A product with the same descriptors, found in another order. -/
structure RawTemplates.IsReordered (raw other : RawTemplates) : Prop where
  instanceTemplates : other.instanceTemplates.Perm raw.instanceTemplates
  applicationTemplates : other.applicationTemplates.Perm raw.applicationTemplates
  variableTemplates : other.variableTemplates.Perm raw.variableTemplates
  parameterTemplates : other.parameterTemplates = raw.parameterTemplates

/-- A product in which every look-up by an id gives the same. -/
structure RawTemplates.LooksUpAlike (raw other : RawTemplates) : Prop where
  templates : ∀ id, other.applicationTemplates.find? id = raw.applicationTemplates.find? id
  variableTemplates : ∀ id,
    other.variableTemplates.find? (·.id == id) = raw.variableTemplates.find? (·.id == id)

theorem RawTemplates.IsReordered.looksUpAlike {raw other : RawTemplates}
    (reordered : raw.IsReordered other)
    (distinct : (raw.applicationTemplates.map (·.id)).Nodup)
    (distinct' : (raw.variableTemplates.map (·.id)).Nodup) : raw.LooksUpAlike other where
  templates id := (find?_eq_of_perm reordered.applicationTemplates.symm distinct id).symm
  variableTemplates id := (find?_eq_of_perm reordered.variableTemplates.symm distinct' id).symm

namespace Bundle

variable {c d : Catalogue} {raw other : RawTemplates} {maxDepth : Nat}

theorem resolveApplications_congr (same : ∀ id, d.find? id = c.find? id) (apps : List Application)
    (exposed : List TemplateVariable) :
    resolveApplications d maxDepth apps exposed = resolveApplications c maxDepth apps exposed := by
  induction apps generalizing exposed with
  | nil => rfl
  | cons a rest ih =>
    rw [resolveApplications, resolveApplications, resolution, resolution,
      resolveNode_eq_of_looksUp fun id _ => same id]
    simp only [ih]

theorem resolveGroups_congr (same : ∀ id, d.find? id = c.find? id) (groups : List Group)
    (exposed : List TemplateVariable) :
    resolveGroups d maxDepth groups exposed = resolveGroups c maxDepth groups exposed := by
  induction groups generalizing exposed with
  | nil => rfl
  | cons g rest ih =>
    rw [resolveGroups, resolveGroups, resolveApplications_congr same]
    simp only [ih]

theorem resolveInstance_congr (alike : raw.LooksUpAlike other) (t : InstanceTemplate) :
    resolveInstance other maxDepth t = resolveInstance raw maxDepth t := by
  have expanded : expandVariables t.instanceVariables other.variableTemplates t.variableDefaults =
      expandVariables t.instanceVariables raw.variableTemplates t.variableDefaults := by
    rw [expandVariables, expandVariables, Expansion.expandReferences_congr alike.variableTemplates]
  rw [resolveInstance, resolveInstance, resolveGroups_congr alike.templates, expanded]

theorem resolveTemplate_congr (alike : raw.LooksUpAlike other) (t : ApplicationTemplate) :
    resolveTemplate other maxDepth t = resolveTemplate raw maxDepth t := by
  rw [resolveTemplate, resolveTemplate, resolution, resolution,
    resolveNode_eq_of_looksUp fun id _ => alike.templates id]

theorem instances_perm (reordered : raw.IsReordered other) (alike : raw.LooksUpAlike other) :
    (other.instanceTemplates.filterMap (resolveInstance other maxDepth)).Perm
      (raw.instanceTemplates.filterMap (resolveInstance raw maxDepth)) := by
  rw [funext (resolveInstance_congr alike)]
  exact reordered.instanceTemplates.filterMap _

theorem templates_perm (reordered : raw.IsReordered other) (alike : raw.LooksUpAlike other) :
    (other.applicationTemplates.filterMap (resolveTemplate other maxDepth)).Perm
      (raw.applicationTemplates.filterMap (resolveTemplate raw maxDepth)) := by
  rw [funext (resolveTemplate_congr alike)]
  exact reordered.applicationTemplates.filterMap _

/-- Names are not made, so that distinct ones stay so. -/
theorem names_ofRaw (distinct : (raw.instanceTemplates.map (·.name)).Nodup) :
    ((ofRaw raw maxDepth).instanceTemplates.map (·.name)).Nodup := by
  have kept (ts : List InstanceTemplate) :
      ((ts.filterMap (resolveInstance raw maxDepth)).map (·.name)).Sublist (ts.map (·.name)) := by
    induction ts with
    | nil => exact .slnil
    | cons t rest ih =>
      rw [List.filterMap_cons]
      split
      · exact ih.cons _
      · next left came =>
        have name : left.name = t.name := by
          obtain ⟨-, rfl⟩ := resolveInstance_eq_some_iff.1 came
          rfl
        rw [List.map_cons, List.map_cons, name]
        exact ih.cons_cons _
  exact Text.nodup_sortOn ((kept raw.instanceTemplates).nodup distinct)

/-- The order in which descriptors are found does not matter to what is resolved from them, and only
matters to the order of what has the same name. -/
theorem ofRaw_reordered (reordered : raw.IsReordered other)
    (distinct : (raw.applicationTemplates.map (·.id)).Nodup)
    (distinct' : (raw.variableTemplates.map (·.id)).Nodup) (maxDepth : Nat) :
    (ofRaw other maxDepth).instanceTemplates.Perm (ofRaw raw maxDepth).instanceTemplates ∧
    (ofRaw other maxDepth).applicationTemplates.Perm (ofRaw raw maxDepth).applicationTemplates ∧
    (ofRaw other maxDepth).parameterTemplates = (ofRaw raw maxDepth).parameterTemplates ∧
    ((raw.instanceTemplates.map (·.name)).Nodup →
      ((ofRaw raw maxDepth).instanceTemplates.map (·.name)).Nodup) ∧
    (((ofRaw raw maxDepth).instanceTemplates.map (·.name)).Nodup →
      ((ofRaw raw maxDepth).applicationTemplates.map (·.displayName)).Nodup →
        ofRaw other maxDepth = ofRaw raw maxDepth) := by
  have alike := reordered.looksUpAlike distinct distinct'
  have instances : (ofRaw other maxDepth).instanceTemplates.Perm (ofRaw raw maxDepth).instanceTemplates :=
    Text.perm_sortOn (instances_perm reordered alike)
  have templates :
      (ofRaw other maxDepth).applicationTemplates.Perm (ofRaw raw maxDepth).applicationTemplates :=
    Text.perm_sortOn (templates_perm reordered alike)
  have parameters : (ofRaw other maxDepth).parameterTemplates = (ofRaw raw maxDepth).parameterTemplates :=
    reordered.parameterTemplates
  refine ⟨instances, templates, parameters, names_ofRaw, fun names displayNames => ?_⟩
  have sameInstances := Text.eq_of_perm_of_pairwise (Text.pairwise_sortOn _ _)
    (Text.pairwise_sortOn _ _) instances.symm names
  have sameTemplates := Text.eq_of_perm_of_pairwise (Text.pairwise_sortOn _ _)
    (Text.pairwise_sortOn _ _) templates.symm displayNames
  rw [ofRaw, ofRaw, Bundle.mk.injEq]
  exact ⟨sameInstances.symm, sameTemplates.symm, parameters⟩

/-- Two sites, a template that inherits from another, and two variable templates with one id in common. -/
def sites : RawTemplates where
  instanceTemplates := [
    { name := "Hall", groups := [{ name := "main", applications := [.fromTemplate "client"] }] },
    { name := "Attic"
      instanceVariables := [.reference "net", .reference "log"]
      groups := [{ name := "main", applications := [.fromTemplate "server"] }] }]
  applicationTemplates := [
    { id := "client", app := { template := some "server", name := some "Viewer" } },
    { id := "server", app := .forApplication "serverd" }]
  variableTemplates := [
    { id := "net", instanceVariables := [.declare "port" "80"] },
    { id := "log", instanceVariables := [.declare "port" "81", .declare "level" "info"] }]

def sitesReversed : RawTemplates where
  instanceTemplates := sites.instanceTemplates.reverse
  applicationTemplates := sites.applicationTemplates.reverse
  variableTemplates := sites.variableTemplates.reverse

theorem ofRaw_reordered_sites : sites.IsReordered sitesReversed ∧
    (sites.applicationTemplates.map (·.id)).Nodup ∧ (sites.variableTemplates.map (·.id)).Nodup ∧
    (sites.instanceTemplates.map (·.name)).Nodup ∧
    (ofRaw sites 64).applicationTemplates.map (·.displayName) = ["Viewer", "server"] ∧
    ofRaw sitesReversed 64 = ofRaw sites 64 := by
  have reordered : sites.IsReordered sitesReversed :=
    ⟨List.reverse_perm _, List.reverse_perm _, List.reverse_perm _, rfl⟩
  have distinct : (sites.applicationTemplates.map (·.id)).Nodup := by decide
  have distinct' : (sites.variableTemplates.map (·.id)).Nodup := by decide
  have names : (sites.instanceTemplates.map (·.name)).Nodup := by decide
  have sorted : (sites.applicationTemplates.filterMap (resolveTemplate sites 64)).Pairwise
      fun a b => a.displayName ≤ b.displayName := by decide +kernel
  have shown : (ofRaw sites 64).applicationTemplates.map (·.displayName) = ["Viewer", "server"] := by
    rw [ofRaw, Text.sortOn_of_pairwise sorted]
    decide +kernel
  obtain ⟨-, -, -, kept, same⟩ := ofRaw_reordered reordered distinct distinct' 64
  refine ⟨reordered, distinct, distinct', names, shown, same (kept names) ?_⟩
  rw [shown]
  decide

end Bundle
end ProductTemplates
