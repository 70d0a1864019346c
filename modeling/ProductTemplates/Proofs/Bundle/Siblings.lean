import ProductTemplates.Proofs.Resolution.Completion
import ProductTemplates.Proofs.Resolution.Surfacing
import ProductTemplates.Bundle

/-! The applications of one instance template. They share one list of free variables, but each is
resolved as it is on its own, and the list only grows by what each of them asks for on its own. -/
namespace ProductTemplates

open Catalogue Resolution

namespace Catalogue

/-- What an application is resolved to on its own, by a caller that lists no variables and fixes
none, with the variables that surface then. -/
def alone (c : Catalogue) (maxDepth : Nat) (a : Application) : Option Resolved :=
  (c.resolve maxDepth (.application a) [] .empty).toOption.join

/-- The variables that surface from an application on its own. -/
def asked (c : Catalogue) (maxDepth : Nat) (a : Application) : List TemplateVariable :=
  ((c.alone maxDepth a).map (·.exposed)).getD []

end Catalogue

namespace Group

def assembled (g : Group) (c : Catalogue) (maxDepth : Nat) : Option Group :=
  let left := g.applications.filterMap fun a => (c.alone maxDepth a).map (·.app)
  if left.isEmpty then none else some { g with applications := left }

end Group

namespace InstanceTemplate

def applications (t : InstanceTemplate) : List Application := t.groups.flatMap (·.applications)

/-- What the applications ask for on their own, the first entry of each id that the template does
not list itself. -/
def surfaced (t : InstanceTemplate) (c : Catalogue) (maxDepth : Nat) : List TemplateVariable :=
  firsts (·.id) (t.templateVariables.map (·.id)) (t.applications.flatMap (c.asked maxDepth))

/-- The template put together from its applications, each resolved on its own. -/
def assembled (t : InstanceTemplate) (raw : RawTemplates) (maxDepth : Nat) : Option InstanceTemplate :=
  let left := t.groups.filterMap (·.assembled raw.applicationTemplates maxDepth)
  if left.isEmpty then none
  else some
    { t with
      templateVariables := t.templateVariables ++ t.surfaced raw.applicationTemplates maxDepth
      instanceVariables :=
        expandVariables t.instanceVariables raw.variableTemplates t.variableDefaults
      groups := left }

end InstanceTemplate

namespace Bundle

variable {c : Catalogue} {raw : RawTemplates} {maxDepth : Nat} {a : Application}
  {exposed : List TemplateVariable}

/-- The list of the caller grows by what is new of what surfaces for a caller without one. -/
theorem exposed_resolution (a : Application) (exposed : List TemplateVariable) :
    (c.resolution maxDepth (.application a) exposed .empty).2 = exposed ++
      firsts (·.id) (exposed.map (·.id)) (c.resolution maxDepth (.application a) [] .empty).2 := by
  have same : (c.resolution maxDepth (.application a) exposed .empty).1 =
      (c.resolution maxDepth (.application a) [] .empty).1 := resolveNode_outcome exposed []
  have unchanged (exposed : List TemplateVariable) := @resolution_unchanged c maxDepth
    (.application a) exposed .empty
  rcases alone : c.resolution maxDepth (.application a) [] .empty with ⟨_ | _ | app, after⟩
  case ok.some =>
    rcases shared : c.resolution maxDepth (.application a) exposed .empty with ⟨outcome, after'⟩
    obtain rfl : outcome = .ok (some app) := by simpa [alone, shared] using same
    obtain ⟨above, lineage, rfl⟩ := (resolves_of_resolveNode [] _ [] .empty alone).after_eq
    obtain ⟨above', lineage', rfl⟩ := (resolves_of_resolveNode [] _ exposed .empty shared).after_eq
    obtain rfl := lineage.unique lineage'
    simp [withdraw, surfacing, firsts_firsts]
  all_goals
    have nothing : after = [] := (congrArg Prod.snd alone).symm.trans (unchanged [] (by simp [alone]))
    rw [unchanged exposed (by simp [same, alone]), nothing, firsts_nil, List.append_nil]

theorem alone_eq (a : Application) :
    (c.alone maxDepth a).map (·.app) =
        (c.resolution maxDepth (.application a) [] .empty).1.toOption.join ∧
      c.asked maxDepth a = (c.resolution maxDepth (.application a) [] .empty).2 := by
  have unchanged := @resolution_unchanged c maxDepth (.application a) [] .empty
  rw [asked, alone, resolve]
  rcases outcome : c.resolution maxDepth (.application a) [] .empty with ⟨_ | _ | app, after⟩
  case ok.some => exact ⟨rfl, rfl⟩
  all_goals
    have nothing : after = [] := (congrArg Prod.snd outcome).symm.trans (unchanged (by simp [outcome]))
    exact ⟨rfl, nothing.symm⟩

theorem resolveApplications_eq (apps : List Application) (exposed : List TemplateVariable) :
    resolveApplications c maxDepth apps exposed =
      (apps.filterMap fun a => (c.alone maxDepth a).map (·.app),
        exposed ++ firsts (·.id) (exposed.map (·.id)) (apps.flatMap (c.asked maxDepth))) := by
  induction apps generalizing exposed with
  | nil => simp [resolveApplications]
  | cons a rest ih =>
    obtain ⟨app, asked⟩ := @alone_eq c maxDepth a
    have outcome : (c.resolution maxDepth (.application a) exposed .empty).1 =
        (c.resolution maxDepth (.application a) [] .empty).1 := resolveNode_outcome exposed []
    rw [resolveApplications, List.filterMap_cons, List.flatMap_cons, app, ← append_firsts_append,
      asked, ← exposed_resolution]
    simp only [ih, ← outcome]
    rcases c.resolution maxDepth (.application a) exposed .empty with ⟨_ | _ | app, after⟩ <;> rfl

theorem resolveGroups_eq (groups : List Group) (exposed : List TemplateVariable) :
    resolveGroups c maxDepth groups exposed =
      (groups.filterMap (·.assembled c maxDepth),
        exposed ++ firsts (·.id) (exposed.map (·.id))
          ((groups.flatMap (·.applications)).flatMap (c.asked maxDepth))) := by
  induction groups generalizing exposed with
  | nil => simp [resolveGroups]
  | cons g rest ih =>
    rw [resolveGroups]
    simp only [resolveApplications_eq, ih, append_firsts_append, List.flatMap_cons,
      List.flatMap_append, List.filterMap_cons, Group.assembled]
    split <;> rfl

theorem resolveInstance_eq_assembled (t : InstanceTemplate) :
    resolveInstance raw maxDepth t = t.assembled raw maxDepth := by
  rw [resolveInstance, resolveGroups_eq]
  rfl

theorem surfaced_iff (c : Catalogue) (maxDepth : Nat) (t : InstanceTemplate) (id : String) :
    (∃ v ∈ t.surfaced c maxDepth, v.id = id) ↔ id ∉ t.templateVariables.map (·.id) ∧
      ∃ a ∈ t.applications, ∃ v ∈ c.asked maxDepth a, v.id = id := by
  rw [InstanceTemplate.surfaced, key_mem_firsts_iff]
  refine and_congr_right fun _ => ⟨?_, ?_⟩
  · rintro ⟨v, asked, same⟩
    obtain ⟨a, member, asks⟩ := List.mem_flatMap.1 asked
    exact ⟨a, member, v, asks, same⟩
  · rintro ⟨a, member, v, asks, same⟩
    exact ⟨v, List.mem_flatMap.2 ⟨a, member, asks⟩, same⟩

/-- The applications of an instance template do not affect one another. Each is resolved as it is on
its own, and the variables are those of the template, followed by the first entry of each other id
that an application asks for on its own. So no application changes with what comes before or after
it, and the order of the applications does not change which ids surface. -/
theorem ofRaw_siblings (raw : RawTemplates) (maxDepth : Nat) :
    (ofRaw raw maxDepth).instanceTemplates =
      Text.sortOn (·.name) (raw.instanceTemplates.filterMap (·.assembled raw maxDepth)) ∧
    (∀ t : InstanceTemplate,
      ((t.surfaced raw.applicationTemplates maxDepth).map (·.id)).Nodup ∧
      (∀ id, (∃ v ∈ t.surfaced raw.applicationTemplates maxDepth, v.id = id) ↔
        id ∉ t.templateVariables.map (·.id) ∧
          ∃ a ∈ t.applications, ∃ v ∈ raw.applicationTemplates.asked maxDepth a, v.id = id) ∧
      (t.surfaced raw.applicationTemplates maxDepth).Sublist
        (t.applications.flatMap (raw.applicationTemplates.asked maxDepth)) ∧
      ∀ v ∈ t.surfaced raw.applicationTemplates maxDepth,
        (t.applications.flatMap (raw.applicationTemplates.asked maxDepth)).find? (·.id == v.id) =
          some v) ∧
    (∀ before a after exposed,
      (resolveApplications raw.applicationTemplates maxDepth (before ++ a :: after) exposed).1 =
        (resolveApplications raw.applicationTemplates maxDepth before []).1 ++
          ((raw.applicationTemplates.alone maxDepth a).map (·.app)).toList ++
            (resolveApplications raw.applicationTemplates maxDepth after []).1) ∧
    (∀ before g after exposed,
      (resolveGroups raw.applicationTemplates maxDepth (before ++ g :: after) exposed).1 =
        (resolveGroups raw.applicationTemplates maxDepth before []).1 ++
          (g.assembled raw.applicationTemplates maxDepth).toList ++
            (resolveGroups raw.applicationTemplates maxDepth after []).1) ∧
    ∀ t u : InstanceTemplate, u.templateVariables = t.templateVariables →
      u.applications.Perm t.applications → ∀ id,
        (∃ v ∈ u.surfaced raw.applicationTemplates maxDepth, v.id = id) ↔
          ∃ v ∈ t.surfaced raw.applicationTemplates maxDepth, v.id = id := by
  refine ⟨?assembled, fun t => ⟨nodup_firsts, surfaced_iff _ _ t, firsts_sublist, ?first⟩, ?inGroup,
    ?inTemplate, ?reordered⟩
  case assembled => rw [ofRaw, funext resolveInstance_eq_assembled]
  case first => exact fun v member => (mem_firsts.1 member).2
  case inGroup =>
    intro before a after exposed
    simp only [resolveApplications_eq, List.filterMap_append, List.filterMap_cons]
    cases raw.applicationTemplates.alone maxDepth a <;> simp
  case inTemplate =>
    intro before g after exposed
    simp only [resolveGroups_eq, List.filterMap_append, List.filterMap_cons]
    cases g.assembled raw.applicationTemplates maxDepth <;> simp
  case reordered =>
    intro t u own perm id
    rw [surfaced_iff, surfaced_iff, own]
    simp only [perm.mem_iff]

end Bundle
end ProductTemplates
