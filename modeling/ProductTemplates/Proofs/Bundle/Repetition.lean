import ProductTemplates.Proofs.Bundle.FlatCatalogue
import ProductTemplates.Proofs.Expansion

/-! A bundle resolved once more. Nothing is dropped, added or asked for anew: an application only has
the values that it fixes itself filled in again, which changes nothing in tidy texts. -/
namespace ProductTemplates

open Catalogue Resolution

def Application.refill (a : Application) : Application :=
  a.fillIn (OverrideSet.empty.merge a.fixedVariables)

def ApplicationTemplate.refill (t : ApplicationTemplate) : ApplicationTemplate :=
  { t with app := t.app.refill }

def Group.refill (g : Group) : Group := { g with applications := g.applications.map (·.refill) }

def InstanceTemplate.refill (t : InstanceTemplate) : InstanceTemplate :=
  { t with groups := t.groups.map (·.refill) }

namespace RawTemplates

def applications (raw : RawTemplates) : List Application :=
  raw.instanceTemplates.flatMap (fun t => t.groups.flatMap (·.applications)) ++
    raw.applicationTemplates.map (·.app)

end RawTemplates

namespace Bundle

variable {c : Catalogue} {raw : RawTemplates} {maxDepth : Nat} {apps : List Application}
  {groups : List Group} {exposed after : List TemplateVariable} {a own : Application} {g : Group}
  {t t' : InstanceTemplate} {entry flat : ApplicationTemplate}

/-- The bundle as a product, to be resolved again. -/
def toRaw (b : Bundle) (variableTemplates : List VariableTemplate) : RawTemplates :=
  { instanceTemplates := b.instanceTemplates
    applicationTemplates := b.applicationTemplates
    parameterTemplates := b.parameterTemplates
    variableTemplates := variableTemplates }

/-- What a product is resolved to in two rounds. -/
def ofRawTwice (raw : RawTemplates) (maxDepth : Nat) : Bundle :=
  ofRaw ((ofRaw raw maxDepth).toRaw raw.variableTemplates) maxDepth

theorem mem_resolveApplications (h : a ∈ (resolveApplications c maxDepth apps exposed).1) :
    ∃ own ∈ apps, ∃ before after,
      c.resolution maxDepth (.application own) before .empty = (.ok (some a), after) := by
  induction apps generalizing exposed with
  | nil => simp [resolveApplications] at h
  | cons own rest ih =>
    rw [resolveApplications] at h
    rcases outcome : c.resolution maxDepth (.application own) exposed .empty with
      ⟨_ | _ | app, surfaced⟩ <;> simp only [outcome] at h
    case ok.some =>
      rcases List.mem_cons.1 h with rfl | later
      · exact ⟨own, List.mem_cons_self, exposed, surfaced, outcome⟩
      · obtain ⟨other, member, came⟩ := ih later
        exact ⟨other, List.mem_cons_of_mem _ member, came⟩
    all_goals
      obtain ⟨other, member, came⟩ := ih h
      exact ⟨other, List.mem_cons_of_mem _ member, came⟩

/-- A group that is left holds something, all of which came about from what it had. -/
theorem mem_resolveGroups (h : g ∈ (resolveGroups c maxDepth groups exposed).1) :
    g.applications ≠ [] ∧ ∃ listed ∈ groups, ∀ a ∈ g.applications, ∃ own ∈ listed.applications,
      ∃ before after,
        c.resolution maxDepth (.application own) before .empty = (.ok (some a), after) := by
  induction groups generalizing exposed with
  | nil => simp [resolveGroups] at h
  | cons first rest ih =>
    simp only [resolveGroups] at h
    split at h
    · obtain ⟨nonempty, listed, member, came⟩ := ih h
      exact ⟨nonempty, listed, List.mem_cons_of_mem _ member, came⟩
    · next nonempty =>
      rcases List.mem_cons.1 h with rfl | later
      · refine ⟨by simpa using nonempty, first, List.mem_cons_self, ?_⟩
        intro a member
        exact mem_resolveApplications member
      · obtain ⟨nonempty, listed, member, came⟩ := ih later
        exact ⟨nonempty, listed, List.mem_cons_of_mem _ member, came⟩

theorem mem_instanceTemplates_ofRaw : t' ∈ (ofRaw raw maxDepth).instanceTemplates ↔
    ∃ t ∈ raw.instanceTemplates, resolveInstance raw maxDepth t = some t' := by
  rw [ofRaw, Text.mem_sortOn, List.mem_filterMap]

theorem resolveInstance_eq_some_iff : resolveInstance raw maxDepth t = some t' ↔
    (resolveGroups raw.applicationTemplates maxDepth t.groups t.templateVariables).1 ≠ [] ∧
      t' = { t with
        templateVariables :=
          (resolveGroups raw.applicationTemplates maxDepth t.groups t.templateVariables).2
        instanceVariables :=
          expandVariables t.instanceVariables raw.variableTemplates t.variableDefaults
        groups := (resolveGroups raw.applicationTemplates maxDepth t.groups t.templateVariables).1 } := by
  simp only [resolveInstance]
  split
  · next empty => simp [List.isEmpty_iff.1 empty]
  · next nonempty =>
    rw [Option.some.injEq, eq_comm]
    simp [List.isEmpty_iff.not.1 nonempty]

theorem resolution_of_isResolved (resolved : a.isResolved = true) (exposed : List TemplateVariable) :
    c.resolution maxDepth (.application a) exposed .empty = (.ok (some a.refill), exposed) := by
  have ready : (Resolvable.application a).body.isResolved = true := resolved
  exact resolveNode_of_isResolved ready (by simp) (by simp [visit])

theorem resolveApplications_again (resolved : ∀ a ∈ apps, a.isResolved = true)
    (exposed : List TemplateVariable) :
    resolveApplications c maxDepth apps exposed = (apps.map (·.refill), exposed) := by
  induction apps with
  | nil => rfl
  | cons a rest ih =>
    rw [List.forall_mem_cons] at resolved
    rw [resolveApplications, resolution_of_isResolved resolved.1]
    simp only [ih resolved.2, List.map_cons]

theorem resolveGroups_again
    (resolved : ∀ g ∈ groups, g.applications ≠ [] ∧ ∀ a ∈ g.applications, a.isResolved = true)
    (exposed : List TemplateVariable) :
    resolveGroups c maxDepth groups exposed = (groups.map (·.refill), exposed) := by
  induction groups with
  | nil => rfl
  | cons g rest ih =>
    rw [List.forall_mem_cons] at resolved
    have kept : (g.applications.map (·.refill)).isEmpty = false := by
      simpa using resolved.1.1
    rw [resolveGroups, resolveApplications_again resolved.1.2]
    simp only [ih resolved.2, kept]
    rfl

theorem isResolved_of_resolution {node : Resolvable}
    (h : c.resolution maxDepth node exposed .empty = (.ok (some a), after)) :
    a.isResolved = true := by
  obtain ⟨_, _, _, resolved⟩ := came_about h
  exact resolved

theorem resolveInstance_again (catalogue : Catalogue) (parameters : List ParameterTemplate)
    (instances : List InstanceTemplate) (h : resolveInstance raw maxDepth t = some t') :
    resolveInstance ⟨instances, catalogue, parameters, raw.variableTemplates⟩ maxDepth t' =
      some t'.refill := by
  obtain ⟨nonempty, rfl⟩ := resolveInstance_eq_some_iff.1 h
  have again := fun exposed => @resolveGroups_again catalogue maxDepth
    (resolveGroups raw.applicationTemplates maxDepth t.groups t.templateVariables).1
    (fun g member => by
      obtain ⟨nonempty, _, _, came⟩ := mem_resolveGroups member
      refine ⟨nonempty, fun a inside => ?_⟩
      obtain ⟨_, _, _, _, outcome⟩ := came a inside
      exact isResolved_of_resolution outcome) exposed
  refine resolveInstance_eq_some_iff.2 ?_
  simp only [again, expandVariables_expandVariables]
  exact ⟨by simpa using nonempty, rfl⟩

theorem resolveTemplate_again (again : RawTemplates)
    (h : resolveTemplate raw maxDepth entry = some flat) :
    resolveTemplate again maxDepth flat = some flat.refill := by
  obtain ⟨-, outcome⟩ := resolveTemplate_eq_some h
  obtain ⟨above, completes, came, resolved⟩ := came_about outcome
  have ready : (Resolvable.template flat).body.isResolved = true := resolved
  have free : withdraw (.template flat) (OverrideSet.empty.merge flat.app.fixedVariables)
      flat.templateVariables = flat.templateVariables := by
    have less := came.after_filter (p := fun _ => false) came (fun _ => by simp)
    rw [came.fixedVariables_eq]
    exact less.symm
  have whole : again.applicationTemplates.resolution maxDepth (.template flat) flat.templateVariables
      .empty = (.ok (some flat.app.refill), flat.templateVariables) := by
    rw [resolution, resolveNode_of_isResolved ready (by simp) completes.shallow]
    exact congrArg _ free
  rw [resolveTemplate, whole]
  rfl

theorem instanceTemplates_ofRawTwice (raw : RawTemplates) (maxDepth : Nat) :
    (ofRawTwice raw maxDepth).instanceTemplates =
      (ofRaw raw maxDepth).instanceTemplates.map (·.refill) := by
  have each : (ofRaw raw maxDepth).instanceTemplates.filterMap
      (resolveInstance ((ofRaw raw maxDepth).toRaw raw.variableTemplates) maxDepth) =
        (ofRaw raw maxDepth).instanceTemplates.map (·.refill) := by
    rw [← List.filterMap_eq_map]
    apply List.filterMap_congr
    intro t' member
    obtain ⟨t, -, resolved⟩ := mem_instanceTemplates_ofRaw.1 member
    exact resolveInstance_again _ _ _ resolved
  have sorted : ((ofRaw raw maxDepth).instanceTemplates.map (·.refill)).Pairwise
      fun s t => s.name ≤ t.name := List.pairwise_map.2 (Text.pairwise_sortOn _ _)
  rw [← Text.sortOn_of_pairwise sorted, ← each]
  rfl

theorem applicationTemplates_ofRawTwice (raw : RawTemplates) (maxDepth : Nat) :
    (ofRawTwice raw maxDepth).applicationTemplates =
      Text.sortOn (·.displayName) ((ofRaw raw maxDepth).applicationTemplates.map (·.refill)) := by
  have each : (ofRaw raw maxDepth).applicationTemplates.filterMap
      (resolveTemplate ((ofRaw raw maxDepth).toRaw raw.variableTemplates) maxDepth) =
        (ofRaw raw maxDepth).applicationTemplates.map (·.refill) := by
    rw [← List.filterMap_eq_map]
    apply List.filterMap_congr
    intro flat member
    obtain ⟨entry, -, resolved⟩ := mem_flatCatalogue.1 member
    exact resolveTemplate_again _ resolved
  rw [← each]
  rfl

/-- In tidy texts there is nothing left to fill in. -/
theorem refill_of_resolution {node : Resolvable}
    (h : c.resolution maxDepth node exposed .empty = (.ok (some a), after))
    (here : node.body.IsTidy ∧ node.body.FixesPlainly)
    (there : ∀ t ∈ c, t.app.IsTidy ∧ t.app.FixesPlainly) : a.refill = a := by
  obtain ⟨above, completes, came, -⟩ := came_about h
  have lineage := completes.lineage
  have levels : ∀ level ∈ node.body :: above.map (·.app), level.IsTidy ∧ level.FixesPlainly := by
    rw [List.forall_mem_cons]
    refine ⟨here, fun level member => ?_⟩
    obtain ⟨t, onWay, rfl⟩ := List.mem_map.1 member
    exact there t (mem_of_lineage lineage onWay)
  exact came.fillIn_self lineage (fun level member => (levels level member).1)
    fun level member => (levels level member).2

theorem refill_resolveInstance (h : resolveInstance raw maxDepth t = some t')
    (listed : t ∈ raw.instanceTemplates)
    (texts : ∀ a ∈ raw.applications, a.IsTidy ∧ a.FixesPlainly) : t'.refill = t' := by
  obtain ⟨-, rfl⟩ := resolveInstance_eq_some_iff.1 h
  rw [InstanceTemplate.refill, InstanceTemplate.mk.injEq]
  refine ⟨rfl, rfl, rfl, rfl, rfl, ?_⟩
  refine (List.map_congr_left fun g member => ?_).trans (List.map_id' _)
  obtain ⟨-, group, inside, came⟩ := mem_resolveGroups member
  have same : g.applications.map (·.refill) = g.applications := by
    refine (List.map_congr_left fun a within => ?_).trans (List.map_id' _)
    obtain ⟨own, written, before, after, outcome⟩ := came a within
    have here : own ∈ raw.applications :=
      List.mem_append_left _ (List.mem_flatMap.2 ⟨t, listed, List.mem_flatMap.2 ⟨group, inside, written⟩⟩)
    exact refill_of_resolution outcome (texts own here) fun entry there =>
      texts entry.app (List.mem_append_right _ (List.mem_map_of_mem there))
  rw [Group.refill, same]

theorem refill_resolveTemplate (h : resolveTemplate raw maxDepth entry = some flat)
    (listed : entry ∈ raw.applicationTemplates)
    (texts : ∀ a ∈ raw.applications, a.IsTidy ∧ a.FixesPlainly) : flat.refill = flat := by
  have inCatalogue (other : ApplicationTemplate) (there : other ∈ raw.applicationTemplates) :=
    texts other.app (List.mem_append_right _ (List.mem_map_of_mem there))
  obtain ⟨-, outcome⟩ := resolveTemplate_eq_some h
  have same : flat.app.refill = flat.app :=
    refill_of_resolution outcome (inCatalogue entry listed) inCatalogue
  rw [ApplicationTemplate.refill, same]

theorem ofRawTwice_of_tidy (texts : ∀ a ∈ raw.applications, a.IsTidy ∧ a.FixesPlainly) :
    ofRawTwice raw maxDepth = ofRaw raw maxDepth := by
  have instances : (ofRawTwice raw maxDepth).instanceTemplates =
      (ofRaw raw maxDepth).instanceTemplates := by
    rw [instanceTemplates_ofRawTwice]
    refine (List.map_congr_left fun t' member => ?_).trans (List.map_id' _)
    obtain ⟨t, listed, resolved⟩ := mem_instanceTemplates_ofRaw.1 member
    exact refill_resolveInstance resolved listed texts
  have catalogue : (ofRawTwice raw maxDepth).applicationTemplates =
      (ofRaw raw maxDepth).applicationTemplates := by
    have same : (ofRaw raw maxDepth).applicationTemplates.map (·.refill) =
        (ofRaw raw maxDepth).applicationTemplates := by
      refine (List.map_congr_left fun flat member => ?_).trans (List.map_id' _)
      obtain ⟨entry, listed, resolved⟩ := mem_flatCatalogue.1 member
      exact refill_resolveTemplate resolved listed texts
    rw [applicationTemplates_ofRawTwice, same]
    exact Text.sortOn_of_pairwise (Text.pairwise_sortOn _ _)
  calc ofRawTwice raw maxDepth
    _ = ⟨(ofRawTwice raw maxDepth).instanceTemplates, (ofRawTwice raw maxDepth).applicationTemplates,
          raw.parameterTemplates⟩ := rfl
    _ = ofRaw raw maxDepth := by rw [instances, catalogue]; rfl

/-- A second round keeps every instance template and every entry of the catalogue and only fills each
application's own values in once more, which changes nothing at all in tidy texts. -/
theorem ofRawTwice_eq (raw : RawTemplates) (maxDepth : Nat) :
    (ofRawTwice raw maxDepth).instanceTemplates =
      (ofRaw raw maxDepth).instanceTemplates.map (·.refill) ∧
    (ofRawTwice raw maxDepth).applicationTemplates =
      Text.sortOn (·.displayName) ((ofRaw raw maxDepth).applicationTemplates.map (·.refill)) ∧
    (ofRawTwice raw maxDepth).parameterTemplates = (ofRaw raw maxDepth).parameterTemplates ∧
    ((∀ a ∈ raw.applications, a.IsTidy ∧ a.FixesPlainly) →
      ofRawTwice raw maxDepth = ofRaw raw maxDepth) := by
  refine ⟨instanceTemplates_ofRawTwice raw maxDepth, applicationTemplates_ofRawTwice raw maxDepth,
    rfl, fun texts => ?_⟩
  exact ofRawTwice_of_tidy texts

def sited : RawTemplates :=
  { layered with
    instanceTemplates := [
      { name := "site"
        instanceVariables := [.reference "common", .declare "zone" "here"]
        variableDefaults := [{ id := "region", value := some "north" }]
        groups := [
          { name := "main"
            applications := [{ template := some "server", name := some "Site ${log}" }] }] }]
    variableTemplates := [
      { id := "common", instanceVariables := [.declare "region" "south", .reference "common"] }] }

theorem ofRawTwice_sited :
    (∀ a ∈ sited.applications, a.IsTidy ∧ a.FixesPlainly) ∧
    ((ofRaw sited 64).instanceTemplates.map (·.instanceVariables) =
      [[.declare "region" "north", .declare "zone" "here"]]) ∧
    ofRawTwice sited 64 = ofRaw sited 64 := by
  have texts : ∀ a ∈ sited.applications, a.IsTidy ∧ a.FixesPlainly := by
    have tidy : sited.applications.all (fun a => decide a.IsTidy) = true := by decide +kernel
    have plain : ∀ a ∈ sited.applications, a.FixesPlainly := by
      simp [sited, layered, RawTemplates.applications, Application.FixesPlainly]
    intro a member
    exact ⟨of_decide_eq_true (List.all_eq_true.1 tidy a member), plain a member⟩
  have sorted : (sited.instanceTemplates.filterMap (resolveInstance sited 64)).Pairwise
      fun a b => a.name ≤ b.name := by decide +kernel
  have expanded : expandVariables [.reference "common", .declare "zone" "here"]
      sited.variableTemplates [{ id := "region", value := some "north" }] =
      [.declare "region" "north", .declare "zone" "here"] := by cbv
  refine ⟨texts, ?_, (ofRawTwice_eq sited 64).2.2.2 texts⟩
  rw [ofRaw, Text.sortOn_of_pairwise sorted]
  with_unfolding_all exact congrArg ([·]) expanded

end Bundle
end ProductTemplates
