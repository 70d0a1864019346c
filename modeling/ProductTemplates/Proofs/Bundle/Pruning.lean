import ProductTemplates.Bundle
import ProductTemplates.Proofs.Firsts
import ProductTemplates.Proofs.Product.Content
import ProductTemplates.Proofs.Resolution.Completion

/-! Leaving out of a product what cannot be resolved changes nothing that is resolved from it: a
failing application leaves the list of free variables alone, and the templates above one that is
resolved are resolved themselves. -/
namespace ProductTemplates

open Catalogue Resolution

namespace Catalogue

variable {c : Catalogue} {maxDepth : Nat} {node : Resolvable} {t : ApplicationTemplate}
  {above : List ApplicationTemplate} {exposed : List TemplateVariable}

theorem find?_of_mem (distinct : (c.map (·.id)).Nodup) (member : t ∈ c) :
    c.find? t.id = some t := find?_of_nodup distinct member

theorem mem_of_lineage (h : c.Lineage node above) (member : t ∈ above) : t ∈ c :=
  List.mem_of_find?_eq_some (find?_of_lineage h member)

/-- The entries that are resolved on their own. -/
def resolvable (c : Catalogue) (maxDepth : Nat) : Catalogue :=
  c.filter fun t => c.resolves maxDepth (.template t)

theorem resolvable_distinct (distinct : (c.map (·.id)).Nodup) :
    ((c.resolvable maxDepth).map (·.id)).Nodup :=
  (List.filter_sublist.map _).nodup distinct

/-- The entries that are resolved suffice for all that is resolved. -/
theorem resolution_resolvable (distinct : (c.map (·.id)).Nodup)
    (h : c.resolves maxDepth node = true) (inherited : OverrideSet) :
    (c.resolvable maxDepth).resolution maxDepth node exposed inherited =
      c.resolution maxDepth node exposed inherited := by
  obtain ⟨above, completes⟩ := resolves_iff.1 h
  apply resolveNode_transfer completes
  intro t member
  apply find?_of_mem (resolvable_distinct distinct)
  exact List.mem_filter.2
    ⟨mem_of_lineage completes.lineage member, resolves_iff.2 (completes.of_mem member)⟩

theorem resolution_of_not_resolves (h : c.resolves maxDepth node = false)
    (exposed : List TemplateVariable) (inherited : OverrideSet) :
    (∀ a, (c.resolution maxDepth node exposed inherited).1 ≠ .ok (some a)) ∧
      (c.resolution maxDepth node exposed inherited).2 = exposed := by
  have fails (a : Application) : (c.resolution maxDepth node exposed inherited).1 ≠ .ok (some a) := by
    intro outcome
    have completes := (exists_resolveNode_iff exposed inherited).1 ⟨a, outcome⟩
    rw [resolves_iff.2 completes] at h
    contradiction
  exact ⟨fails, resolveNode_unchanged [] node exposed inherited fails⟩

end Catalogue

def Group.prune (g : Group) (c : Catalogue) (maxDepth : Nat) : Group :=
  { g with applications := g.applications.filter fun a => c.resolves maxDepth (.application a) }

def RawTemplates.prune (raw : RawTemplates) (maxDepth : Nat) : RawTemplates :=
  { raw with
    instanceTemplates := raw.instanceTemplates.map fun t =>
      { t with groups := t.groups.map (·.prune raw.applicationTemplates maxDepth) }
    applicationTemplates := raw.applicationTemplates.resolvable maxDepth }

namespace Bundle

variable {c : Catalogue} {raw : RawTemplates} {maxDepth : Nat} {node : Resolvable}
  {t : ApplicationTemplate} {above : List ApplicationTemplate}

theorem resolveApplications_prune (distinct : (c.map (·.id)).Nodup) (apps : List Application)
    (exposed : List TemplateVariable) :
    resolveApplications (c.resolvable maxDepth) maxDepth
        (apps.filter fun a => c.resolves maxDepth (.application a)) exposed =
      resolveApplications c maxDepth apps exposed := by
  induction apps generalizing exposed with
  | nil => rfl
  | cons a rest ih =>
    cases h : c.resolves maxDepth (.application a) with
    | true =>
      rw [List.filter_cons, if_pos h, resolveApplications, resolveApplications,
        resolution_resolvable distinct h]
      simp only [ih]
    | false =>
      obtain ⟨fails, same⟩ := resolution_of_not_resolves h exposed .empty
      rw [List.filter_cons, if_neg (by simp [h]), ih, resolveApplications]
      rcases outcome : c.resolution maxDepth (.application a) exposed .empty with
        ⟨_ | _ | app, after⟩ <;> rw [outcome] at fails same
      · obtain rfl := same
        rfl
      · obtain rfl := same
        rfl
      · exact absurd rfl (fails app)

theorem resolveGroups_prune (distinct : (c.map (·.id)).Nodup) (groups : List Group)
    (exposed : List TemplateVariable) :
    resolveGroups (c.resolvable maxDepth) maxDepth (groups.map (·.prune c maxDepth)) exposed =
      resolveGroups c maxDepth groups exposed := by
  induction groups generalizing exposed with
  | nil => rfl
  | cons g rest ih =>
    have kept : resolveApplications (c.resolvable maxDepth) maxDepth (g.prune c maxDepth).applications
        exposed = resolveApplications c maxDepth g.applications exposed :=
      resolveApplications_prune distinct _ _
    rw [List.map_cons, resolveGroups, resolveGroups, kept]
    simp only [ih]
    rfl

theorem resolveTemplate_eq_none_iff :
    resolveTemplate raw maxDepth t = none ↔
      raw.applicationTemplates.resolves maxDepth (.template t) = false := by
  have came := @exists_resolveNode_iff raw.applicationTemplates maxDepth [] (.template t)
    t.templateVariables .empty
  rw [← Bool.not_eq_true, resolves_iff, ← came, resolveTemplate, resolution]
  rcases resolveNode raw.applicationTemplates maxDepth [] (.template t) t.templateVariables .empty
    with ⟨_ | _ | a, after⟩ <;> simp

theorem resolveTemplate_prune (distinct : (raw.applicationTemplates.map (·.id)).Nodup)
    (h : raw.applicationTemplates.resolves maxDepth (.template t) = true) :
    resolveTemplate (raw.prune maxDepth) maxDepth t = resolveTemplate raw maxDepth t := by
  rw [resolveTemplate, resolveTemplate, RawTemplates.prune]
  simp only [resolution_resolvable distinct h]

theorem filterMap_prune (distinct : (raw.applicationTemplates.map (·.id)).Nodup) :
    (raw.prune maxDepth).applicationTemplates.filterMap (resolveTemplate (raw.prune maxDepth) maxDepth) =
      raw.applicationTemplates.filterMap (resolveTemplate raw maxDepth) := by
  change (List.filter _ _).filterMap _ = _
  rw [List.filterMap_filter]
  apply List.filterMap_congr
  intro t _
  cases h : raw.applicationTemplates.resolves maxDepth (.template t) with
  | true => simp only [if_true, resolveTemplate_prune distinct h]
  | false =>
    rw [resolveTemplate_eq_none_iff.2 h]
    rfl

theorem mem_ofRaw_of_resolves (member : t ∈ raw.applicationTemplates)
    (h : raw.applicationTemplates.resolves maxDepth (.template t) = true) :
    ∃ flat, resolveTemplate raw maxDepth t = some flat ∧
      flat ∈ (ofRaw raw maxDepth).applicationTemplates := by
  cases resolved : resolveTemplate raw maxDepth t with
  | none =>
    rw [resolveTemplate_eq_none_iff.1 resolved] at h
    contradiction
  | some flat =>
    exact ⟨flat, rfl, Text.mem_sortOn.2 (List.mem_filterMap.2 ⟨t, member, resolved⟩)⟩

/-- What cannot be resolved leaves no trace in what is resolved. All templates that a resolved
application is based on are there in their resolved form. -/
theorem ofRaw_prune (raw : RawTemplates) (maxDepth : Nat)
    (distinct : (raw.applicationTemplates.map (·.id)).Nodup) :
    ofRaw (raw.prune maxDepth) maxDepth = ofRaw raw maxDepth ∧
    ∀ node above, raw.applicationTemplates.resolves maxDepth node = true →
      raw.applicationTemplates.Lineage node above →
      ∀ t ∈ raw.applicationTemplates, node = .template t ∨ t ∈ above →
        ∃ flat, resolveTemplate raw maxDepth t = some flat ∧
          flat ∈ (ofRaw raw maxDepth).applicationTemplates := by
  constructor
  · have instances : (raw.prune maxDepth).instanceTemplates.filterMap
        (resolveInstance (raw.prune maxDepth) maxDepth) =
          raw.instanceTemplates.filterMap (resolveInstance raw maxDepth) := by
      change (List.map _ _).filterMap _ = _
      rw [List.filterMap_map]
      apply List.filterMap_congr
      intro t _
      rw [Function.comp_apply, resolveInstance, resolveInstance]
      simp only [RawTemplates.prune, resolveGroups_prune distinct]
    rw [ofRaw, ofRaw, instances, filterMap_prune distinct]
    rfl
  · rintro node above resolved lineage t member onWay
    apply mem_ofRaw_of_resolves member
    rcases onWay with rfl | upper
    · exact resolved
    · obtain ⟨further, completes⟩ := resolves_iff.1 resolved
      rw [lineage.unique completes.lineage] at upper
      exact resolves_iff.2 (completes.of_mem upper)

/-- A group and a catalogue with a template that refers to itself, one that refers to none that
there is, and an application that says nothing. -/
def tangled : RawTemplates where
  instanceTemplates := [
    { name := "site"
      groups := [
        { name := "main"
          applications := [.fromTemplate "loop", .fromTemplate "server", .fromTemplate "stub", {}] }] }]
  applicationTemplates := [
    { id := "server", app := .fromTemplate "process" },
    { id := "loop", app := .fromTemplate "loop" },
    { id := "stub", app := .fromTemplate "missing" },
    { id := "process", app := .forApplication "serverd" }]

theorem ofRaw_prune_tangled :
    (tangled.applicationTemplates.map (·.id)).Nodup ∧
    (tangled.prune 64).applicationTemplates.map (·.id) = ["server", "process"] ∧
    ofRaw (tangled.prune 64) 64 = ofRaw tangled 64 ∧
    ∃ flat ∈ (ofRaw tangled 64).applicationTemplates,
      resolveTemplate tangled 64 { id := "process", app := .forApplication "serverd" } = some flat := by
  have distinct : (tangled.applicationTemplates.map (·.id)).Nodup := by decide
  have resolved : tangled.applicationTemplates.resolves 64
      (.application (.fromTemplate "server")) = true := by decide +kernel
  have lineage : tangled.applicationTemplates.Lineage (.application (.fromTemplate "server"))
      [{ id := "server", app := .fromTemplate "process" },
        { id := "process", app := .forApplication "serverd" }] := .step rfl (.step rfl (.root rfl))
  obtain ⟨same, there⟩ := ofRaw_prune tangled 64 distinct
  obtain ⟨flat, resolvedAlone, member⟩ := there _ _ resolved lineage
    { id := "process", app := .forApplication "serverd" } (by simp [tangled]) (.inr (by simp))
  exact ⟨distinct, by decide +kernel, same, flat, member, resolvedAlone⟩

end Bundle
end ProductTemplates
