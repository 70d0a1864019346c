import ProductTemplates.Proofs.Bundle.Siblings
import ProductTemplates.Proofs.Resolution.Limit
import ProductTemplates.Proofs.Text.Order

/-! The same product with a larger limit. What is left of it is left as it is: each application and
each entry of the catalogue, with the others in the same order around it. -/
namespace ProductTemplates

open Catalogue Resolution

/-- A group and the same one with more of its applications left. -/
structure Group.IsWithin (g more : Group) : Prop where
  name : more.name = g.name
  description : more.description = g.description
  kind : more.kind = g.kind
  applications : g.applications.Sublist more.applications

/-- An instance template and the same one with more of its groups and of their applications left.
What is asked for is still asked for. -/
structure InstanceTemplate.IsWithin (t more : InstanceTemplate) : Prop where
  name : more.name = t.name
  description : more.description = t.description
  instanceVariables : more.instanceVariables = t.instanceVariables
  variableDefaults : more.variableDefaults = t.variableDefaults
  asked : t.templateVariables.map (·.id) ⊆ more.templateVariables.map (·.id)
  groups : List.SublistForall₂ Group.IsWithin t.groups more.groups

/-- A bundle and one of the same product that more is left in. -/
structure Bundle.IsWithin (b more : Bundle) : Prop where
  instanceTemplates :
    List.SublistForall₂ InstanceTemplate.IsWithin b.instanceTemplates more.instanceTemplates
  applicationTemplates : b.applicationTemplates.Sublist more.applicationTemplates
  parameterTemplates : more.parameterTemplates = b.parameterTemplates

namespace Bundle

variable {c : Catalogue} {raw : RawTemplates} {maxDepth larger : Nat} {a : Application}

/-- If what is left of an entry is related to what else is left of it, so are the lists. -/
theorem sublistForall₂_filterMap {α β γ : Type} {R : β → γ → Prop} {f : α → Option β}
    {g : α → Option γ} (each : ∀ x y, f x = some y → ∃ z, g x = some z ∧ R y z) (xs : List α) :
    List.SublistForall₂ R (xs.filterMap f) (xs.filterMap g) := by
  induction xs with
  | nil => exact .nil
  | cons x rest ih =>
    cases left : f x with
    | some y =>
      obtain ⟨z, there, related⟩ := each x y left
      rw [List.filterMap_cons, left, List.filterMap_cons, there]
      exact .cons related ih
    | none =>
      rw [List.filterMap_cons, left, List.filterMap_cons]
      cases g x with
      | some z => exact .cons_right ih
      | none => exact ih

/-- If what is left of an entry is left of it in the other list, the one is part of the other. -/
theorem filterMap_sublist {α β : Type} {f g : α → Option β}
    (each : ∀ x y, f x = some y → g x = some y) (xs : List α) :
    (xs.filterMap f).Sublist (xs.filterMap g) := by
  obtain ⟨_, same, part⟩ := List.sublistForall₂_iff.1
    (sublistForall₂_filterMap (R := Eq) (fun x y left => ⟨y, each x y left, rfl⟩) xs)
  rw [List.forall₂_eq_eq_eq] at same
  exact same ▸ part

theorem ne_nil_of_sublistForall₂ {α β : Type} {R : α → β → Prop} {xs : List α} {ys : List β}
    (related : List.SublistForall₂ R xs ys) (nonempty : xs ≠ []) : ys ≠ [] := by
  cases related with
  | nil => exact absurd rfl nonempty
  | cons _ _ => exact List.cons_ne_nil _ _
  | cons_right _ => exact List.cons_ne_nil _ _

theorem resolution_of_le (le : maxDepth ≤ larger) {node : Resolvable} {app : Application}
    {exposed after : List TemplateVariable} {inherited : OverrideSet}
    (came : c.resolution maxDepth node exposed inherited = (.ok (some app), after)) :
    c.resolution larger node exposed inherited = (.ok (some app), after) := by
  rw [← came]
  apply resolveNode_of_le le
  rw [← resolution, came]
  simp [IsTooDeep]

theorem alone_of_le (le : maxDepth ≤ larger) {resolved : Resolved}
    (came : c.alone maxDepth a = some resolved) : c.alone larger a = some resolved := by
  rw [alone, resolve] at came ⊢
  rcases outcome : c.resolution maxDepth (.application a) [] .empty with ⟨_ | _ | app, after⟩
  all_goals rw [outcome] at came
  · simp [Except.map, Except.toOption] at came
  · simp [Except.map, Except.toOption] at came
  · rw [resolution_of_le le outcome]
    exact came

theorem asked_of_le (le : maxDepth ≤ larger) : c.asked maxDepth a ⊆ c.asked larger a := by
  cases came : c.alone maxDepth a with
  | none => simp [asked, came]
  | some resolved => rw [asked, asked, alone_of_le le came, came]; exact fun _ member => member

theorem assembled_of_le (le : maxDepth ≤ larger) {g left : Group}
    (kept : g.assembled c maxDepth = some left) :
    ∃ more, g.assembled c larger = some more ∧ left.IsWithin more := by
  have part : (g.applications.filterMap fun a => (c.alone maxDepth a).map (·.app)).Sublist
      (g.applications.filterMap fun a => (c.alone larger a).map (·.app)) := by
    apply filterMap_sublist
    intro a app came
    obtain ⟨resolved, alone, rfl⟩ := Option.map_eq_some_iff.1 came
    rw [alone_of_le le alone, Option.map_some]
  rw [Group.assembled] at kept
  simp only [List.isEmpty_iff, Option.ite_none_left_eq_some, Option.some.injEq] at kept
  obtain ⟨nonempty, rfl⟩ := kept
  refine ⟨_, if_neg ?_, rfl, rfl, rfl, part⟩
  rw [List.isEmpty_iff]
  exact fun empty => nonempty (List.sublist_nil.1 (empty ▸ part))

theorem resolveInstance_of_le (le : maxDepth ≤ larger) {t left : InstanceTemplate}
    (kept : resolveInstance raw maxDepth t = some left) :
    ∃ more, resolveInstance raw larger t = some more ∧ left.IsWithin more := by
  rw [resolveInstance_eq_assembled, InstanceTemplate.assembled] at kept ⊢
  have groups := sublistForall₂_filterMap
    (fun g left kept => @assembled_of_le raw.applicationTemplates _ _ le g left kept) t.groups
  simp only [List.isEmpty_iff, Option.ite_none_left_eq_some, Option.some.injEq] at kept
  obtain ⟨nonempty, rfl⟩ := kept
  refine ⟨_, if_neg ?_, rfl, rfl, rfl, rfl, ?_, groups⟩
  · rw [List.isEmpty_iff]
    exact ne_nil_of_sublistForall₂ groups nonempty
  · intro id member
    rw [List.map_append, List.mem_append] at member ⊢
    refine or_iff_not_imp_left.2 fun fresh => ?_
    have surfaces := member.resolve_left fresh
    rw [List.mem_map, surfaced_iff] at surfaces ⊢
    obtain ⟨-, a, listed, v, asks, same⟩ := surfaces
    exact ⟨fresh, a, listed, v, asked_of_le le asks, same⟩

theorem resolveTemplate_of_le (le : maxDepth ≤ larger) {t flat : ApplicationTemplate}
    (kept : resolveTemplate raw maxDepth t = some flat) :
    resolveTemplate raw larger t = some flat := by
  unfold resolveTemplate at kept
  split at kept
  · next app exposed came => rw [← kept, resolveTemplate, resolution_of_le le came]
  · contradiction

theorem ofRaw_of_le (le : maxDepth ≤ larger) (raw : RawTemplates) :
    (ofRaw raw maxDepth).IsWithin (ofRaw raw larger) where
  instanceTemplates := Text.sublistForall₂_sortOn (fun _ _ within => within.name.symm)
    (sublistForall₂_filterMap (fun _ _ => resolveInstance_of_le le) _)
  applicationTemplates :=
    Text.sublist_sortOn (filterMap_sublist (fun _ _ => resolveTemplate_of_le le) _)
  parameterTemplates := rfl

/-- The limit only ever cuts off. What does not end for it becomes the same with a larger one, and
what ends for it meets one distinct id more than the limit allows. So nothing does with a limit of
as many ids as there are, and all that is left of a product is left of it with a larger limit. -/
theorem limit_only_cuts_off (maxDepth larger : Nat) (le : maxDepth ≤ larger) :
    (∀ (c : Catalogue) (node : Resolvable) (exposed : List TemplateVariable)
        (inherited : OverrideSet),
      (¬ IsTooDeep (c.resolution maxDepth node exposed inherited).1 →
        c.resolution larger node exposed inherited = c.resolution maxDepth node exposed inherited) ∧
      (IsTooDeep (c.resolution maxDepth node exposed inherited).1 ↔
        ∃ i, (c.idsBelow node i).Nodup ∧ (c.idsBelow node i).length = maxDepth + 1) ∧
      (idCount c node ≤ maxDepth → ¬ IsTooDeep (c.resolution maxDepth node exposed inherited).1)) ∧
    ∀ raw, (ofRaw raw maxDepth).IsWithin (ofRaw raw larger) := by
  refine ⟨fun c node exposed inherited => ⟨?same, ?cut, ?enough⟩, ofRaw_of_le le⟩
  case same => exact resolveNode_of_le le [] node exposed inherited
  case cut => exact isTooDeep_resolution_iff c maxDepth node exposed inherited
  case enough => exact fun enough => not_isTooDeep_of_idCount_le enough exposed inherited

def stacked : RawTemplates where
  instanceTemplates := [
    { name := "site"
      groups := [
        { name := "nodes"
          applications := [{ template := some "client" }, { template := some "server" }] }] }]
  applicationTemplates := [
    { id := "client", app := { template := some "server" } },
    { id := "server", app := { application := some "serverd" } }]

/-- A limit of one leaves one of each, a limit of two all of them. -/
theorem limit_only_cuts_off_stacked :
    IsTooDeep (stacked.applicationTemplates.resolution 1
      (.application { template := some "client" }) [] .empty).1 ∧
    ¬ IsTooDeep (stacked.applicationTemplates.resolution 2
      (.application { template := some "client" }) [] .empty).1 ∧
    1 ≤ 2 ∧ (ofRaw stacked 1).IsWithin (ofRaw stacked 2) ∧
    (ofRaw stacked 1).applicationTemplates.length = 1 ∧
    (ofRaw stacked 2).applicationTemplates.length = 2 := by
  obtain ⟨single, left⟩ := limit_only_cuts_off 1 2 (by decide)
  obtain ⟨-, cut, -⟩ := single stacked.applicationTemplates
    (.application { template := some "client" }) [] .empty
  obtain ⟨-, -, enough⟩ := (limit_only_cuts_off 2 2 (by decide)).1 stacked.applicationTemplates
    (.application { template := some "client" }) [] .empty
  have unsorted (maxDepth : Nat) : (ofRaw stacked maxDepth).applicationTemplates.length =
      (stacked.applicationTemplates.filterMap (resolveTemplate stacked maxDepth)).length :=
    List.length_mergeSort _
  refine ⟨cut.2 ⟨3, by decide, by decide⟩, enough (by decide), by decide, left stacked, ?_, ?_⟩
  · rw [unsorted]
    decide +kernel
  · rw [unsorted]
    decide +kernel

end Bundle
end ProductTemplates
