import Mathlib.Data.List.Forall2
import ProductTemplates.Proofs.Bundle.Repetition

/-! What every bundle looks like, whatever it was resolved from. Its parts are those of the product
that an application is left of, in their order, each application as it is resolved on its own; the
instance templates and the catalogue are then sorted by name. -/
namespace ProductTemplates

open Catalogue Resolution

namespace Catalogue

/-- What a node is resolved to by a caller that fixes nothing, whatever it exposes. -/
def ResolvesTo (c : Catalogue) (maxDepth : Nat) (node : Resolvable) (a : Application) : Prop :=
  ∀ exposed, (c.resolution maxDepth node exposed .empty).1 = .ok (some a)

end Catalogue

/-- Whether an application of the group can be resolved. -/
def Group.isResolvable (g : Group) (c : Catalogue) (maxDepth : Nat) : Bool :=
  g.applications.any fun a => c.resolves maxDepth (.application a)

def InstanceTemplate.isResolvable (t : InstanceTemplate) (c : Catalogue) (maxDepth : Nat) : Bool :=
  t.groups.any (·.isResolvable c maxDepth)

/-- A group and what it is resolved to: the applications that can be resolved, in their order. -/
structure Group.ResolvesTo (c : Catalogue) (maxDepth : Nat) (g left : Group) : Prop where
  name : left.name = g.name
  description : left.description = g.description
  kind : left.kind = g.kind
  applications : List.Forall₂ (fun a resolved => c.ResolvesTo maxDepth (.application a) resolved)
    (g.applications.filter fun a => c.resolves maxDepth (.application a)) left.applications

structure InstanceTemplate.ResolvesTo (c : Catalogue) (maxDepth : Nat) (t left : InstanceTemplate) :
    Prop where
  name : left.name = t.name
  description : left.description = t.description
  variableDefaults : left.variableDefaults = t.variableDefaults
  groups : List.Forall₂ (Group.ResolvesTo c maxDepth)
    (t.groups.filter (·.isResolvable c maxDepth)) left.groups

structure ApplicationTemplate.ResolvesTo (c : Catalogue) (maxDepth : Nat)
    (t flat : ApplicationTemplate) : Prop where
  id : flat.id = t.id
  app : c.ResolvesTo maxDepth (.template t) flat.app
  templateVariables :
    flat.templateVariables = (c.resolution maxDepth (.template t) t.templateVariables .empty).2

namespace Bundle

variable {c : Catalogue} {raw : RawTemplates} {maxDepth : Nat} {node : Resolvable} {a : Application}
  {exposed after : List TemplateVariable} {t : InstanceTemplate} {entry : ApplicationTemplate}

/-- All applications of a bundle, those of its groups and those of its catalogue. -/
def applications (b : Bundle) : List Application := (b.toRaw []).applications

/-- A bundle in which everything is settled and nothing is empty. -/
structure IsConcrete (b : Bundle) : Prop where
  resolved : ∀ a ∈ b.applications, a.application.isSome = true ∧ a.template = none
  groups : ∀ t ∈ b.instanceTemplates, t.groups ≠ [] ∧ ∀ g ∈ t.groups, g.applications ≠ []
  declared : ∀ t ∈ b.instanceTemplates, ∀ v ∈ t.instanceVariables, v.isReference = false

theorem resolvesTo_of_resolution (h : c.resolution maxDepth node exposed .empty = (.ok (some a), after)) :
    c.ResolvesTo maxDepth node a :=
  fun others => (resolveNode_outcome others exposed).trans (congrArg Prod.fst h)

theorem forall₂_resolveApplications (apps : List Application) (exposed : List TemplateVariable) :
    List.Forall₂ (fun a resolved => c.ResolvesTo maxDepth (.application a) resolved)
      (apps.filter fun a => c.resolves maxDepth (.application a))
      (resolveApplications c maxDepth apps exposed).1 := by
  induction apps generalizing exposed with
  | nil => exact .nil
  | cons a rest ih =>
    rw [resolveApplications, List.filter_cons, resolves_eq (.application a) exposed]
    rcases outcome : c.resolution maxDepth (.application a) exposed .empty with
      ⟨_ | _ | app, surfaced⟩
    case ok.some => exact .cons (resolvesTo_of_resolution outcome) (ih surfaced)
    all_goals exact ih surfaced

theorem isEmpty_resolveApplications (g : Group) (exposed : List TemplateVariable) :
    (resolveApplications c maxDepth g.applications exposed).1.isEmpty = !g.isResolvable c maxDepth := by
  have same := (@forall₂_resolveApplications c maxDepth g.applications exposed).length_eq
  rw [Bool.eq_iff_iff, List.isEmpty_iff_length_eq_zero, ← same, List.length_eq_zero_iff,
    List.filter_eq_nil_iff, Group.isResolvable, Bool.not_eq_true', List.any_eq_false]

theorem forall₂_resolveGroups (groups : List Group) (exposed : List TemplateVariable) :
    List.Forall₂ (Group.ResolvesTo c maxDepth) (groups.filter (·.isResolvable c maxDepth))
      (resolveGroups c maxDepth groups exposed).1 := by
  induction groups generalizing exposed with
  | nil => exact .nil
  | cons g rest ih =>
    simp only [resolveGroups, List.filter_cons, isEmpty_resolveApplications]
    cases g.isResolvable c maxDepth with
    | true => exact .cons ⟨rfl, rfl, rfl, forall₂_resolveApplications _ _⟩ (ih _)
    | false => exact ih _

theorem resolveInstance_eq (t : InstanceTemplate) :
    (t.isResolvable raw.applicationTemplates maxDepth = true → ∃ left,
      resolveInstance raw maxDepth t = some left ∧
        t.ResolvesTo raw.applicationTemplates maxDepth left) ∧
    (t.isResolvable raw.applicationTemplates maxDepth = false →
      resolveInstance raw maxDepth t = none) := by
  have groups := @forall₂_resolveGroups raw.applicationTemplates maxDepth t.groups t.templateVariables
  constructor
  · intro nonempty
    refine ⟨_, resolveInstance_eq_some_iff.2 ⟨fun empty => ?_, rfl⟩, rfl, rfl, rfl, groups⟩
    rw [empty, List.forall₂_nil_right_iff, List.filter_eq_nil_iff] at groups
    obtain ⟨g, member, keeps⟩ := List.any_eq_true.1 nonempty
    exact groups g member keeps
  · intro unresolvable
    rw [Option.eq_none_iff_forall_ne_some]
    intro left came
    obtain ⟨nonempty, -⟩ := resolveInstance_eq_some_iff.1 came
    rw [InstanceTemplate.isResolvable, List.any_eq_false, ← List.filter_eq_nil_iff] at unresolvable
    rw [unresolvable, List.forall₂_nil_left_iff] at groups
    exact nonempty groups

theorem resolveTemplate_eq (t : ApplicationTemplate) :
    (raw.applicationTemplates.resolves maxDepth (.template t) = true → ∃ flat,
      resolveTemplate raw maxDepth t = some flat ∧
        t.ResolvesTo raw.applicationTemplates maxDepth flat) ∧
    (raw.applicationTemplates.resolves maxDepth (.template t) = false →
      resolveTemplate raw maxDepth t = none) := by
  refine ⟨fun resolves => ?_, resolveTemplate_eq_none_iff.2⟩
  cases came : resolveTemplate raw maxDepth t with
  | none =>
    rw [resolveTemplate_eq_none_iff.1 came] at resolves
    contradiction
  | some flat =>
    obtain ⟨same, outcome⟩ := resolveTemplate_eq_some came
    exact ⟨flat, rfl, same, resolvesTo_of_resolution outcome, (congrArg Prod.snd outcome).symm⟩

/-- What a list is left with, if each entry is kept and related or dropped. -/
theorem forall₂_filterMap {α β : Type} {R : α → β → Prop} {p : α → Bool} {f : α → Option β}
    (each : ∀ x, (p x = true → ∃ y, f x = some y ∧ R x y) ∧ (p x = false → f x = none))
    (xs : List α) : List.Forall₂ R (xs.filter p) (xs.filterMap f) := by
  induction xs with
  | nil => exact .nil
  | cons x rest ih =>
    cases keep : p x with
    | true =>
      obtain ⟨y, same, related⟩ := (each x).1 keep
      rw [List.filter_cons, if_pos keep, List.filterMap_cons, same]
      exact .cons related ih
    | false =>
      rw [List.filter_cons, if_neg (by simp [keep]), List.filterMap_cons, (each x).2 keep]
      exact ih

theorem ofRaw_isConcrete (raw : RawTemplates) (maxDepth : Nat) : (ofRaw raw maxDepth).IsConcrete where
  resolved a member := by
    have settled : a.isResolved = true := by
      rcases List.mem_append.1 member with inGroup | inCatalogue
      · obtain ⟨t, listed, inGroup⟩ := List.mem_flatMap.1 inGroup
        obtain ⟨g, held, within⟩ := List.mem_flatMap.1 inGroup
        obtain ⟨_, -, came⟩ := mem_instanceTemplates_ofRaw.1 listed
        obtain ⟨-, rfl⟩ := resolveInstance_eq_some_iff.1 came
        obtain ⟨-, _, _, each⟩ := mem_resolveGroups held
        obtain ⟨_, _, _, _, outcome⟩ := each a within
        exact isResolved_of_resolution outcome
      · obtain ⟨flat, listed, rfl⟩ := List.mem_map.1 inCatalogue
        obtain ⟨_, -, came⟩ := mem_flatCatalogue.1 listed
        exact isResolved_of_resolution (resolveTemplate_eq_some came).2
    rw [Application.isResolved, Bool.and_eq_true, Option.isNone_iff_eq_none] at settled
    exact settled.symm
  groups t listed := by
    obtain ⟨_, -, came⟩ := mem_instanceTemplates_ofRaw.1 listed
    obtain ⟨nonempty, rfl⟩ := resolveInstance_eq_some_iff.1 came
    exact ⟨nonempty, fun g held => (mem_resolveGroups held).1⟩
  declared t listed v within := by
    obtain ⟨_, -, came⟩ := mem_instanceTemplates_ofRaw.1 listed
    obtain ⟨-, rfl⟩ := resolveInstance_eq_some_iff.1 came
    rw [InstanceVariable.isReference, expandVariables_plain v within, Option.isSome_none]

/-- In a bundle everything is settled and nothing is empty. Its instance templates and its catalogue
are those of the product that an application is left of, the former with the groups and the
applications that are left, sorted by name without changing the order of equal names. -/
theorem ofRaw_shape (raw : RawTemplates) (maxDepth : Nat) :
    (ofRaw raw maxDepth).IsConcrete ∧
    (∃ left, List.Forall₂ (InstanceTemplate.ResolvesTo raw.applicationTemplates maxDepth)
        (raw.instanceTemplates.filter (·.isResolvable raw.applicationTemplates maxDepth)) left ∧
      Text.IsSorted (·.name) left (ofRaw raw maxDepth).instanceTemplates) ∧
    ∃ flat, List.Forall₂ (ApplicationTemplate.ResolvesTo raw.applicationTemplates maxDepth)
        (raw.applicationTemplates.resolvable maxDepth) flat ∧
      Text.IsSorted (·.displayName) flat (ofRaw raw maxDepth).applicationTemplates :=
  ⟨ofRaw_isConcrete raw maxDepth,
    ⟨_, forall₂_filterMap resolveInstance_eq raw.instanceTemplates, Text.sortOn_isSorted _ _⟩,
    ⟨_, forall₂_filterMap resolveTemplate_eq raw.applicationTemplates, Text.sortOn_isSorted _ _⟩⟩

end Bundle
end ProductTemplates
