import ProductTemplates.Proofs.Bundle.Pruning
import ProductTemplates.Proofs.Resolution.Refilling

/-! The catalogue of a bundle in place of the one it was resolved from. An application that is based
on one of its entries comes about from either, and equally so if the values it fixes have no part in
what the chain of the entry fixes. -/
namespace ProductTemplates.Bundle

open Catalogue Resolution

variable {raw : RawTemplates} {maxDepth : Nat} {t flat : ApplicationTemplate} {id : String}
  {a : Application}

theorem resolveTemplate_eq_some (h : resolveTemplate raw maxDepth t = some flat) :
    flat.id = t.id ∧ resolveNode raw.applicationTemplates maxDepth [] (.template t)
      t.templateVariables .empty = (.ok (some flat.app), flat.templateVariables) := by
  unfold resolveTemplate at h
  split at h
  · next app exposed outcome =>
    obtain rfl := Option.some.inj h
    exact ⟨rfl, outcome⟩
  · contradiction

/-- The catalogue of the bundle that a product is resolved to. -/
def flatCatalogue (raw : RawTemplates) (maxDepth : Nat) : Catalogue :=
  (ofRaw raw maxDepth).applicationTemplates

theorem mem_flatCatalogue : flat ∈ flatCatalogue raw maxDepth ↔
    ∃ t ∈ raw.applicationTemplates, resolveTemplate raw maxDepth t = some flat := by
  rw [flatCatalogue, ofRaw, Text.mem_sortOn, List.mem_filterMap]

theorem find?_flatCatalogue (distinct : (raw.applicationTemplates.map (·.id)).Nodup) (id : String) :
    (flatCatalogue raw maxDepth).find? id =
      (raw.applicationTemplates.find? id).bind (resolveTemplate raw maxDepth) := by
  cases found : (flatCatalogue raw maxDepth).find? id with
  | some flat =>
    obtain ⟨t, member, resolved⟩ := mem_flatCatalogue.1 (List.mem_of_find?_eq_some found)
    have same := (resolveTemplate_eq_some resolved).1
    rw [← id_eq_of_find? found, same, find?_of_mem distinct member, Option.bind_some, resolved]
  | none =>
    cases there : raw.applicationTemplates.find? id with
    | none => rfl
    | some t =>
      rw [Option.bind_some, eq_comm, Option.eq_none_iff_forall_ne_some]
      intro flat resolved
      have member : flat ∈ flatCatalogue raw maxDepth :=
        mem_flatCatalogue.2 ⟨t, List.mem_of_find?_eq_some there, resolved⟩
      have other := List.find?_eq_none.1 found flat member
      rw [(resolveTemplate_eq_some resolved).1, id_eq_of_find? there] at other
      simp at other

theorem resolution_dangling {c : Catalogue} {exposed : List TemplateVariable}
    (based : a.template = some id) (missing : c.find? id = none) :
    c.resolution maxDepth (.application a) exposed .empty = (.ok none, exposed) := by
  have verdict : c.verdict? maxDepth [] (.application a) = some .dangling := by
    simp [verdict?, verdictOn?, based, missing]
  exact resolveNode_of_verdict verdict

/-- An application comes about as its template does, with fewer values there. -/
theorem resolution_based {c : Catalogue} {exposed : List TemplateVariable}
    (based : a.template = some id) (found : c.find? id = some t) :
    c.resolution maxDepth (.application a) exposed .empty =
      passOn (.application a) exposed .empty (resolveNode c maxDepth [] (.template t)
        t.templateVariables (OverrideSet.empty.merge a.fixedVariables)) := by
  have up : c.parent? (.application a) = some t := by
    rw [parent?, Resolvable.body_application, based, Option.bind_some, found]
  have goesOn : c.verdict? maxDepth [] (.application a) = none :=
    verdict?_eq_none_iff.2 ⟨by simp, by simp [visit], t, up⟩
  exact resolveNode_of_goesOn goesOn up

/-- From the flat catalogue an application comes about by one entry alone. -/
theorem resolution_flatCatalogue_based {exposed : List TemplateVariable} {s : OverrideSet}
    (distinct : (raw.applicationTemplates.map (·.id)).Nodup) (based : a.template = some id)
    (found : raw.applicationTemplates.find? id = some t)
    (resolved : resolveTemplate raw maxDepth t = some flat)
    (own : OverrideSet.empty.merge a.fixedVariables = s) :
    (flatCatalogue raw maxDepth).resolution maxDepth (.application a) exposed .empty =
      passOn (.application a) exposed .empty
        (.ok (some (flat.app.fillIn (s.merge flat.app.fixedVariables))),
          withdraw (.template flat) (s.merge flat.app.fixedVariables) flat.templateVariables) := by
  obtain ⟨above, completes, -, ready⟩ := came_about (resolveTemplate_eq_some resolved).2
  have there : (flatCatalogue raw maxDepth).find? id = some flat := by
    rw [find?_flatCatalogue distinct, found, Option.bind_some, resolved]
  have alone : (Resolvable.template flat).body.isResolved = true := ready
  rw [resolution_based based there, own, resolveNode_of_isResolved alone (by simp) completes.shallow]
  rfl

theorem withdraw_flat {s : OverrideSet} {up : Application} {surfaced : List TemplateVariable}
    (resolved : resolveTemplate raw maxDepth t = some flat)
    (parents : resolveNode raw.applicationTemplates maxDepth [] (.template t) t.templateVariables s =
      (.ok (some up), surfaced)) :
    withdraw (.template flat) (s.merge flat.app.fixedVariables) flat.templateVariables = surfaced := by
  obtain ⟨-, -, alone, -⟩ := came_about (resolveTemplate_eq_some resolved).2
  obtain ⟨-, -, asked, -⟩ := came_about parents
  have less := alone.after_filter (p := s.contains) asked (fun _ => rfl)
  have fixed : flat.app.fixedVariables = t.app.fixedVariables := alone.fixedVariables_eq
  rw [less, fixed]
  rfl

/-- What comes about by way of an entry is the same from either catalogue, if the texts are tidy and
the caller's values and those of the chain are for different ids. -/
theorem fillIn_flat {s : OverrideSet} {up : Application} {surfaced : List TemplateVariable}
    {above : List ApplicationTemplate} (resolved : resolveTemplate raw maxDepth t = some flat)
    (parents : resolveNode raw.applicationTemplates maxDepth [] (.template t) t.templateVariables s =
      (.ok (some up), surfaced))
    (lineage : raw.applicationTemplates.Lineage (.template t) above)
    (tidy : ∀ level ∈ t :: above, level.app.IsTidy)
    (plain : ∀ level ∈ t :: above, level.app.FixesPlainly)
    (apart : ∀ level ∈ t :: above, ∀ v ∈ level.app.fixedVariables, s.get? v.id = none) :
    flat.app.fillIn (s.merge flat.app.fixedVariables) = up := by
  obtain ⟨-, -, alone, -⟩ := came_about (resolveTemplate_eq_some resolved).2
  obtain ⟨-, -, asked, -⟩ := came_about parents
  have fixed : flat.app.fixedVariables = t.app.fixedVariables := alone.fixedVariables_eq
  rw [List.forall_mem_cons] at plain apart
  rw [fixed]
  refine alone.fillIn_eq lineage asked ?_ ?_ plain.2 (fun id => ?_) fun upper member v isFixed => ?_
  · intro level member
    have onChain : level ∈ (t :: above).map (·.app) := member
    obtain ⟨template, listed, rfl⟩ := List.mem_map.1 onChain
    exact tidy template listed
  · intro e member
    rw [OverrideSet.entries_merge] at member
    exact plain.1 e (firsts_sublist.subset (by simpa [OverrideSet.empty] using member))
  · -- the entry's own values come first in one set and last in the other
    rw [Resolvable.body_template, OverrideSet.get?_merge, OverrideSet.get?_merge s]
    cases offered : t.app.fixedVariables.find? (·.id == id) with
    | none => simp [OverrideSet.get?, OverrideSet.empty]
    | some v =>
      obtain rfl : v.id = id := by simpa using List.find?_some offered
      rw [apart.1 v (List.mem_of_find?_eq_some offered)]
      simp [OverrideSet.get?, OverrideSet.empty]
  · rw [OverrideSet.get?_merge, apart.2 upper member v isFixed, Option.none_or,
      Resolvable.body_template]
    cases offered : t.app.fixedVariables.find? (·.id == v.id) with
    | none => exact .inr rfl
    | some w =>
      left
      have same : w.id = v.id := by simpa using List.find?_some offered
      exact OverrideSet.contains_merge_iff.2 (.inr ⟨w, List.mem_of_find?_eq_some offered, same⟩)

/-- An application that is based on a template comes about from the catalogue exactly if it comes
about from the flat one, where nothing is circular, empty or too deep but only missing. It is the
same application with the same free variables, if the texts on the chain are tidy, the values fixed
on it plain, and no id fixed on it is fixed by the application. -/
theorem resolution_flatCatalogue (raw : RawTemplates) (maxDepth : Nat)
    (distinct : (raw.applicationTemplates.map (·.id)).Nodup) (a : Application) (id : String)
    (based : a.template = some id) (exposed : List TemplateVariable) :
    ((∃ app, (raw.applicationTemplates.resolution maxDepth (.application a) exposed .empty).1 =
        .ok (some app)) ↔
      ∃ app, ((flatCatalogue raw maxDepth).resolution maxDepth (.application a) exposed .empty).1 =
        .ok (some app)) ∧
    ((∀ app, (raw.applicationTemplates.resolution maxDepth (.application a) exposed .empty).1 ≠
        .ok (some app)) →
      (flatCatalogue raw maxDepth).resolution maxDepth (.application a) exposed .empty =
        (.ok none, exposed)) ∧
    ∀ app after above,
      raw.applicationTemplates.resolution maxDepth (.application a) exposed .empty =
        (.ok (some app), after) →
      raw.applicationTemplates.Lineage (.application a) above →
      (∀ t ∈ above, t.app.IsTidy) → (∀ t ∈ above, t.app.FixesPlainly) →
      (∀ t ∈ above, ∀ v ∈ t.app.fixedVariables, ∀ own ∈ a.fixedVariables, own.id ≠ v.id) →
      (flatCatalogue raw maxDepth).resolution maxDepth (.application a) exposed .empty =
        (.ok (some app), after) := by
  cases found : raw.applicationTemplates.find? id with
  | none =>
    have missing : (flatCatalogue raw maxDepth).find? id = none := by
      rw [find?_flatCatalogue distinct, found, Option.bind_none]
    rw [resolution_dangling based found, resolution_dangling based missing]
    simp
  | some t =>
    have alone := @exists_resolveNode_iff raw.applicationTemplates maxDepth [] (.template t)
      t.templateVariables (OverrideSet.empty.merge a.fixedVariables)
    rw [← resolves_iff] at alone
    cases resolved : resolveTemplate raw maxDepth t with
    | none =>
      have missing : (flatCatalogue raw maxDepth).find? id = none := by
        rw [find?_flatCatalogue distinct, found, Option.bind_some, resolved]
      rw [resolveTemplate_eq_none_iff.1 resolved] at alone
      rw [resolution_based based found, resolution_dangling based missing]
      rcases parents : resolveNode raw.applicationTemplates maxDepth [] (.template t)
        t.templateVariables (OverrideSet.empty.merge a.fixedVariables) with ⟨_ | _ | up, surfaced⟩
      · simp [passOn]
      · simp [passOn]
      · have came := alone.1 ⟨up, by rw [parents]⟩
        contradiction
    | some flat =>
      have resolves : raw.applicationTemplates.resolves maxDepth (.template t) = true := by
        rw [← Bool.not_eq_false, ← resolveTemplate_eq_none_iff, resolved]
        simp
      obtain ⟨up, outcome⟩ := alone.2 resolves
      rcases parents : resolveNode raw.applicationTemplates maxDepth [] (.template t)
        t.templateVariables (OverrideSet.empty.merge a.fixedVariables) with ⟨_, surfaced⟩
      rw [parents] at outcome
      obtain rfl := outcome
      rw [resolution_based based found, parents,
        resolution_flatCatalogue_based distinct based found resolved rfl, withdraw_flat resolved parents]
      refine ⟨by simp [passOn], by simp [passOn], ?_⟩
      intro app after above came lineage tidy plain apart
      rw [← came]
      cases lineage with
      | root rootless => simp [based] at rootless
      | @step _ parent above up lineage =>
        obtain rfl : t = parent := by simpa [parent?, based, found] using up
        rw [fillIn_flat resolved parents lineage tidy plain fun level member v fixed => ?_]
        rw [OverrideSet.get?_eq_none_iff, ← Bool.not_eq_true, OverrideSet.contains_merge_iff]
        rintro (inEmpty | ⟨own, isOwn, same⟩)
        · simp [OverrideSet.contains, OverrideSet.empty] at inEmpty
        · exact apart level member v fixed own isOwn same

/-- A template with texts to fill in, based on one that fixes a value and asks for two more. -/
def layered : RawTemplates where
  applicationTemplates := [
    { id := "server"
      app :=
        { template := some "process"
          name := some "Server ${port}"
          fixedVariables := [{ id := "port", value := "80" }] }
      templateVariables := [{ id := "host" }] },
    { id := "process"
      app :=
        { application := some "serverd"
          startParameters := [
            { id := "listen", value := some "${host}:${port}" },
            { id := "log", value := some "${log}" }] }
      templateVariables := [{ id := "port" }, { id := "log" }] }]

/-- The value it fixes looks like a token. -/
def layeredSite : Application :=
  { template := some "server", fixedVariables := [{ id := "host", value := "${port}" }] }

def layeredOutcome : Application where
  application := some "serverd"
  name := some "Server 80"
  startParameters := [
    { id := "listen", value := some "${port}:80" },
    { id := "log", value := some "${log}" }]
  fixedVariables := layeredSite.fixedVariables

theorem resolution_flatCatalogue_layered :
    (layered.applicationTemplates.map (·.id)).Nodup ∧
    layered.applicationTemplates.resolution 64 (.application layeredSite) [] .empty =
      (.ok (some layeredOutcome), [{ id := "log" }]) ∧
    (flatCatalogue layered 64).resolution 64 (.application layeredSite) [] .empty =
      (.ok (some layeredOutcome), [{ id := "log" }]) := by
  have distinct : (layered.applicationTemplates.map (·.id)).Nodup := by decide
  have outcome : layered.applicationTemplates.resolution 64 (.application layeredSite) [] .empty =
      (.ok (some layeredOutcome), [{ id := "log" }]) := by
    rw [Catalogue.resolution,
      resolveNode_of_goesOn rfl (show _ = some layered.applicationTemplates[0] from rfl),
      resolveNode_of_goesOn rfl (show _ = some layered.applicationTemplates[1] from rfl),
      resolveNode_of_verdict (show _ = some .complete from rfl)]
    with_unfolding_all rfl
  have lineage : layered.applicationTemplates.Lineage (.application layeredSite)
      layered.applicationTemplates := .step rfl (.step rfl (.root rfl))
  obtain ⟨-, -, same⟩ :=
    resolution_flatCatalogue layered 64 distinct layeredSite "server" rfl []
  refine ⟨distinct, outcome, same _ _ _ outcome lineage ?tidy ?plain ?apart⟩
  case tidy =>
    have decided : layered.applicationTemplates.all (fun t => decide t.app.IsTidy) = true := by decide +kernel
    simpa using decided
  case plain => simp [layered, Application.FixesPlainly]
  case apart => simp [layered, layeredSite]

end ProductTemplates.Bundle
