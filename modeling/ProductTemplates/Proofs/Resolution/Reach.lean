import ProductTemplates.Proofs.Resolution.Walk

/-! The part of a catalogue that a node depends on: the first entry of each id that its walk looks
up. What else there is, and in which order, does not matter, and neither does what is added behind,
unless the walk was left without an entry. -/
namespace ProductTemplates

namespace Catalogue

variable {c d : Catalogue} {maxDepth : Nat} {met : List String} {node : Resolvable} {id : String}

/-- Whether a walk looks an id up. Every level that is not refused does so with its reference. -/
inductive LooksUp (c : Catalogue) (maxDepth : Nat) : List String → Resolvable → String → Prop where
  | here {met : List String} {node : Resolvable} {id : String} :
      (∀ e, c.verdict? maxDepth met node ≠ some (.refused e)) → node.body.template = some id →
      LooksUp c maxDepth met node id
  | above {met : List String} {node : Resolvable} {parent : ApplicationTemplate} {id : String} :
      c.verdict? maxDepth met node = none → c.parent? node = some parent →
      LooksUp c maxDepth (Resolution.visit met node) (.template parent) id →
      LooksUp c maxDepth met node id

/-- A level decides by its reference alone, and without it when it refuses. -/
theorem verdict?_eq_of_looksUp
    (same : ∀ id, c.LooksUp maxDepth met node id → d.find? id = c.find? id) :
    d.verdict? maxDepth met node = c.verdict? maxDepth met node := by
  by_cases fresh : ∀ own ∈ node.identity, own ∉ met
  · rw [verdict?_eq_of_fresh fresh, verdict?_eq_of_fresh fresh, verdictOn?, verdictOn?]
    split
    · rfl
    · next shallow =>
      split
      · rfl
      · next referring =>
        cases named : node.body.template with
        | none => rfl
        | some id =>
          have unrefused (e : ResolutionError) :
              c.verdict? maxDepth met node ≠ some (.refused e) := by
            rw [verdict?_eq_of_fresh fresh, verdictOn?, if_neg shallow, if_neg referring, named]
            cases c.find? id <;> simp
          simp only [same id (.here unrefused named)]
  · obtain ⟨id, own, old⟩ := exists_met fresh
    rw [verdict?_eq_of_met own old, verdict?_eq_of_met own old]

end Catalogue

namespace Resolution

open Catalogue

variable {c d : Catalogue} {maxDepth : Nat} {met : List String} {node : Resolvable} {id : String}

/-- Catalogues with the same first entries under the ids that are looked up resolve alike. -/
theorem resolveNode_eq_of_looksUp
    (same : ∀ id, c.LooksUp maxDepth met node id → d.find? id = c.find? id)
    (exposed : List TemplateVariable) (inherited : OverrideSet) :
    resolveNode d maxDepth met node exposed inherited =
      resolveNode c maxDepth met node exposed inherited := by
  induction met, node using walk_induction c maxDepth generalizing exposed inherited with
  | ends met node ending verdict =>
    have verdict' := (verdict?_eq_of_looksUp same).trans verdict
    rw [resolveNode_of_verdict verdict, resolveNode_of_verdict verdict']
  | goesOn met node parent verdict up ih =>
    have verdict' := (verdict?_eq_of_looksUp same).trans verdict
    obtain ⟨named, found⟩ := template_of_parent? up
    have up' : d.parent? node = some parent := by
      rw [parent?, named, Option.bind_some, same _ (.here (by simp [verdict]) named), found]
    rw [resolveNode_of_goesOn verdict up, resolveNode_of_goesOn verdict' up',
      ih fun id later => same id (.above verdict up later)]

theorem dangling_of_looksUp (h : c.LooksUp maxDepth met node id) (missing : c.find? id = none)
    (exposed : List TemplateVariable) (inherited : OverrideSet) :
    (resolveNode c maxDepth met node exposed inherited).1 = .ok none := by
  induction h generalizing exposed inherited with
  | @here met node id unrefused named =>
    cases verdict : c.verdict? maxDepth met node with
    | none =>
      obtain ⟨-, -, parent, up⟩ := verdict?_eq_none_iff.1 verdict
      simp [parent?, named, missing] at up
    | some ending =>
      cases ending with
      | refused e => exact absurd verdict (unrefused e)
      | dangling => rw [resolveNode_of_verdict verdict, conclude]
      | complete => simp [(verdict?_eq_complete_iff.1 verdict).2.2.2] at named
  | @above met node parent id verdict up _ ih =>
    rw [resolveNode_of_goesOn verdict up]
    have above := ih missing parent.templateVariables (inherited.merge node.body.fixedVariables)
    rcases parents : resolveNode c maxDepth (visit met node) (.template parent)
      parent.templateVariables (inherited.merge node.body.fixedVariables) with ⟨outcome, surfaced⟩
    rw [parents] at above
    obtain rfl := above
    rfl

/-- What becomes of a node depends on the first entry of each id that its walk looks up. So it stays
as it is when entries under other ids are edited, removed, added or put in another order, and when
entries are added behind all others, unless a template of the chain was missing. -/
theorem resolution_within_reach (c : Catalogue) (maxDepth : Nat) (node : Resolvable)
    (exposed : List TemplateVariable) (inherited : OverrideSet) :
    (∀ d : Catalogue, (∀ id, c.LooksUp maxDepth [] node id → d.find? id = c.find? id) →
      d.resolution maxDepth node exposed inherited = c.resolution maxDepth node exposed inherited) ∧
    (∀ d : Catalogue, (∀ id, c.LooksUp maxDepth [] node id →
        d.filter (·.id == id) = c.filter (·.id == id)) →
      d.resolution maxDepth node exposed inherited = c.resolution maxDepth node exposed inherited) ∧
    ∀ more, (c.resolution maxDepth node exposed inherited).1 ≠ .ok none →
      Catalogue.resolution (c ++ more) maxDepth node exposed inherited =
        c.resolution maxDepth node exposed inherited := by
  have alike (d : Catalogue) (same : ∀ id, c.LooksUp maxDepth [] node id → d.find? id = c.find? id) :
      d.resolution maxDepth node exposed inherited = c.resolution maxDepth node exposed inherited :=
    resolveNode_eq_of_looksUp same exposed inherited
  refine ⟨alike, fun d same => alike d fun id asked => ?others, fun more there =>
    alike _ fun id asked => ?behind⟩
  case others => rw [find?, find?, ← List.head?_filter, ← List.head?_filter, same id asked]
  case behind =>
    cases found : c.find? id with
    | none => exact absurd (dangling_of_looksUp asked found exposed inherited) there
    | some t =>
      rw [find?] at found ⊢
      rw [List.find?_append, found, Option.some_or]

def clientTemplate : ApplicationTemplate := { id := "client", app := .fromTemplate "server" }

def serverTemplate : ApplicationTemplate := { id := "server", app := .forApplication "serverd" }

def chained : Catalogue := [clientTemplate, serverTemplate]

/-- The chain in another order, with one template more. A second entry of an id does not count. -/
def rearranged : Catalogue :=
  [serverTemplate, { id := "spare" }, clientTemplate,
    { id := "server", app := .fromTemplate "client" }]

theorem resolution_within_reach_rearranged :
    rearranged.resolution 64 (.application (.fromTemplate "client")) [] .empty =
      chained.resolution 64 (.application (.fromTemplate "client")) [] .empty ∧
    rearranged.resolution 64 (.application (.fromTemplate "client")) [] .empty =
      (.ok (some (.forApplication "serverd")), []) := by
  constructor
  · apply (resolution_within_reach chained 64 (.application (.fromTemplate "client")) [] .empty).1
    intro id asked
    cases asked with
    | here _ named =>
      obtain rfl : "client" = id := Option.some.inj named
      rfl
    | above _ up later =>
      obtain rfl := Option.some.inj (show some clientTemplate = _ from up)
      cases later with
      | here _ named =>
        obtain rfl : "server" = id := Option.some.inj named
        rfl
      | above _ up later =>
        obtain rfl := Option.some.inj (show some serverTemplate = _ from up)
        cases later with
        | here _ named => contradiction
        | above _ up => contradiction
  · rw [resolution, resolveNode_of_goesOn rfl (show _ = some clientTemplate from rfl),
      resolveNode_of_goesOn rfl (show _ = some serverTemplate from rfl),
      resolveNode_of_verdict (show _ = some .complete from rfl)]
    rfl

end Resolution
end ProductTemplates
