import ProductTemplates.Proofs.Resolution.Reach

/-! Walks that complete, so that an application comes about. What completes below completes from
each template above it, with fewer ids met, and in any catalogue that has the same templates along
the way. -/
namespace ProductTemplates

namespace Catalogue

variable {c d : Catalogue} {maxDepth : Nat} {met fewer : List String} {node : Resolvable}
  {above : List ApplicationTemplate} {t : ApplicationTemplate}

/-- A walk that completes, with the templates it leads through. -/
inductive Completes (c : Catalogue) (maxDepth : Nat) :
    List String → Resolvable → List ApplicationTemplate → Prop where
  | root {met : List String} {node : Resolvable} :
      c.verdict? maxDepth met node = some .complete → Completes c maxDepth met node []
  | step {met : List String} {node : Resolvable} {parent : ApplicationTemplate}
      {above : List ApplicationTemplate} : c.verdict? maxDepth met node = none →
      c.parent? node = some parent →
      Completes c maxDepth (Resolution.visit met node) (.template parent) above →
      Completes c maxDepth met node (parent :: above)

/-- Whether an application comes about, whoever asks for it. -/
def resolves (c : Catalogue) (maxDepth : Nat) (node : Resolvable) : Bool :=
  match (c.resolution maxDepth node [] .empty).1 with
  | .ok (some _) => true
  | _ => false

theorem Completes.lineage (h : c.Completes maxDepth met node above) : c.Lineage node above := by
  induction h with
  | root verdict => exact .root (verdict?_eq_complete_iff.1 verdict).2.2.2
  | step _ up _ ih => exact .step up ih

theorem Completes.shallow (h : c.Completes maxDepth met node above) :
    (Resolution.visit met node).length ≤ maxDepth := by
  cases h with
  | root verdict => exact (verdict?_eq_complete_iff.1 verdict).2.1
  | step verdict => exact (verdict?_eq_none_iff.1 verdict).2.1

theorem Lineage.unique {other : List ApplicationTemplate} (h : c.Lineage node above)
    (h' : c.Lineage node other) : above = other := by
  induction h generalizing other with
  | root rootless =>
    cases h' with
    | root => rfl
    | step up => simp [parent?, rootless] at up
  | step up _ ih =>
    cases h' with
    | root rootless => simp [parent?, rootless] at up
    | step up' rest =>
      obtain rfl := Option.some.inj (up.symm.trans up')
      rw [ih rest]

theorem find?_of_lineage (h : c.Lineage node above) (member : t ∈ above) :
    c.find? t.id = some t := by
  induction h with
  | root => contradiction
  | step up _ ih =>
    rcases List.mem_cons.1 member with rfl | later
    · exact (template_of_parent? up).2
    · exact ih later

theorem visit_sublist (h : fewer.Sublist met) :
    (Resolution.visit fewer node).Sublist (Resolution.visit met node) := h.append_right _

/-- With fewer ids met there are fewer cycles and more room. -/
theorem Completes.mono (h : c.Completes maxDepth met node above) (less : fewer.Sublist met) :
    c.Completes maxDepth fewer node above := by
  induction h generalizing fewer with
  | root verdict =>
    obtain ⟨fresh, shallow, starts, rootless⟩ := verdict?_eq_complete_iff.1 verdict
    refine .root (verdict?_eq_complete_iff.2 ⟨fun own isOwn old => ?_, ?_, starts, rootless⟩)
    · exact fresh own isOwn (less.subset old)
    · exact (visit_sublist less).length_le.trans shallow
  | step verdict up _ ih =>
    obtain ⟨fresh, shallow, there⟩ := verdict?_eq_none_iff.1 verdict
    refine .step (verdict?_eq_none_iff.2 ⟨fun own isOwn old => ?_, ?_, there⟩) up
      (ih (visit_sublist less))
    · exact fresh own isOwn (less.subset old)
    · exact (visit_sublist less).length_le.trans shallow

/-- Every template on the way of a walk that completes is the start of one. -/
theorem Completes.of_mem (h : c.Completes maxDepth met node above) (member : t ∈ above) :
    ∃ further, c.Completes maxDepth [] (.template t) further := by
  induction h with
  | root => contradiction
  | step _ _ rest ih =>
    rcases List.mem_cons.1 member with rfl | later
    · exact ⟨_, rest.mono (List.nil_sublist _)⟩
    · exact ih later

theorem Completes.mem_of_looksUp {id : String} (h : c.Completes maxDepth met node above)
    (asked : c.LooksUp maxDepth met node id) : ∃ t ∈ above, t.id = id := by
  induction asked generalizing above with
  | here _ named =>
    cases h with
    | root verdict => simp [(verdict?_eq_complete_iff.1 verdict).2.2.2] at named
    | step _ up =>
      have same := (template_of_parent? up).1
      exact ⟨_, List.mem_cons_self, Option.some.inj (same.symm.trans named)⟩
  | above verdict up _ ih =>
    cases h with
    | root complete => simp [verdict] at complete
    | step _ up' rest =>
      obtain rfl := Option.some.inj (up.symm.trans up')
      obtain ⟨t, member, same⟩ := ih rest
      exact ⟨t, List.mem_cons_of_mem _ member, same⟩

end Catalogue

namespace Resolution

open Catalogue

variable {c d : Catalogue} {maxDepth : Nat} {met : List String} {node : Resolvable}
  {above : List ApplicationTemplate} {exposed : List TemplateVariable} {inherited : OverrideSet}
  {a : Application}

/-- An application comes about exactly if the walk completes, whatever is fixed and exposed. -/
theorem exists_resolveNode_iff (exposed : List TemplateVariable) (inherited : OverrideSet) :
    (∃ a, (resolveNode c maxDepth met node exposed inherited).1 = .ok (some a)) ↔
      ∃ above, c.Completes maxDepth met node above := by
  induction met, node using walk_induction c maxDepth generalizing exposed inherited with
  | ends met node ending verdict =>
    rw [resolveNode_of_verdict verdict]
    constructor
    · rintro ⟨a, outcome⟩
      cases ending with
      | refused | dangling => simp [conclude] at outcome
      | complete => exact ⟨[], .root verdict⟩
    · rintro ⟨above, completes⟩
      cases completes with
      | root verdict' =>
        obtain rfl := Option.some.inj (verdict.symm.trans verdict')
        exact ⟨_, rfl⟩
      | step goesOn => simp [verdict] at goesOn
  | goesOn met node parent verdict up ih =>
    rw [resolveNode_of_goesOn verdict up]
    have rest := ih parent.templateVariables (inherited.merge node.body.fixedVariables)
    constructor
    · rintro ⟨a, outcome⟩
      rcases parents : resolveNode c maxDepth (visit met node) (.template parent)
        parent.templateVariables (inherited.merge node.body.fixedVariables) with
        ⟨_ | _ | upper, surfaced⟩
      · simp [parents, passOn] at outcome
      · simp [parents, passOn] at outcome
      · obtain ⟨above, completes⟩ := rest.1 ⟨upper, by rw [parents]⟩
        exact ⟨parent :: above, .step verdict up completes⟩
    · rintro ⟨above, completes⟩
      cases completes with
      | root verdict' => simp [verdict] at verdict'
      | step _ up' completes =>
        obtain rfl := Option.some.inj (up.symm.trans up')
        obtain ⟨upper, outcome⟩ := rest.2 ⟨_, completes⟩
        rcases parents : resolveNode c maxDepth (visit met node) (.template parent)
          parent.templateVariables (inherited.merge node.body.fixedVariables) with ⟨_, surfaced⟩
        rw [parents] at outcome
        obtain rfl := outcome
        exact ⟨_, rfl⟩

/-- What is exposed does not matter to what becomes of a node. -/
theorem resolveNode_outcome (exposed others : List TemplateVariable) :
    (resolveNode c maxDepth met node exposed inherited).1 =
      (resolveNode c maxDepth met node others inherited).1 := by
  cases verdict : c.verdict? maxDepth met node with
  | some ending =>
    rw [resolveNode_of_verdict verdict, resolveNode_of_verdict verdict]
    cases ending <;> rfl
  | none =>
    obtain ⟨-, -, parent, up⟩ := verdict?_eq_none_iff.1 verdict
    rw [resolveNode_of_goesOn verdict up, resolveNode_of_goesOn verdict up]
    rcases resolveNode c maxDepth (visit met node) (.template parent) parent.templateVariables
      (inherited.merge node.body.fixedVariables) with ⟨_ | _ | above, surfaced⟩ <;> rfl

theorem resolves_eq (node : Resolvable) (exposed : List TemplateVariable) :
    c.resolves maxDepth node = match (c.resolution maxDepth node exposed .empty).1 with
      | .ok (some _) => true
      | _ => false := by
  rw [resolves, resolution, resolution, resolveNode_outcome [] exposed]

theorem resolves_iff : c.resolves maxDepth node = true ↔ ∃ above, c.Completes maxDepth [] node above := by
  rw [← exists_resolveNode_iff [] .empty]
  unfold resolves resolution
  split
  · next a outcome => simp [outcome]
  · next other => simpa using fun a outcome => other a outcome

/-- A walk that completes gives the same in any catalogue with the templates on its way. -/
theorem resolveNode_transfer (h : c.Completes maxDepth met node above)
    (same : ∀ t ∈ above, d.find? t.id = some t) :
    resolveNode d maxDepth met node exposed inherited =
      resolveNode c maxDepth met node exposed inherited := by
  apply resolveNode_eq_of_looksUp
  intro id asked
  obtain ⟨t, member, rfl⟩ := h.mem_of_looksUp asked
  rw [same t member, find?_of_lineage h.lineage member]

theorem Resolves.fixedVariables_eq {after : List TemplateVariable}
    (h : Resolves c node exposed inherited a after) :
    a.fixedVariables = node.body.fixedVariables := by
  cases h with
  | root => rfl
  | step => rfl

theorem isResolved_of_completes {after : List TemplateVariable}
    (completes : c.Completes maxDepth met node above)
    (h : Resolves c node exposed inherited a after) : a.isResolved = true := by
  induction completes generalizing exposed inherited a after with
  | root verdict =>
    obtain ⟨-, -, starts, rootless⟩ := verdict?_eq_complete_iff.1 verdict
    cases h with
    | root => simp [Application.isResolved, Application.fillIn, starts, rootless]
    | step up => simp [parent?, rootless] at up
  | step _ up _ ih =>
    cases h with
    | root rootless => simp [parent?, rootless] at up
    | step found upper =>
      obtain rfl := Option.some.inj (up.symm.trans found)
      have starts := ih upper
      simp only [Application.isResolved, Bool.and_eq_true] at starts
      have either : ∀ x y : Option String, y.isSome = true → (x <|> y).isSome = true := by
        intro x y there
        cases x with
        | none => exact there
        | some => rfl
      simp only [Application.isResolved, Application.inherit, Option.isNone_none, Bool.true_and]
      exact either _ _ starts.2

theorem came_about {after : List TemplateVariable}
    (h : resolveNode c maxDepth met node exposed inherited = (.ok (some a), after)) :
    ∃ above, c.Completes maxDepth met node above ∧ Resolves c node exposed inherited a after ∧
      a.isResolved = true := by
  have resolves := resolves_of_resolveNode met node exposed inherited h
  obtain ⟨above, completes⟩ := (exists_resolveNode_iff exposed inherited).1 ⟨a, by rw [h]⟩
  exact ⟨above, completes, resolves, isResolved_of_completes completes resolves⟩

/-- What has been resolved is resolved to itself, with its own values filled in once more. -/
theorem resolveNode_of_isResolved (resolved : node.body.isResolved = true)
    (fresh : ∀ own ∈ node.identity, own ∉ met) (shallow : (visit met node).length ≤ maxDepth) :
    resolveNode c maxDepth met node exposed inherited =
      (.ok (some (node.body.fillIn (inherited.merge node.body.fixedVariables))),
        withdraw node (inherited.merge node.body.fixedVariables) exposed) := by
  simp only [Application.isResolved, Bool.and_eq_true, Option.isNone_iff_eq_none] at resolved
  exact resolveNode_of_verdict (verdict?_eq_complete_iff.2 ⟨fresh, shallow, resolved.2, resolved.1⟩)

end Resolution
end ProductTemplates
