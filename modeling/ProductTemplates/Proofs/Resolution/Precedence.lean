import ProductTemplates.Proofs.Resolution.Completion
import ProductTemplates.Proofs.Resolution.Surfacing

/-! Whether an id that the templates of a chain ask for is seen as free. What counts is the template
nearest the leaf that asks for it: what is fixed up to there hides it, what is fixed above does
not. -/
namespace ProductTemplates

/-- Whether an application fixes a value for an id. -/
def Application.Fixes (a : Application) (id : String) : Prop := ∃ v ∈ a.fixedVariables, v.id = id

instance (a : Application) (id : String) : Decidable (a.Fixes id) :=
  inferInstanceAs (Decidable (∃ v ∈ a.fixedVariables, v.id = id))

def ApplicationTemplate.Declares (t : ApplicationTemplate) (id : String) : Prop :=
  ∃ v ∈ t.templateVariables, v.id = id

instance (t : ApplicationTemplate) (id : String) : Decidable (t.Declares id) :=
  inferInstanceAs (Decidable (∃ v ∈ t.templateVariables, v.id = id))

namespace Resolution

variable {c : Catalogue} {maxDepth : Nat} {node : Resolvable} {exposed : List TemplateVariable}
  {inherited : OverrideSet} {leaf : Application} {above nearer farther : List ApplicationTemplate}
  {t : ApplicationTemplate} {levels more : List Application} {id : String}

def FixedBy (inherited : OverrideSet) (levels : List Application) (id : String) : Prop :=
  inherited.contains id = true ∨ ∃ level ∈ levels, level.Fixes id

instance (inherited : OverrideSet) (levels : List Application) (id : String) :
    Decidable (FixedBy inherited levels id) :=
  inferInstanceAs (Decidable (inherited.contains id = true ∨ ∃ level ∈ levels, level.Fixes id))

/-- Whether a template asks for an id that neither it nor a level below it fixes. -/
def OpenAlong (inherited : OverrideSet) (leaf : Application) (above : List ApplicationTemplate)
    (id : String) : Prop :=
  ∃ nearer t farther, above = nearer ++ t :: farther ∧ t.Declares id ∧
    ¬ FixedBy inherited (leaf :: (nearer ++ [t]).map (·.app)) id

theorem FixedBy.mono (h : FixedBy inherited levels id) (subset : levels ⊆ more) :
    FixedBy inherited more id := by
  rcases h with old | ⟨level, member, fixes⟩
  · exact .inl old
  · exact .inr ⟨level, subset member, fixes⟩

theorem fixedBy_append :
    FixedBy inherited (levels ++ more) id ↔
      FixedBy inherited levels id ∨ ∃ level ∈ more, level.Fixes id := by
  simp only [FixedBy, List.mem_append, or_and_right, exists_or, or_assoc]

theorem contains_merge_flatMap_iff :
    (inherited.merge (levels.flatMap (·.fixedVariables))).contains id = true ↔
      FixedBy inherited levels id := by
  have offered : (∃ v ∈ levels.flatMap (·.fixedVariables), v.id = id) ↔
      ∃ level ∈ levels, level.Fixes id := by
    simp only [List.mem_flatMap, Application.Fixes]
    constructor
    · rintro ⟨v, ⟨level, member, fixes⟩, same⟩
      exact ⟨level, member, v, fixes, same⟩
    · rintro ⟨level, member, v, fixes, same⟩
      exact ⟨v, ⟨level, member, fixes⟩, same⟩
  rw [OverrideSet.contains_merge_iff, offered, FixedBy]

theorem contains_merge_iff_fixedBy :
    (inherited.merge leaf.fixedVariables).contains id = true ↔ FixedBy inherited [leaf] id := by
  rw [← contains_merge_flatMap_iff, List.flatMap_singleton]

theorem fixedBy_merge_iff :
    FixedBy (inherited.merge leaf.fixedVariables) levels id ↔
      FixedBy inherited (leaf :: levels) id := by
  rw [FixedBy, contains_merge_iff_fixedBy, ← List.singleton_append (l := levels), fixedBy_append]

/-- The first template asks for an id in vain, or one further up with the first as a leaf. -/
theorem openAlong_cons {next : ApplicationTemplate} :
    OpenAlong inherited leaf (next :: above) id ↔
      (next.Declares id ∧ ¬ FixedBy inherited [leaf, next.app] id) ∨
        OpenAlong (inherited.merge leaf.fixedVariables) next.app above id := by
  constructor
  · rintro ⟨nearer, t, farther, split, declares, unfixed⟩
    cases nearer with
    | nil =>
      obtain ⟨rfl, rfl⟩ := List.cons.inj split
      exact .inl ⟨declares, unfixed⟩
    | cons first nearer =>
      obtain ⟨rfl, rfl⟩ := List.cons.inj split
      exact .inr ⟨nearer, t, farther, rfl, declares, mt fixedBy_merge_iff.1 unfixed⟩
  · rintro (⟨declares, unfixed⟩ | ⟨nearer, t, farther, rfl, declares, unfixed⟩)
    · exact ⟨[], next, above, rfl, declares, unfixed⟩
    · exact ⟨next :: nearer, t, farther, rfl, declares, mt fixedBy_merge_iff.2 unfixed⟩

theorem exists_free_iff :
    (∃ v ∈ freeAlong inherited leaf above, v.id = id) ↔ OpenAlong inherited leaf above id := by
  induction above generalizing inherited leaf with
  | nil => simp [freeAlong, settledAbove, OpenAlong]
  | cons next above ih =>
    have here : (∃ v ∈ next.templateVariables.filter fun v => !((inherited.merge
        leaf.fixedVariables).merge next.app.fixedVariables).contains v.id, v.id = id) ↔
        next.Declares id ∧ ¬ FixedBy inherited [leaf, next.app] id := by
      rw [← fixedBy_merge_iff, ← contains_merge_iff_fixedBy]
      constructor
      · rintro ⟨v, member, rfl⟩
        obtain ⟨declared, unfixed⟩ := List.mem_filter.1 member
        exact ⟨⟨v, declared, rfl⟩, by simpa using unfixed⟩
      · rintro ⟨⟨v, declared, rfl⟩, unfixed⟩
        exact ⟨v, List.mem_filter.2 ⟨declared, by simpa using unfixed⟩, rfl⟩
    simp only [freeAlong_cons, List.mem_append, or_and_right, exists_or, here, ih, openAlong_cons]

/-- The ids that a caller sees: what is left of its own list, and what is open above the node. -/
theorem Resolves.mem_after_iff {a : Application} {after : List TemplateVariable}
    (h : Resolves c node exposed inherited a after) :
    ∃ above, c.Lineage node above ∧ ∀ id, id ∈ after.map (·.id) ↔
      (id ∈ exposed.map (·.id) ∧ (node.identity.isSome → ¬ FixedBy inherited [node.body] id)) ∨
        (id ∉ exposed.map (·.id) ∧ OpenAlong inherited node.body above id) := by
  obtain ⟨above, lineage, rfl⟩ := h.after_eq
  refine ⟨above, lineage, fun id => ?_⟩
  have own : id ∈ (withdraw node (inherited.merge node.body.fixedVariables) exposed).map (·.id) ↔
      id ∈ exposed.map (·.id) ∧ (node.identity.isSome → ¬ FixedBy inherited [node.body] id) := by
    rw [← contains_merge_iff_fixedBy]
    unfold withdraw
    cases node.identity with
    | none => simp
    | some _ =>
      simp only [Option.isSome_some, if_true, List.mem_map, List.mem_filter]
      constructor
      · rintro ⟨v, ⟨listed, unfixed⟩, rfl⟩
        exact ⟨⟨v, listed, rfl⟩, fun _ => by simpa using unfixed⟩
      · rintro ⟨⟨v, listed, rfl⟩, unfixed⟩
        exact ⟨v, ⟨listed, by simpa using unfixed⟩, rfl⟩
  have new : id ∈ (surfacing inherited node.body above exposed).map (·.id) ↔
      id ∉ exposed.map (·.id) ∧ OpenAlong inherited node.body above id := by
    rw [← exists_free_iff, List.mem_map]
    exact key_mem_firsts_iff
  rw [List.map_append, List.mem_append, own, new]

theorem OpenAlong.unfixed (h : OpenAlong inherited leaf above id) :
    ¬ FixedBy inherited [leaf] id := by
  obtain ⟨nearer, t, farther, -, -, unfixed⟩ := h
  exact fun fixed => unfixed (fixed.mono (by simp))

/-- An id is open if it is not fixed up to the nearest template that asks for it. -/
theorem openAlong_iff_of_nearest (declares : t.Declares id)
    (nearest : ∀ s ∈ nearer, ¬ s.Declares id) :
    OpenAlong inherited leaf (nearer ++ t :: farther) id ↔
      ¬ FixedBy inherited (leaf :: (nearer ++ [t]).map (·.app)) id := by
  induction nearer generalizing inherited leaf with
  | nil =>
    refine ⟨fun isOpen => ?_, fun unfixed => ⟨[], t, farther, rfl, declares, unfixed⟩⟩
    rcases openAlong_cons.1 isOpen with here | later
    · exact here.2
    · exact mt fixedBy_merge_iff.2 later.unfixed
  | cons next nearer ih =>
    rw [List.forall_mem_cons] at nearest
    rw [List.cons_append, openAlong_cons, ih nearest.2, fixedBy_merge_iff,
      or_iff_right fun here => nearest.1 here.1]
    rfl

theorem exists_nearest {p : ApplicationTemplate → Prop} (h : ∃ t ∈ above, p t) :
    ∃ nearer t farther, above = nearer ++ t :: farther ∧ p t ∧ ∀ s ∈ nearer, ¬ p s := by
  classical
  obtain ⟨t, member, has⟩ := h
  obtain ⟨first, found⟩ : ∃ first, above.find? (fun t => decide (p t)) = some first :=
    Option.isSome_iff_exists.1 (List.find?_isSome.2 ⟨t, member, decide_eq_true has⟩)
  obtain ⟨holds, nearer, farther, split, before⟩ := List.find?_eq_some_iff_append.1 found
  exact ⟨nearer, first, farther, split, of_decide_eq_true holds, by simpa using before⟩

/-- An id that the templates above a bare application ask for is seen exactly if it is not fixed up
to the nearest of them. That is the same as being fixed nowhere exactly if it is fixed up to there,
or no template further up fixes it. -/
theorem resolution_precedence {app a : Application} {after : List TemplateVariable}
    (h : c.resolution maxDepth (.application app) [] inherited = (.ok (some a), after)) :
    ∃ above, c.Lineage (.application app) above ∧ ∀ id, (∃ t ∈ above, t.Declares id) →
      ∃ nearer t farther, above = nearer ++ t :: farther ∧
        t.Declares id ∧ (∀ s ∈ nearer, ¬ s.Declares id) ∧
        (id ∈ after.map (·.id) ↔ ¬ FixedBy inherited (app :: (nearer ++ [t]).map (·.app)) id) ∧
        ((id ∈ after.map (·.id) ↔ ¬ FixedBy inherited (app :: above.map (·.app)) id) ↔
          FixedBy inherited (app :: (nearer ++ [t]).map (·.app)) id ∨
            ∀ s ∈ farther, ¬ s.app.Fixes id) := by
  obtain ⟨above, lineage, seen⟩ := (resolves_of_resolveNode [] _ [] inherited h).mem_after_iff
  refine ⟨above, lineage, fun id asked => ?_⟩
  obtain ⟨nearer, t, farther, rfl, declares, nearest⟩ := exists_nearest asked
  have visible : id ∈ after.map (·.id) ↔
      ¬ FixedBy inherited (app :: (nearer ++ [t]).map (·.app)) id := by
    rw [seen, Resolvable.body_application, openAlong_iff_of_nearest declares nearest]
    simp
  have levels : app :: (nearer ++ t :: farther).map (·.app) =
      (app :: (nearer ++ [t]).map (·.app)) ++ farther.map (·.app) := by simp
  have somewhere : FixedBy inherited (app :: (nearer ++ t :: farther).map (·.app)) id ↔
      FixedBy inherited (app :: (nearer ++ [t]).map (·.app)) id ∨
        ∃ s ∈ farther, s.app.Fixes id := by
    rw [levels, fixedBy_append]
    simp
  refine ⟨nearer, t, farther, rfl, declares, nearest, visible, ?_⟩
  rw [visible, somewhere, not_or]
  push Not
  tauto

/-- A client that asks for the port of the server it is based on, which is fixed there. -/
def portTemplates : Catalogue :=
  [{ id := "client"
     app := { template := some "server" }
     templateVariables := [{ id := "port" }] },
   { id := "server"
     app := { application := some "serverd", fixedVariables := [⟨"port", "80"⟩] } }]

theorem resolution_precedence_port :
    ∃ a after nearer t farther,
      portTemplates.resolution 64 (.application (.fromTemplate "client")) [] .empty =
        (.ok (some a), after) ∧
      portTemplates.Lineage (.application (.fromTemplate "client")) (nearer ++ t :: farther) ∧
      t.Declares "port" ∧ "port" ∈ after.map (·.id) ∧
      ¬ FixedBy .empty (.fromTemplate "client" :: (nearer ++ [t]).map (·.app)) "port" ∧
      ∃ s ∈ farther, s.app.Fixes "port" := by
  have h : portTemplates.resolution 64 (.application (.fromTemplate "client")) [] .empty =
      (.ok (some { application := some "serverd" }), [{ id := "port" }]) := by
    rw [Catalogue.resolution, resolveNode_of_goesOn rfl (show _ = some portTemplates[0] from rfl),
      resolveNode_of_goesOn rfl (show _ = some portTemplates[1] from rfl),
      resolveNode_of_verdict (show _ = some .complete from rfl)]
    rfl
  have chain : portTemplates.Lineage (.application (.fromTemplate "client")) portTemplates :=
    .step rfl (.step rfl (.root rfl))
  obtain ⟨above, lineage, precedence⟩ := resolution_precedence h
  obtain rfl := lineage.unique chain
  obtain ⟨nearer, t, farther, split, declares, -, seen, total⟩ :=
    precedence "port" (by decide)
  have there : "port" ∈ ([{ id := "port" }] : List TemplateVariable).map (·.id) := by decide
  have fixed : FixedBy .empty (.fromTemplate "client" :: portTemplates.map (·.app)) "port" := by
    decide
  refine ⟨_, _, nearer, t, farther, h, split ▸ lineage, declares, there, seen.1 there, ?_⟩
  by_contra unfixed
  exact total.2 (.inr fun s member fixes => unfixed ⟨s, member, fixes⟩) |>.1 there fixed

end Resolution
end ProductTemplates
