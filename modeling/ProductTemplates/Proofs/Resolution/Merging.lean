import ProductTemplates.Proofs.Application
import ProductTemplates.Proofs.Resolution.Walk

/-! The application that resolving returns, read off the levels of its chain without recursion: the
first level that says something counts, and texts are filled with what is fixed up to the level
that they come from. -/
namespace ProductTemplates.Resolution

open Catalogue

variable {c : Catalogue} {maxDepth : Nat} {node : Resolvable} {exposed : List TemplateVariable}
  {inherited : OverrideSet}

/-- The start parameters of a level with fixed values filled in. -/
def filledParameters (level : Application) (fixed : OverrideSet) : List StartParameter :=
  level.startParameters.map fun p => { p with value := p.value.map fixed.apply }

/-- An application as it follows from a leaf, the levels above it and what the caller fixes. -/
structure Flattened (inherited : OverrideSet) (leaf : Application) (above : List Application)
    (a : Application) : Prop where
  template : a.template = none
  application : a.application = (leaf :: above).findSome? (·.application)
  description : a.description = (leaf :: above).findSome? (·.description)
  preferredControlGroup :
    a.preferredControlGroup = (leaf :: above).findSome? (·.preferredControlGroup)
  name : a.name = ((leaf :: above).zip (setsAlong inherited (leaf :: above))).findSome?
    fun (level, fixed) => level.name.map fixed.apply
  processControl : ∀ key,
    a.processControl.get? key = (leaf :: above).findSome? (·.processControl.get? key)
  startParameters : a.startParameters =
    filledParameters leaf (inherited.merge leaf.fixedVariables) ++
      firsts (·.id) (leaf.startParameters.map (·.id))
        ((above.zip (setsAlong inherited (leaf :: above)).tail).flatMap
          fun (level, fixed) => filledParameters level fixed)
  fixedVariables : a.fixedVariables = leaf.fixedVariables

theorem findSome?_cons_or {α β : Type} (f : α → Option β) (x : α) (xs : List α) :
    (x :: xs).findSome? f = (f x <|> xs.findSome? f) := by
  cases h : f x <;> simp [h]

@[simp] theorem ids_filledParameters (level : Application) (fixed : OverrideSet) :
    (filledParameters level fixed).map (·.id) = level.startParameters.map (·.id) := by
  simp [filledParameters, Function.comp_def]

/-- Filling gaps from a level that was itself filled takes the first entry of each new id. -/
theorem joinParameters_filled (leaf next : Application) (fixed fixed' : OverrideSet)
    (rest : List StartParameter) :
    Application.joinParameters (filledParameters leaf fixed)
        (filledParameters next fixed' ++
          firsts (·.id) (next.startParameters.map (·.id)) rest) =
      filledParameters leaf fixed ++
        firsts (·.id) (leaf.startParameters.map (·.id)) (filledParameters next fixed' ++ rest) := by
  rw [Application.joinParameters_eq, ids_filledParameters, firsts_append, firsts_append,
    ids_filledParameters, firsts_firsts]
  exact fun p _ old => List.mem_append_right _ old

theorem flattened_root (rootless : node.body.template = none) (inherited : OverrideSet) :
    Flattened inherited node.body []
      (node.body.fillIn (inherited.merge node.body.fixedVariables)) := by
  constructor
  case template => simpa [Application.fillIn] using rootless
  all_goals simp [Application.fillIn, setsAlong_cons, filledParameters]

/-- Filling gaps from a flattened chain flattens the chain with a leaf below it. -/
theorem flattened_step {leaf next : Application} {rest : List Application} {a : Application}
    (upper : Flattened (inherited.merge leaf.fixedVariables) next rest a) :
    Flattened inherited leaf (next :: rest)
      ((leaf.fillIn (inherited.merge leaf.fixedVariables)).inherit a) := by
  constructor
  case template => rfl
  case fixedVariables => rfl
  case application => rw [findSome?_cons_or, ← upper.application]; rfl
  case description => rw [findSome?_cons_or, ← upper.description]; rfl
  case preferredControlGroup => rw [findSome?_cons_or, ← upper.preferredControlGroup]; rfl
  case name =>
    rw [setsAlong_cons, List.zip_cons_cons, findSome?_cons_or, ← upper.name]
    rfl
  case processControl =>
    intro key
    rw [findSome?_cons_or, ← upper.processControl key]
    exact Dictionary.get?_fill ..
  case startParameters =>
    have params := upper.startParameters
    rw [setsAlong_cons, List.tail_cons] at params
    rw [setsAlong_cons, List.tail_cons, setsAlong_cons, List.zip_cons_cons, List.flatMap_cons,
      ← joinParameters_filled, ← params]
    rfl

theorem Resolves.flattened {a : Application} {after : List TemplateVariable}
    (h : Resolves c node exposed inherited a after) :
    ∃ above, c.Lineage node above ∧ Flattened inherited node.body (above.map (·.app)) a := by
  induction h with
  | root rootless => exact ⟨[], .root rootless, flattened_root rootless _⟩
  | step up _ ih =>
    obtain ⟨above, lineage, upper⟩ := ih
    exact ⟨_ :: above, .step up lineage, flattened_step upper⟩

/-- A resolved application is its chain flattened, the first level that says something winning; so
are the values that fill its texts. -/
theorem resolution_flattens {a : Application}
    (h : (c.resolution maxDepth node exposed inherited).1 = .ok (some a)) :
    ∃ above, c.Lineage node above ∧ Flattened inherited node.body (above.map (·.app)) a ∧
      ∀ i fixed, (setsAlong inherited (node.body :: above.map (·.app)))[i]? = some fixed →
        ∀ id, fixed.get? id = (inherited.get? id).or
          ((((node.body :: above.map (·.app)).take (i + 1)).flatMap (·.fixedVariables)).find?
            (·.id == id) |>.map (·.value)) := by
  obtain ⟨above, lineage, flat⟩ :=
    (resolves_of_resolveNode [] node exposed inherited (Prod.ext h rfl)).flattened
  exact ⟨above, lineage, flat, fun _ _ level => get?_setsAlong level⟩

/-- A server that is based on a process, both with a port and both fixing the site. -/
def siteTemplates : Catalogue :=
  [{ id := "server"
     app :=
      { template := some "process"
        startParameters := [⟨"port", some "80"⟩, ⟨"port", some "81"⟩, ⟨"quiet", none⟩]
        fixedVariables := [⟨"site", "north"⟩] } },
   { id := "process"
     app :=
      { application := some "serverd"
        name := some "${site} ${unit}"
        startParameters := [⟨"port", some "82"⟩, ⟨"home", some "/srv/${site}"⟩]
        fixedVariables := [⟨"site", "south"⟩, ⟨"unit", "1"⟩] } }]

theorem resolution_flattens_site :
    ∃ a above, (siteTemplates.resolution 64 (.application (.fromTemplate "server")) [] .empty).1 =
        .ok (some a) ∧
      Catalogue.Lineage siteTemplates (.application (.fromTemplate "server")) above ∧
      Flattened .empty (.fromTemplate "server") (above.map (·.app)) a := by
  have h : (siteTemplates.resolution 64 (.application (.fromTemplate "server")) [] .empty).1 =
      .ok (some
        { application := some "serverd"
          name := some "north 1"
          startParameters :=
            [⟨"port", some "80"⟩, ⟨"quiet", none⟩, ⟨"home", some "/srv/north"⟩] }) := by
    rw [Catalogue.resolution, resolveNode_of_goesOn rfl (show _ = some siteTemplates[0] from rfl),
      resolveNode_of_goesOn rfl (show _ = some siteTemplates[1] from rfl),
      resolveNode_of_verdict (show _ = some .complete from rfl)]
    with_unfolding_all rfl
  obtain ⟨above, lineage, flat, -⟩ := resolution_flattens h
  exact ⟨_, above, h, lineage, flat⟩

end ProductTemplates.Resolution
