import ProductTemplates.Application
import ProductTemplates.Proofs.Dictionary
import ProductTemplates.Proofs.Firsts

/-! Inheriting as an operation on applications. Options, the control settings and the start
parameters are completed by rules of their own, and for all of them only the order of the levels
counts, not how they are grouped. -/
namespace ProductTemplates.Application

variable {as bs : List StartParameter}

theorem joinParameters_eq (ours theirs : List StartParameter) :
    joinParameters ours theirs = ours ++ firsts (·.id) (ours.map (·.id)) theirs :=
  foldl_append_fresh

theorem joinParameters_append (as bs cs : List StartParameter) :
    joinParameters as (bs ++ cs) = joinParameters (joinParameters as bs) cs :=
  List.foldl_append ..

theorem joinParameters_assoc (as bs cs : List StartParameter) :
    joinParameters as (joinParameters bs cs) = joinParameters (joinParameters as bs) cs := by
  rw [← joinParameters_append, joinParameters_eq as, joinParameters_eq bs, joinParameters_eq as,
    firsts_append, firsts_append, firsts_firsts]
  exact fun p _ old => List.mem_append_right _ old

theorem joinParameters_again (as bs : List StartParameter) :
    joinParameters (joinParameters as bs) bs = joinParameters as bs := by
  have all : firsts (·.id) (as.map (·.id) ++ bs.map (·.id)) bs = [] :=
    firsts_of_taken fun p member => List.mem_append_right _ (List.mem_map_of_mem member)
  rw [← joinParameters_append, joinParameters_eq, joinParameters_eq, firsts_append, all,
    List.append_nil]

theorem find?_joinParameters (as bs : List StartParameter) (id : String) :
    (joinParameters as bs).find? (·.id == id) =
      (as.find? (·.id == id) <|> bs.find? (·.id == id)) := by
  rw [joinParameters_eq, List.find?_append]
  cases ours : as.find? (·.id == id) with
  | some p => rfl
  | none =>
    have fresh : id ∉ as.map (·.id) := by simpa using ours
    rw [find?_firsts fresh]
    rfl

theorem id_mem_joinParameters_iff {id : String} : id ∈ (joinParameters as bs).map (·.id) ↔
    id ∈ as.map (·.id) ∨ id ∈ bs.map (·.id) := by
  rw [joinParameters_eq, List.map_append, List.mem_append]
  by_cases known : id ∈ as.map (·.id)
  · simp [known]
  · rw [or_iff_right known, or_iff_right known, List.mem_map, List.mem_map]
    exact key_mem_firsts_iff.trans (and_iff_right known)

/-- Whether all that `a` says is said by `r` too, the reference to a template apart. -/
structure Keeps (a r : Application) : Prop where
  application : ∀ text ∈ a.application, r.application = some text
  name : ∀ text ∈ a.name, r.name = some text
  description : ∀ text ∈ a.description, r.description = some text
  preferredControlGroup : ∀ text ∈ a.preferredControlGroup, r.preferredControlGroup = some text
  processControl : ∀ key, ∀ v ∈ a.processControl.get? key, r.processControl.get? key = some v
  startParameters : a.startParameters <+: r.startParameters
  fixedVariables : r.fixedVariables = a.fixedVariables

/-- Whether `r` has from `b` what `a` does not say. -/
structure Fills (b a r : Application) : Prop where
  application : a.application = none → r.application = b.application
  name : a.name = none → r.name = b.name
  description : a.description = none → r.description = b.description
  preferredControlGroup :
    a.preferredControlGroup = none → r.preferredControlGroup = b.preferredControlGroup
  processControl : ∀ key, a.processControl.get? key = none →
    r.processControl.get? key = b.processControl.get? key
  startParameter : ∀ id, a.startParameter? id = none → r.startParameter? id = b.startParameter? id
  /-- No id is left out. -/
  complete : ∀ p ∈ b.startParameters, p.id ∈ r.startParameters.map (·.id)
  /-- No id is added twice, and none that is there. -/
  frugal : ∃ added, r.startParameters = a.startParameters ++ added ∧
    added.Sublist b.startParameters ∧ (added.map (·.id)).Nodup ∧
    ∀ p ∈ added, p.id ∉ a.startParameters.map (·.id)

theorem inherit_assoc (a b c : Application) :
    a.inherit (b.inherit c) = (a.inherit b).inherit c := by
  simp only [inherit, Option.orElse_eq_orElse, Option.orElse_eq_or, Option.or_assoc,
    Dictionary.fill_assoc, joinParameters_assoc]

theorem inherit_again (a b : Application) : (a.inherit b).inherit b = a.inherit b := by
  simp only [inherit, Option.orElse_eq_orElse, Option.orElse_eq_or, Option.or_assoc, Option.or_self,
    Dictionary.fill_fill_self, joinParameters_again]

theorem orElse_of_mem {α : Type} {ours : Option α} {v : α} (said : v ∈ ours) (theirs : Option α) :
    (ours <|> theirs) = some v := by
  obtain rfl : ours = some v := said
  rfl

theorem orElse_of_gap {α : Type} {ours : Option α} (gap : ours = none) (theirs : Option α) :
    (ours <|> theirs) = theirs := by
  subst gap
  rfl

theorem keeps_inherit (a b : Application) : a.Keeps (a.inherit b) where
  application _ said := orElse_of_mem said b.application
  name _ said := orElse_of_mem said b.name
  description _ said := orElse_of_mem said b.description
  preferredControlGroup _ said := orElse_of_mem said b.preferredControlGroup
  processControl key _ said :=
    (Dictionary.get?_fill _ _ key).trans (orElse_of_mem said (b.processControl.get? key))
  startParameters := by
    rw [inherit, joinParameters_eq]
    exact List.prefix_append _ _
  fixedVariables := rfl

theorem fills_inherit (a b : Application) : b.Fills a (a.inherit b) where
  application gap := orElse_of_gap gap b.application
  name gap := orElse_of_gap gap b.name
  description gap := orElse_of_gap gap b.description
  preferredControlGroup gap := orElse_of_gap gap b.preferredControlGroup
  processControl key gap :=
    (Dictionary.get?_fill _ _ key).trans (orElse_of_gap gap (b.processControl.get? key))
  startParameter id gap :=
    (find?_joinParameters _ _ id).trans (orElse_of_gap gap (b.startParameter? id))
  complete p member := id_mem_joinParameters_iff.2 (.inr (List.mem_map_of_mem member))
  frugal := by
    refine ⟨firsts (·.id) (a.startParameters.map (·.id)) b.startParameters, ?_, firsts_sublist,
      nodup_firsts, fun p added => key_of_mem_firsts added⟩
    exact joinParameters_eq _ _

/-- The levels of a chain may be grouped in any way, and a level that is there already adds nothing.
All that the nearer level says is kept but its reference, and what it does not say is filled. -/
theorem inherit_fills_gaps (a b c : Application) :
    a.inherit (b.inherit c) = (a.inherit b).inherit c ∧
      (a.inherit b).inherit b = a.inherit b ∧
      a.Keeps (a.inherit b) ∧ b.Fills a (a.inherit b) ∧ (a.inherit b).template = none :=
  ⟨inherit_assoc a b c, inherit_again a b, keeps_inherit a b, fills_inherit a b, rfl⟩

def namedWeb : Application := { template := some "server", name := some "Web" }

/-- The reference to the template is not kept, though it is said. -/
theorem namedWeb_template_dropped :
    ¬ ∀ text ∈ namedWeb.template,
      (namedWeb.inherit (.forApplication "serverd")).template = some text := by
  intro kept
  have reference := kept "server" rfl
  contradiction

end ProductTemplates.Application
