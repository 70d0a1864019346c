import ProductTemplates.Proofs.Placeholder
import ProductTemplates.Proofs.Resolution.Completion
import ProductTemplates.Proofs.Resolution.Surfacing

/-! Values filled into an application that came about, compared with values that were there when it
came about. In tidy texts it makes no difference, as long as the chain does not fix the same ids
before. -/
namespace ProductTemplates

open Catalogue

namespace Application

variable {a b : Application} {s t u : OverrideSet}

/-- Whether every dollar sign in the texts that values are filled into begins a token. -/
def IsTidy (a : Application) : Prop :=
  (∀ name ∈ a.name, Placeholder.IsTidy name.toList) ∧
    ∀ p ∈ a.startParameters, ∀ value ∈ p.value, Placeholder.IsTidy value.toList

instance (a : Application) : Decidable a.IsTidy :=
  inferInstanceAs (Decidable ((∀ name ∈ a.name, Placeholder.IsTidy name.toList) ∧
    ∀ p ∈ a.startParameters, ∀ value ∈ p.value, Placeholder.IsTidy value.toList))

def FixesPlainly (a : Application) : Prop := ∀ v ∈ a.fixedVariables, '$' ∉ v.value.toList

theorem joinParameters_cons (ours theirs : List StartParameter) (p : StartParameter) :
    joinParameters ours (p :: theirs) =
      joinParameters (if ours.any (·.id == p.id) then ours else ours ++ [p]) theirs := rfl

theorem joinParameters_map {f : StartParameter → StartParameter} (keeps : ∀ p, (f p).id = p.id)
    (ours theirs : List StartParameter) :
    (joinParameters ours theirs).map f = joinParameters (ours.map f) (theirs.map f) := by
  induction theirs generalizing ours with
  | nil => rfl
  | cons p rest ih =>
    have known : (ours.map f).any (·.id == (f p).id) = ours.any (·.id == p.id) := by
      simp [List.any_map, Function.comp_def, keeps]
    rw [List.map_cons, joinParameters_cons, joinParameters_cons, ih, known]
    split <;> simp

theorem fillIn_inherit (a b : Application) (s : OverrideSet) :
    (a.inherit b).fillIn s = (a.fillIn s).inherit (b.fillIn s) := by
  have name : (a.name <|> b.name).map s.apply = (a.name.map s.apply <|> b.name.map s.apply) := by
    cases a.name <;> rfl
  simp only [inherit, fillIn, name]
  congr 1
  exact joinParameters_map (f := fun p => { p with value := p.value.map s.apply }) (fun _ => rfl) _ _

theorem fillIn_fillIn (tidy : a.IsTidy) (plain : ∀ e ∈ s.entries, '$' ∉ e.value.toList)
    (both : ∀ id, (s.get? id).or (t.get? id) = u.get? id) :
    (a.fillIn s).fillIn t = a.fillIn u := by
  have name : (a.name.map s.apply).map t.apply = a.name.map u.apply := by
    rw [Option.map_map]
    apply Option.map_congr
    intro text is
    exact OverrideSet.apply_apply (tidy.1 text is) plain both
  simp only [fillIn, name, List.map_map]
  congr 1
  apply List.map_congr_left
  intro p member
  simp only [Function.comp_apply, Option.map_map, StartParameter.mk.injEq, true_and]
  apply Option.map_congr
  intro text is
  exact OverrideSet.apply_apply (tidy.2 p member text is) plain both

end Application

namespace Resolution

variable {c : Catalogue} {node : Resolvable} {above : List ApplicationTemplate}
  {exposed exposed' after after' : List TemplateVariable} {s s' t : OverrideSet}
  {a a' : Application} {parent : ApplicationTemplate}

/-- Filling values into what came about, instead of having them there from the start. -/
theorem Resolves.fillIn_eq (lineage : c.Lineage node above)
    (h : Resolves c node exposed s a after) (h' : Resolves c node exposed' s' a' after')
    (tidy : ∀ level ∈ node.body :: above.map (·.app), level.IsTidy)
    (plain : ∀ e ∈ (s.merge node.body.fixedVariables).entries, '$' ∉ e.value.toList)
    (plainAbove : ∀ upper ∈ above, upper.app.FixesPlainly)
    (both : ∀ id, ((s.merge node.body.fixedVariables).get? id).or (t.get? id) =
      (s'.merge node.body.fixedVariables).get? id)
    (apart : ∀ upper ∈ above, ∀ v ∈ upper.app.fixedVariables,
      (s.merge node.body.fixedVariables).contains v.id = true ∨ t.get? v.id = none) :
    a.fillIn t = a' := by
  induction lineage generalizing exposed exposed' s s' a a' after after' with
  | root rootless =>
    cases h with
    | step up => simp [parent?, rootless] at up
    | root =>
      cases h' with
      | step up => simp [parent?, rootless] at up
      | root => exact Application.fillIn_fillIn (tidy _ List.mem_cons_self) plain both
  | @step node parent above up lineage ih =>
    cases h with
    | root rootless => simp [parent?, rootless] at up
    | step found upper =>
      cases h' with
      | root rootless => simp [parent?, rootless] at up
      | step found' upper' =>
        obtain rfl := Option.some.inj (up.symm.trans found)
        obtain rfl := Option.some.inj (up.symm.trans found')
        rw [List.map_cons, List.forall_mem_cons] at tidy
        rw [List.forall_mem_cons] at plainAbove apart
        rw [Application.fillIn_inherit, Application.fillIn_fillIn tidy.1 plain both]
        congr 1
        refine ih upper upper' tidy.2 ?_ plainAbove.2 (fun id => ?_) fun t member v fixed => ?_
        · intro e member
          exact (OverrideSet.mem_entries_merge member).elim (plain e) (plainAbove.1 e)
        · -- an id that the parent fixes is fixed below it or has no value to fill in
          rw [Resolvable.body_template, OverrideSet.get?_merge, OverrideSet.get?_merge _ parent.app.fixedVariables,
            ← both id]
          cases offered : parent.app.fixedVariables.find? (·.id == id) with
          | none => simp
          | some v =>
            obtain rfl : v.id = id := by simpa using List.find?_some offered
            rcases apart.1 v (List.mem_of_find?_eq_some offered) with old | free
            · cases value : (s.merge node.body.fixedVariables).get? v.id with
              | none => simp [OverrideSet.get?_eq_none_iff.1 value] at old
              | some => rfl
            · simp [free]
        · rcases apart.2 t member v fixed with old | free
          · exact .inl (OverrideSet.contains_merge_of_contains old)
          · exact .inr free

theorem Resolves.fillIn_self (lineage : c.Lineage node above)
    (h : Resolves c node exposed .empty a after)
    (tidy : ∀ level ∈ node.body :: above.map (·.app), level.IsTidy)
    (plain : ∀ level ∈ node.body :: above.map (·.app), level.FixesPlainly) :
    a.fillIn (OverrideSet.empty.merge a.fixedVariables) = a := by
  rw [List.forall_mem_cons] at plain
  rw [h.fixedVariables_eq]
  refine h.fillIn_eq lineage h tidy ?_ (fun upper member => ?_) (fun id => ?_) fun upper _ v _ => ?_
  · intro e member
    exact plain.1 e ((OverrideSet.mem_entries_merge member).resolve_left (by simp [OverrideSet.empty]))
  · exact plain.2 _ (List.mem_map_of_mem member)
  · exact Option.or_self
  · rw [OverrideSet.get?_eq_none_iff, ← Bool.not_eq_true]
    exact em _

theorem contains_merge_or {p : String → Bool} (more : ∀ id, s'.contains id = (s.contains id || p id))
    (fixed : List FixedVariable) (id : String) :
    (s'.merge fixed).contains id = ((s.merge fixed).contains id || p id) := by
  rw [Bool.eq_iff_iff, Bool.or_eq_true, OverrideSet.contains_merge_iff,
    OverrideSet.contains_merge_iff, more, Bool.or_eq_true]
  exact or_right_comm

theorem freeAlong_filter {p : String → Bool} (more : ∀ id, s'.contains id = (s.contains id || p id))
    (leaf : Application) (above : List ApplicationTemplate) :
    freeAlong s' leaf above = (freeAlong s leaf above).filter fun v => !p v.id := by
  induction above generalizing s s' leaf with
  | nil => rfl
  | cons next above ih =>
    have here := contains_merge_or more leaf.fixedVariables
    rw [freeAlong_cons, freeAlong_cons, List.filter_append, ih here, List.filter_filter]
    congr 1
    apply List.filter_congr
    intro v _
    rw [contains_merge_or here, Bool.not_or, Bool.and_comm]

/-- What a template exposes to a caller that fixes more is what it exposes anyway, less what is
fixed. -/
theorem Resolves.after_filter {t : ApplicationTemplate} {p : String → Bool}
    (h : Resolves c (.template t) exposed s a after)
    (h' : Resolves c (.template t) exposed s' a' after')
    (more : ∀ id, s'.contains id = (s.contains id || p id)) :
    after' = after.filter fun v => !(s'.merge t.app.fixedVariables).contains v.id := by
  obtain ⟨above, lineage, rfl⟩ := h.after_eq
  obtain ⟨above', lineage', rfl⟩ := h'.after_eq
  obtain rfl := lineage.unique lineage'
  have fixed := contains_merge_or more t.app.fixedVariables
  simp only [withdraw, Resolvable.identity_template, Option.isSome_some, if_true,
    Resolvable.body_template, List.filter_append, List.filter_filter]
  congr 1
  · apply List.filter_congr
    intro v _
    cases old : (s.merge t.app.fixedVariables).contains v.id <;> simp [fixed, old]
  · rw [surfacing, surfacing, freeAlong_filter more, filter_firsts (fun id =>
      !(s'.merge t.app.fixedVariables).contains id)]
    congr 1
    apply List.filter_congr
    intro v free
    rw [fixed, not_fixed_of_free free, Bool.false_or]

end Resolution
end ProductTemplates
