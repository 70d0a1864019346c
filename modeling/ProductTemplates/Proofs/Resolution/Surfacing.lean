import ProductTemplates.Proofs.Resolution.Walk

/-! Which free variables a caller sees after resolving: its own, and behind them what the templates
of the chain ask for and nobody fixes at the template or nearer the leaf. Of several declarations of
an id the one nearest the leaf is seen. -/
namespace ProductTemplates.Resolution

open Catalogue

variable {c : Catalogue} {maxDepth : Nat} {node : Resolvable} {exposed : List TemplateVariable}
  {inherited : OverrideSet} {leaf : Application} {next : ApplicationTemplate}
  {above : List ApplicationTemplate} {v : TemplateVariable} {id : String}

/-- The templates above a leaf, each with what is fixed up to it. -/
def settledAbove (inherited : OverrideSet) (leaf : Application) (above : List ApplicationTemplate) :
    List (ApplicationTemplate × OverrideSet) :=
  above.zip (setsAlong inherited (leaf :: above.map (·.app))).tail

/-- What the templates above a leaf ask for and nobody fixes up to them. -/
def freeAlong (inherited : OverrideSet) (leaf : Application) (above : List ApplicationTemplate) :
    List TemplateVariable :=
  (settledAbove inherited leaf above).flatMap fun (t, fixed) =>
    t.templateVariables.filter fun v => !fixed.contains v.id

/-- What a caller sees anew: the first entry of each free id that it does not list itself. -/
def surfacing (inherited : OverrideSet) (leaf : Application) (above : List ApplicationTemplate)
    (exposed : List TemplateVariable) : List TemplateVariable :=
  firsts (·.id) (exposed.map (·.id)) (freeAlong inherited leaf above)

theorem settledAbove_cons (inherited : OverrideSet) (leaf : Application)
    (next : ApplicationTemplate) (above : List ApplicationTemplate) :
    settledAbove inherited leaf (next :: above) =
      (next, (inherited.merge leaf.fixedVariables).merge next.app.fixedVariables) ::
        settledAbove (inherited.merge leaf.fixedVariables) next.app above := by
  simp [settledAbove, setsAlong_cons]

theorem freeAlong_cons (inherited : OverrideSet) (leaf : Application)
    (next : ApplicationTemplate) (above : List ApplicationTemplate) :
    freeAlong inherited leaf (next :: above) =
      (next.templateVariables.filter fun v =>
        !((inherited.merge leaf.fixedVariables).merge next.app.fixedVariables).contains v.id) ++
        freeAlong (inherited.merge leaf.fixedVariables) next.app above := by
  rw [freeAlong, settledAbove_cons, List.flatMap_cons, freeAlong]

theorem not_fixed_of_free (h : v ∈ freeAlong inherited leaf above) :
    (inherited.merge leaf.fixedVariables).contains v.id = false := by
  induction above generalizing inherited leaf with
  | nil => simp [freeAlong, settledAbove] at h
  | cons next above ih =>
    rw [freeAlong_cons] at h
    rcases List.mem_append.1 h with here | later
    · exact OverrideSet.not_contains_of_merge (by simpa using (List.mem_filter.1 here).2)
    · exact OverrideSet.not_contains_of_merge (ih later)

theorem surface_eq (exposed ancestral : List TemplateVariable) (inherited : OverrideSet) :
    surface exposed ancestral inherited = exposed ++
      firsts (·.id) (exposed.map (·.id)) (ancestral.filter fun v => !inherited.contains v.id) := by
  rw [← foldl_append_fresh, List.foldl_filter, surface]
  congr 1
  funext vs v
  cases inherited.contains v.id <;> simp

/-- A level hands on what is free above it: what it lists itself, then what surfaced there. -/
theorem surface_freeAlong (exposed : List TemplateVariable) (inherited : OverrideSet)
    (leaf : Application) (next : ApplicationTemplate) (above : List ApplicationTemplate) :
    surface exposed ((next.templateVariables.filter fun v =>
        !((inherited.merge leaf.fixedVariables).merge next.app.fixedVariables).contains v.id) ++
        surfacing (inherited.merge leaf.fixedVariables) next.app above next.templateVariables)
        inherited =
      exposed ++ surfacing inherited leaf (next :: above) exposed := by
  have free (v : TemplateVariable) (member : v ∈ freeAlong inherited leaf (next :: above)) :
      (!inherited.contains v.id) = true := by
    rw [OverrideSet.not_contains_of_merge (not_fixed_of_free member), Bool.not_false]
  rw [surface_eq, List.filter_eq_self.2]
  · rw [surfacing, surfacing, freeAlong_cons, firsts_append, firsts_append, firsts_firsts]
    intro v member listed
    obtain ⟨w, declared, same⟩ := List.mem_map.1 listed
    refine List.mem_append_right _ (List.mem_map.2 ⟨w, List.mem_filter.2 ⟨declared, ?_⟩, same⟩)
    simp only [same, not_fixed_of_free member, Bool.not_false]
  · intro v member
    apply free
    rw [freeAlong_cons]
    rcases List.mem_append.1 member with here | later
    · exact List.mem_append_left _ here
    · exact List.mem_append_right _ (firsts_sublist.subset later)

/-- What a level fixes was not free above it anyway, so withdrawing touches its own list alone. -/
theorem withdraw_append_surfacing (node : Resolvable) (exposed : List TemplateVariable)
    (inherited : OverrideSet) (above : List ApplicationTemplate) :
    withdraw node (inherited.merge node.body.fixedVariables)
        (exposed ++ surfacing inherited node.body above exposed) =
      withdraw node (inherited.merge node.body.fixedVariables) exposed ++
        surfacing inherited node.body above exposed := by
  unfold withdraw
  split
  · rw [List.filter_append]
    congr 1
    rw [List.filter_eq_self]
    intro v member
    simp only [not_fixed_of_free (firsts_sublist.subset member), Bool.not_false]
  · rfl

/-- The closed form of what a caller sees after an application came about. -/
theorem Resolves.after_eq {a : Application} {after : List TemplateVariable}
    (h : Resolves c node exposed inherited a after) :
    ∃ above, c.Lineage node above ∧
      after = withdraw node (inherited.merge node.body.fixedVariables) exposed ++
        surfacing inherited node.body above exposed := by
  induction h with
  | root rootless => exact ⟨[], .root rootless, by simp [surfacing, freeAlong, settledAbove]⟩
  | @step node parent exposed inherited _ _ up _ ih =>
    obtain ⟨above, lineage, rfl⟩ := ih
    refine ⟨parent :: above, .step up lineage, ?_⟩
    rw [← withdraw_append_surfacing node exposed inherited (parent :: above), ← surface_freeAlong]
    rfl

/-- An id is free along a chain if some template asks for it that is not fixed up to there. -/
theorem free_iff :
    (∃ v ∈ freeAlong inherited leaf above, v.id = id) ↔
      ∃ level ∈ settledAbove inherited leaf above,
        (∃ v ∈ level.1.templateVariables, v.id = id) ∧ level.2.contains id = false := by
  constructor
  · rintro ⟨v, free, rfl⟩
    obtain ⟨level, member, here⟩ := List.mem_flatMap.1 free
    obtain ⟨declared, unfixed⟩ := List.mem_filter.1 here
    exact ⟨level, member, ⟨v, declared, rfl⟩, by simpa using unfixed⟩
  · rintro ⟨level, member, ⟨v, declared, rfl⟩, unfixed⟩
    refine ⟨v, List.mem_flatMap.2 ⟨level, member, List.mem_filter.2 ⟨declared, ?_⟩⟩, rfl⟩
    simp only [unfixed, Bool.not_false]

theorem find?_filter_open {fixed : OverrideSet} (vs : List TemplateVariable)
    (h : fixed.contains id = false) :
    (vs.filter fun v => !fixed.contains v.id).find? (·.id == id) = vs.find? (·.id == id) := by
  rw [List.find?_filter]
  congr 1
  funext v
  by_cases same : v.id = id
  · simp [same, h]
  · simp [same]

/-- The first free declaration of an id is its first declaration. -/
theorem find?_declared_of_free (h : (freeAlong inherited leaf above).find? (·.id == id) = some v) :
    (above.flatMap (·.templateVariables)).find? (·.id == id) = some v := by
  induction above generalizing inherited leaf with
  | nil => simp [freeAlong, settledAbove] at h
  | cons next above ih =>
    have same : v.id = id := by simpa using List.find?_some h
    have unfixed : ((inherited.merge leaf.fixedVariables).merge
        next.app.fixedVariables).contains id = false := by
      rcases List.mem_append.1 (freeAlong_cons .. ▸ List.mem_of_find?_eq_some h) with here | later
      · simpa [same] using (List.mem_filter.1 here).2
      · exact same ▸ not_fixed_of_free later
    rw [freeAlong_cons, List.find?_append, find?_filter_open _ unfixed] at h
    rw [List.flatMap_cons, List.find?_append]
    cases here : next.templateVariables.find? (·.id == id) with
    | some w => simpa [here] using h
    | none =>
      rw [here] at h
      simpa using ih (by simpa using h)

theorem resolution_unchanged
    (h : ∀ a, (c.resolution maxDepth node exposed inherited).1 ≠ .ok (some a)) :
    (c.resolution maxDepth node exposed inherited).2 = exposed :=
  resolveNode_unchanged [] node exposed inherited h

/-- The caller's list after resolving. Without an application it is as before. With one it is what
the node leaves of it, and then once each id that some template of the chain asks for without it
being fixed there or nearer the leaf, as the template nearest the leaf declares it. -/
theorem resolution_exposed (c : Catalogue) (maxDepth : Nat) (node : Resolvable)
    (exposed : List TemplateVariable) (inherited : OverrideSet) :
    match c.resolution maxDepth node exposed inherited with
    | (.ok (some _), after) =>
      ∃ above, c.Lineage node above ∧ ∃ new,
        after = (if node.identity.isSome then exposed.filter fun v =>
          !(inherited.merge node.body.fixedVariables).contains v.id else exposed) ++ new ∧
        new = firsts (·.id) (exposed.map (·.id)) (freeAlong inherited node.body above) ∧
        (new.map (·.id)).Nodup ∧
        (∀ id, (∃ v ∈ new, v.id = id) ↔ id ∉ exposed.map (·.id) ∧
          ∃ level ∈ settledAbove inherited node.body above,
            (∃ v ∈ level.1.templateVariables, v.id = id) ∧ level.2.contains id = false) ∧
        ∀ v ∈ new, (above.flatMap (·.templateVariables)).find? (·.id == v.id) = some v
    | (_, after) => after = exposed := by
  rcases outcome : c.resolution maxDepth node exposed inherited with ⟨_ | _ | a, after⟩
  · exact (congrArg Prod.snd outcome).symm.trans (resolution_unchanged (by simp [outcome]))
  · exact (congrArg Prod.snd outcome).symm.trans (resolution_unchanged (by simp [outcome]))
  · obtain ⟨above, lineage, rfl⟩ :=
      (resolves_of_resolveNode [] node exposed inherited outcome).after_eq
    refine ⟨above, lineage, surfacing inherited node.body above exposed, rfl, rfl, nodup_firsts,
      fun id => ?_, fun v member => ?_⟩
    · rw [← free_iff]
      exact key_mem_firsts_iff
    · exact find?_declared_of_free (mem_firsts.1 member).2

/-- Of two variables of a template the one surfaces that the application does not fix. -/
example : Catalogue.resolution
    [{ id := "server"
       app := { application := some "serverd", name := some "Server ${port}" }
       templateVariables := [{ id := "host", name := some "Host" }, { id := "port" }] }] 64
    (.application { template := some "server", fixedVariables := [{ id := "port", value := "80" }] })
    [{ id := "log" }] .empty =
    (.ok (some
      { application := some "serverd"
        name := some "Server 80"
        fixedVariables := [{ id := "port", value := "80" }] }),
      [{ id := "log" }, { id := "host", name := some "Host" }]) := by cbv

end ProductTemplates.Resolution
