import ProductTemplates.Expansion

/-! Instance variables once they are expanded: no reference is left, and expanding them again with
the same defaults changes nothing. -/
namespace ProductTemplates

namespace Expansion

variable {vs : List InstanceVariable} {d e : VariableDefault} {ds more : List VariableDefault}

theorem firstReference?_eq_none_iff :
    firstReference? vs = none ↔ ∀ v ∈ vs, v.template = none := by
  induction vs with
  | nil => simp [firstReference?]
  | cons v rest ih =>
    rw [firstReference?, List.forall_mem_cons]
    cases v.template with
    | some id => simp
    | none => simp [ih]

theorem template?_eq_none_iff {templates : List VariableTemplate} {spliced : List String} {id : String} :
    template? templates spliced id = none ↔ id ∈ spliced ∨ templates.find? (·.id == id) = none := by
  by_cases seen : id ∈ spliced <;> simp [template?, seen]

/-- What is put in a reference's place is the first template of an id that was not spliced. -/
theorem template?_eq_some_iff {templates : List VariableTemplate} {spliced : List String} {id : String}
    {t : VariableTemplate} : template? templates spliced id = some t ↔
      t.id = id ∧ id ∉ spliced ∧ templates.find? (·.id == id) = some t := by
  constructor
  · intro h
    obtain ⟨fresh, found⟩ : id ∉ spliced ∧ templates.find? (·.id == id) = some t := by
      simpa [template?] using h
    exact ⟨by simpa using List.find?_some found, fresh, found⟩
  · rintro ⟨-, fresh, found⟩
    simp [template?, fresh, found]

theorem expandReferences_plain (templates : List VariableTemplate) (spliced : List String)
    (vs : List InstanceVariable) :
    ∀ v ∈ expandReferences templates spliced vs, v.template = none := by
  fun_induction expandReferences templates spliced vs with
  | case1 spliced vs unreferred => exact firstReference?_eq_none_iff.1 unreferred
  | case2 spliced vs kept id later cut unknown ih => exact ih
  | case3 spliced vs kept id later cut t found fresh ih => exact ih

theorem expandReferences_of_none {templates : List VariableTemplate} {spliced : List String}
    (unreferred : firstReference? vs = none) : expandReferences templates spliced vs = vs := by
  rw [expandReferences]
  split
  · rfl
  · next cut => simp [unreferred] at cut

theorem expandReferences_of_cut {templates : List VariableTemplate} {spliced : List String}
    {kept later : List InstanceVariable} {id : String}
    (cut : firstReference? vs = some (kept, id, later)) :
    expandReferences templates spliced vs =
      match template? templates spliced id with
      | none => expandReferences templates spliced (kept ++ later)
      | some t => expandReferences templates (id :: spliced)
          (kept ++ (t.instanceVariables.filter (fun v => !isDeclared (kept ++ later) v) ++ later)) := by
  rw [expandReferences]
  split
  · next unreferred => simp [unreferred] at cut
  · next cut' =>
    obtain ⟨rfl, rfl, rfl⟩ : _ ∧ _ ∧ _ := by simpa using cut'.symm.trans cut
    split
    · next unknown => rw [unknown]
    · next t found => rw [found]

theorem expandReferences_of_plain (templates : List VariableTemplate) (spliced : List String)
    (plain : ∀ v ∈ vs, v.template = none) : expandReferences templates spliced vs = vs :=
  expandReferences_of_none (firstReference?_eq_none_iff.2 plain)

/-- Only which template comes first for each id matters. -/
theorem expandReferences_congr {templates others : List VariableTemplate}
    (same : ∀ id, others.find? (·.id == id) = templates.find? (·.id == id)) (spliced : List String)
    (vs : List InstanceVariable) :
    expandReferences others spliced vs = expandReferences templates spliced vs := by
  have alike (spliced : List String) (id : String) :
      template? others spliced id = template? templates spliced id := by
    rw [template?, template?, same]
  fun_induction expandReferences templates spliced vs with
  | case1 spliced vs unreferred => exact expandReferences_of_none unreferred
  | case2 spliced vs kept id later cut unknown ih =>
    rw [expandReferences_of_cut cut, alike, unknown]
    exact ih
  | case3 spliced vs kept id later cut t found fresh ih =>
    rw [expandReferences_of_cut cut, alike, found]
    exact ih

theorem applyDefault_cons_same {v : InstanceVariable} (h : v.id = some d.id) :
    applyDefault (v :: vs) d = { v with value := d.value } :: vs := by
  simp [applyDefault, h]

theorem applyDefault_cons_other {v : InstanceVariable} (h : v.id ≠ some d.id) :
    applyDefault (v :: vs) d = v :: applyDefault vs d := by
  simp [applyDefault, h]

theorem map_applyDefault {α : Type} {f : InstanceVariable → α}
    (same : ∀ v value, f { v with value := value } = f v) (vs : List InstanceVariable)
    (d : VariableDefault) : (applyDefault vs d).map f = vs.map f := by
  induction vs with
  | nil => rfl
  | cons v rest ih =>
    by_cases h : v.id = some d.id
    · rw [applyDefault_cons_same h, List.map_cons, same, List.map_cons]
    · rw [applyDefault_cons_other h, List.map_cons, ih, List.map_cons]

theorem map_foldl_applyDefault {α : Type} {f : InstanceVariable → α}
    (same : ∀ v value, f { v with value := value } = f v) (vs : List InstanceVariable)
    (ds : List VariableDefault) : (ds.foldl applyDefault vs).map f = vs.map f := by
  induction ds generalizing vs with
  | nil => rfl
  | cons d rest ih => rw [List.foldl_cons, ih, map_applyDefault same]

/-- Of two defaults for one variable the later one counts. -/
theorem applyDefault_absorb (same : d.id = e.id) (vs : List InstanceVariable) :
    applyDefault (applyDefault vs d) e = applyDefault vs e := by
  induction vs with
  | nil => rfl
  | cons v rest ih =>
    by_cases h : v.id = some d.id
    · rw [applyDefault_cons_same h, applyDefault_cons_same (same ▸ h),
        applyDefault_cons_same (same ▸ h)]
    · rw [applyDefault_cons_other h, applyDefault_cons_other (same ▸ h),
        applyDefault_cons_other (same ▸ h), ih]

theorem applyDefault_comm (other : d.id ≠ e.id) (vs : List InstanceVariable) :
    applyDefault (applyDefault vs d) e = applyDefault (applyDefault vs e) d := by
  induction vs with
  | nil => rfl
  | cons v rest ih =>
    by_cases first : v.id = some d.id
    · have second : v.id ≠ some e.id := by simpa [first] using other
      have updated : ({ v with value := d.value } : InstanceVariable).id ≠ some e.id := second
      rw [applyDefault_cons_same first, applyDefault_cons_other updated,
        applyDefault_cons_other second, applyDefault_cons_same first]
    · by_cases second : v.id = some e.id
      · have updated : ({ v with value := e.value } : InstanceVariable).id ≠ some d.id := first
        rw [applyDefault_cons_other first, applyDefault_cons_same second,
          applyDefault_cons_same second, applyDefault_cons_other updated]
      · rw [applyDefault_cons_other first, applyDefault_cons_other second,
          applyDefault_cons_other second, applyDefault_cons_other first, ih]

theorem foldl_applyDefault (later : ∃ e ∈ ds, e.id = d.id) (vs : List InstanceVariable) :
    ds.foldl applyDefault (applyDefault vs d) = ds.foldl applyDefault vs := by
  induction ds generalizing vs with
  | nil => simp at later
  | cons e rest ih =>
    rw [List.foldl_cons, List.foldl_cons]
    by_cases same : d.id = e.id
    · rw [applyDefault_absorb same]
    · obtain ⟨other, member, isSame⟩ := later
      rcases List.mem_cons.1 member with rfl | member
      · exact absurd isSame.symm same
      · rw [applyDefault_comm same, ih ⟨other, member, isSame⟩]

theorem foldl_foldl_applyDefault (later : ∀ d ∈ more, ∃ e ∈ ds, e.id = d.id)
    (vs : List InstanceVariable) :
    ds.foldl applyDefault (more.foldl applyDefault vs) = ds.foldl applyDefault vs := by
  induction more generalizing vs with
  | nil => rfl
  | cons d rest ih =>
    rw [List.forall_mem_cons] at later
    rw [List.foldl_cons, ih later.2, foldl_applyDefault later.1]

end Expansion

open Expansion

/-- No reference is left among expanded variables. -/
theorem expandVariables_plain {vs : List InstanceVariable} {templates : List VariableTemplate}
    {ds : List VariableDefault} : ∀ v ∈ expandVariables vs templates ds, v.template = none := by
  intro v member
  have listed := List.mem_map_of_mem (f := (·.template)) member
  rw [expandVariables, map_foldl_applyDefault fun _ _ => rfl] at listed
  obtain ⟨w, member', same⟩ := List.mem_map.1 listed
  rw [← same]
  exact expandReferences_plain templates [] vs w member'

theorem expandVariables_expandVariables (vs : List InstanceVariable)
    (templates : List VariableTemplate) (ds : List VariableDefault) :
    expandVariables (expandVariables vs templates ds) templates ds =
      expandVariables vs templates ds := by
  rw [expandVariables.eq_1 (expandVariables vs templates ds),
    expandReferences_of_plain _ _ expandVariables_plain]
  exact foldl_foldl_applyDefault (fun d member => ⟨d, member, rfl⟩) _

end ProductTemplates
