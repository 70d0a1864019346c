import ProductTemplates.Proofs.Resolution.Depth

/-! The limit on the length of chains. It cuts a walk off exactly if that meets more distinct ids than
the limit allows. What it does not cut off becomes the same with any larger limit. -/
namespace ProductTemplates

namespace Catalogue

variable {c : Catalogue} {maxDepth larger : Nat} {met : List String} {node : Resolvable}
  {ending : Ending} {label id : String} {limit i : Nat}

theorem verdict?_eq_tooDeep_iff :
    c.verdict? maxDepth met node = some (.refused (.tooDeep label limit)) ↔
      (∀ own ∈ node.identity, own ∉ met) ∧ maxDepth < (Resolution.visit met node).length ∧
        label = node.label ∧ limit = maxDepth := by
  by_cases fresh : ∀ own ∈ node.identity, own ∉ met
  · rw [verdict?_eq_of_fresh fresh, and_iff_right fresh]
    unfold verdictOn?
    by_cases deep : maxDepth < (Resolution.visit met node).length
    · simp [deep, eq_comm]
    · cases named : node.body.template with
      | none => cases node.body.application <;> simp [deep]
      | some id => cases found : c.find? id <;> simp [deep, found]
  · obtain ⟨id, own, old⟩ := exists_met fresh
    rw [verdict?_eq_of_met own old]
    constructor
    · simp
    · exact fun deep => absurd deep.1 fresh

theorem verdict?_of_le (le : maxDepth ≤ larger)
    (within : ∀ label limit,
      c.verdict? maxDepth met node ≠ some (.refused (.tooDeep label limit))) :
    c.verdict? larger met node = c.verdict? maxDepth met node := by
  by_cases fresh : ∀ own ∈ node.identity, own ∉ met
  · have shallow : (Resolution.visit met node).length ≤ maxDepth := by
      rw [← Nat.not_lt]
      exact fun deep => within _ _ (verdict?_eq_tooDeep_iff.2 ⟨fresh, deep, rfl, rfl⟩)
    rw [verdict?_eq_of_fresh fresh, verdict?_eq_of_fresh fresh, verdictOn?, verdictOn?,
      if_neg (Nat.not_lt.2 shallow), if_neg (Nat.not_lt.2 (shallow.trans le))]
  · obtain ⟨id, own, old⟩ := exists_met fresh
    rw [verdict?_eq_of_met own old, verdict?_eq_of_met own old]

theorem idsBelow_succ_cases (c : Catalogue) (node : Resolvable) (i : Nat) :
    ∃ rest, c.idsBelow node (i + 1) = node.identity.toList ++ rest ∧
      (c.parent? node = none → rest = []) := by
  cases up : c.parent? node with
  | some parent => exact ⟨_, idsBelow_succ_of_parent up i, by simp⟩
  | none =>
    have beyond (j : Nat) : c.level? node (j + 1) = none := by
      induction j with
      | zero => simp [level?, up]
      | succ j ih => rw [level?, ih, Option.bind_none]
    refine ⟨[], ?_, fun _ => rfl⟩
    simp only [idsBelow, List.range_succ_eq_map, List.filterMap_cons, List.filterMap_map]
    rw [level?, Option.bind_some, List.filterMap_eq_nil_iff.2]
    · cases node.identity <;> rfl
    · intro j _
      rw [Function.comp_apply, beyond, Option.bind_none]

theorem mem_of_mem_idsBelow (member : id ∈ c.idsBelow node i) :
    id ∈ node.identity.toList ++ c.map (·.id) := by
  obtain ⟨j, -, met⟩ := List.mem_filterMap.1 member
  obtain ⟨level, there, own⟩ := Option.bind_eq_some_iff.1 met
  cases j with
  | zero =>
    obtain rfl := Option.some.inj there
    exact List.mem_append_left _ (by simp [own])
  | succ j =>
    obtain ⟨lower, -, up⟩ := Option.bind_eq_some_iff.1 there
    obtain ⟨parent, found, rfl⟩ := Option.map_eq_some_iff.1 up
    obtain rfl := Option.some.inj own
    have listed := List.mem_of_find?_eq_some (template_of_parent? found).2
    exact List.mem_append_right _ (List.mem_map_of_mem listed)

end Catalogue

namespace Resolution

open Catalogue

variable {c : Catalogue} {maxDepth larger : Nat} {met : List String} {node : Resolvable}
  {parent : ApplicationTemplate} {ending : Ending} {exposed : List TemplateVariable}
  {inherited : OverrideSet}

def IsTooDeep (outcome : Outcome) : Prop := ∃ label limit, outcome = .error (.tooDeep label limit)

theorem isTooDeep_conclude_iff : IsTooDeep (conclude node exposed inherited ending).1 ↔
    ∃ label limit, ending = .refused (.tooDeep label limit) := by
  cases ending <;> simp [IsTooDeep, conclude]

theorem isTooDeep_passOn_iff {result : Outcome × List TemplateVariable} :
    IsTooDeep (passOn node exposed inherited result).1 ↔ IsTooDeep result.1 := by
  rcases result with ⟨_ | _ | above, surfaced⟩ <;> simp [IsTooDeep, passOn]

/-- A larger limit does not matter to what is within the limit. -/
theorem resolveNode_of_le (le : maxDepth ≤ larger) (met : List String) (node : Resolvable)
    (exposed : List TemplateVariable) (inherited : OverrideSet)
    (within : ¬ IsTooDeep (resolveNode c maxDepth met node exposed inherited).1) :
    resolveNode c larger met node exposed inherited =
      resolveNode c maxDepth met node exposed inherited := by
  induction met, node using walk_induction c maxDepth generalizing exposed inherited with
  | ends met node ending verdict =>
    rw [resolveNode_of_verdict verdict, isTooDeep_conclude_iff] at within
    have shallow (label : String) (limit : Nat) :
        c.verdict? maxDepth met node ≠ some (.refused (.tooDeep label limit)) := by
      rw [verdict]
      exact fun deep => within ⟨label, limit, Option.some.inj deep⟩
    have verdict' := (verdict?_of_le le shallow).trans verdict
    rw [resolveNode_of_verdict verdict, resolveNode_of_verdict verdict']
  | goesOn met node parent verdict up ih =>
    have verdict' := (verdict?_of_le le (by simp [verdict])).trans verdict
    rw [resolveNode_of_goesOn verdict up, isTooDeep_passOn_iff] at within
    rw [resolveNode_of_goesOn verdict up, resolveNode_of_goesOn verdict' up, ih _ _ within]

/-- Whether a walk, with the ids met before it, meets one distinct id more than the limit allows. -/
def Overruns (c : Catalogue) (maxDepth : Nat) (met : List String) (node : Resolvable) : Prop :=
  ∃ i, (met ++ c.idsBelow node i).Nodup ∧ (met ++ c.idsBelow node i).length = maxDepth + 1

theorem not_overruns_at_start (short : met.length ≤ maxDepth) :
    (met ++ c.idsBelow node 0).length ≠ maxDepth + 1 := by
  simp only [idsBelow, List.range_zero, List.filterMap_nil, List.append_nil]
  omega

theorem overruns_iff_of_verdict (verdict : c.verdict? maxDepth met node = some ending)
    (distinct : met.Nodup) (short : met.length ≤ maxDepth) :
    Overruns c maxDepth met node ↔ ∃ label limit, ending = .refused (.tooDeep label limit) := by
  constructor
  · rintro ⟨i, nodup, long⟩
    cases i with
    | zero => exact absurd long (not_overruns_at_start short)
    | succ i =>
      obtain ⟨rest, ids, last⟩ := idsBelow_succ_cases c node i
      rw [ids, ← List.append_assoc] at nodup long
      have fresh : ∀ own ∈ node.identity, own ∉ met := fun own isOwn old =>
        List.disjoint_of_nodup_append (List.nodup_append.1 nodup).1 old (Option.mem_toList.2 isOwn)
      have deep : maxDepth < (visit met node).length := by
        by_contra shallow
        cases up : c.parent? node with
        | some parent =>
          have goesOn := verdict?_eq_none_iff.2 ⟨fresh, Nat.not_lt.1 shallow, parent, up⟩
          simp [goesOn] at verdict
        | none =>
          rw [last up, List.append_nil] at long
          exact shallow (long ▸ Nat.lt_succ_self maxDepth)
      have cut : c.verdict? maxDepth met node = some (.refused (.tooDeep node.label maxDepth)) :=
        verdict?_eq_tooDeep_iff.2 ⟨fresh, deep, rfl, rfl⟩
      exact ⟨_, _, Option.some.inj (verdict.symm.trans cut)⟩
  · rintro ⟨label, limit, rfl⟩
    obtain ⟨fresh, deep, -⟩ := verdict?_eq_tooDeep_iff.1 verdict
    have ids : met ++ c.idsBelow node 1 = visit met node := by
      rw [idsBelow_succ rfl, visit, visit]
      simp [idsBelow]
    have := length_visit_le met node
    exact ⟨1, ids ▸ nodup_visit distinct fresh, by rw [ids]; omega⟩

theorem overruns_iff_of_goesOn (up : c.parent? node = some parent) (short : met.length ≤ maxDepth) :
    Overruns c maxDepth met node ↔ Overruns c maxDepth (visit met node) (.template parent) := by
  constructor
  · rintro ⟨i, nodup, long⟩
    cases i with
    | zero => exact absurd long (not_overruns_at_start short)
    | succ i =>
      rw [append_idsBelow_succ met up] at nodup long
      exact ⟨i, nodup, long⟩
  · rintro ⟨i, further⟩
    exact ⟨i + 1, by rwa [append_idsBelow_succ met up]⟩

/-- Behind the ids that were met, the limit cuts off what overruns it. -/
theorem isTooDeep_resolveNode_iff (met : List String) (node : Resolvable)
    (exposed : List TemplateVariable) (inherited : OverrideSet) (distinct : met.Nodup)
    (short : met.length ≤ maxDepth) :
    IsTooDeep (resolveNode c maxDepth met node exposed inherited).1 ↔
      Overruns c maxDepth met node := by
  induction met, node using walk_induction c maxDepth generalizing exposed inherited with
  | ends met node ending verdict =>
    rw [resolveNode_of_verdict verdict, isTooDeep_conclude_iff,
      overruns_iff_of_verdict verdict distinct short]
  | goesOn met node parent verdict up ih =>
    obtain ⟨fresh, shallow, -⟩ := verdict?_eq_none_iff.1 verdict
    rw [resolveNode_of_goesOn verdict up, isTooDeep_passOn_iff, overruns_iff_of_goesOn up short]
    exact ih _ _ (nodup_visit distinct fresh) shallow

/-- A walk is cut off by the limit exactly if it meets more distinct ids than that before it ends. -/
theorem isTooDeep_resolution_iff (c : Catalogue) (maxDepth : Nat) (node : Resolvable)
    (exposed : List TemplateVariable) (inherited : OverrideSet) :
    IsTooDeep (c.resolution maxDepth node exposed inherited).1 ↔
      ∃ i, (c.idsBelow node i).Nodup ∧ (c.idsBelow node i).length = maxDepth + 1 :=
  isTooDeep_resolveNode_iff [] node exposed inherited List.nodup_nil (Nat.zero_le _)

/-- A limit that allows all ids there are never cuts off. -/
theorem not_isTooDeep_of_idCount_le (enough : idCount c node ≤ maxDepth)
    (exposed : List TemplateVariable) (inherited : OverrideSet) :
    ¬ IsTooDeep (c.resolution maxDepth node exposed inherited).1 := by
  rw [isTooDeep_resolution_iff]
  rintro ⟨i, distinct, long⟩
  have known : c.idsBelow node i ⊆ (node.identity.toList ++ c.map (·.id)).dedup :=
    fun id member => List.mem_dedup.2 (mem_of_mem_idsBelow member)
  have few : (c.idsBelow node i).length ≤ idCount c node :=
    (List.subperm_of_subset distinct known).length_le
  omega

end Resolution
end ProductTemplates
