import Mathlib.Data.List.Chain
import ProductTemplates.Proofs.Resolution.Levels

/-! Resolving as a plain walk along the references of a catalogue. Each level either ends the walk
or hands it on to the template that it refers to, and the first level that ends it decides what
becomes of the node. Fixed values and free variables play no part in this. -/
namespace ProductTemplates

inductive Ending where
  | refused (error : ResolutionError)
  | dangling
  | complete
deriving Repr, DecidableEq

def Ending.ofOutcome : Outcome → Ending
  | .error e => .refused e
  | .ok none => .dangling
  | .ok (some _) => .complete

namespace Catalogue

variable {c : Catalogue} {maxDepth : Nat} {met : List String} {node start : Resolvable}
  {parent : ApplicationTemplate} {ending : Ending} {i : Nat}

/-- What a level decides once its own id is recorded. -/
def verdictOn? (c : Catalogue) (maxDepth : Nat) (recorded : List String) (node : Resolvable) :
    Option Ending :=
  if maxDepth < recorded.length then some (.refused (.tooDeep node.label maxDepth))
  else if node.body.application.isNone && node.body.template.isNone then
    some (.refused (.missingReference node.label))
  else match node.body.template with
    | none => some .complete
    | some id => if (c.find? id).isNone then some .dangling else none

/-- What a level decides after the ids that were met. Without a verdict the walk goes on. -/
def verdict? (c : Catalogue) (maxDepth : Nat) (met : List String) (node : Resolvable) :
    Option Ending :=
  match node.identity with
  | none => c.verdictOn? maxDepth met node
  | some id =>
    if id ∈ met then some (.refused (.circular (met ++ [id])))
    else c.verdictOn? maxDepth (met ++ [id]) node

/-- A walk that goes on at every level below one and ends there. -/
def EndsAt (c : Catalogue) (maxDepth : Nat) (met : List String) (start : Resolvable) (i : Nat)
    (ending : Ending) : Prop :=
  (∃ node, c.level? start i = some node ∧
    c.verdict? maxDepth (met ++ c.idsBelow start i) node = some ending) ∧
  ∀ j < i, ∃ node, c.level? start j = some node ∧
    c.verdict? maxDepth (met ++ c.idsBelow start j) node = none

theorem exists_met (h : ¬∀ own ∈ node.identity, own ∉ met) :
    ∃ id, node.identity = some id ∧ id ∈ met := by
  simpa using h

theorem verdict?_eq_of_fresh (fresh : ∀ own ∈ node.identity, own ∉ met) :
    c.verdict? maxDepth met node = c.verdictOn? maxDepth (Resolution.visit met node) node := by
  unfold verdict? Resolution.visit
  cases own : node.identity with
  | none => simp
  | some id =>
    have new : id ∉ met := fresh id own
    simp [new]

theorem verdict?_eq_of_met {id : String} (own : node.identity = some id) (old : id ∈ met) :
    c.verdict? maxDepth met node = some (.refused (.circular (met ++ [id]))) := by
  simp [verdict?, own, old]

/-- A walk goes on from a level only to a template that exists, and only while the ids recorded
are distinct and within the limit. -/
theorem verdict?_eq_none_iff :
    c.verdict? maxDepth met node = none ↔ (∀ own ∈ node.identity, own ∉ met) ∧
      (Resolution.visit met node).length ≤ maxDepth ∧ ∃ parent, c.parent? node = some parent := by
  by_cases fresh : ∀ own ∈ node.identity, own ∉ met
  · rw [verdict?_eq_of_fresh fresh, and_iff_right fresh]
    unfold verdictOn? parent?
    by_cases deep : maxDepth < (Resolution.visit met node).length
    · simp [deep, Nat.not_le.2 deep]
    · have shallow := Nat.not_lt.1 deep
      cases named : node.body.template with
      | none => cases node.body.application <;> simp [deep]
      | some id => cases found : c.find? id <;> simp [deep, shallow, found]
  · obtain ⟨id, own, old⟩ := exists_met fresh
    rw [verdict?_eq_of_met own old]
    constructor
    · simp
    · exact fun goesOn => absurd goesOn.1 fresh

theorem verdict?_eq_circular_iff {chain : List String} :
    c.verdict? maxDepth met node = some (.refused (.circular chain)) ↔
      ∃ id, node.identity = some id ∧ id ∈ met ∧ chain = met ++ [id] := by
  by_cases fresh : ∀ own ∈ node.identity, own ∉ met
  · have otherwise : ¬∃ id, node.identity = some id ∧ id ∈ met ∧ chain = met ++ [id] := by
      rintro ⟨id, own, old, -⟩
      exact fresh id own old
    rw [verdict?_eq_of_fresh fresh]
    unfold verdictOn?
    split
    · simpa using otherwise
    · split
      · simpa using otherwise
      · split
        · simpa using otherwise
        · split <;> simpa using otherwise
  · obtain ⟨id, own, old⟩ := exists_met fresh
    simp [verdict?_eq_of_met own old, own, old, eq_comm]

theorem verdict?_eq_complete_iff :
    c.verdict? maxDepth met node = some .complete ↔ (∀ own ∈ node.identity, own ∉ met) ∧
      (Resolution.visit met node).length ≤ maxDepth ∧ node.body.application.isSome = true ∧
      node.body.template = none := by
  by_cases fresh : ∀ own ∈ node.identity, own ∉ met
  · rw [verdict?_eq_of_fresh fresh, and_iff_right fresh]
    unfold verdictOn?
    by_cases deep : maxDepth < (Resolution.visit met node).length
    · simp [deep, Nat.not_le.2 deep]
    · have shallow := Nat.not_lt.1 deep
      cases named : node.body.template with
      | none => cases node.body.application <;> simp [deep, shallow]
      | some id => cases found : c.find? id <;> simp [deep, found]
  · obtain ⟨id, own, old⟩ := exists_met fresh
    rw [verdict?_eq_of_met own old]
    constructor
    · simp
    · exact fun complete => absurd complete.1 fresh

end Catalogue

namespace Resolution

open Catalogue

variable {c : Catalogue} {maxDepth : Nat} {met : List String} {node : Resolvable}
  {parent : ApplicationTemplate} {ending : Ending} {exposed : List TemplateVariable}
  {inherited : OverrideSet}

def conclude (node : Resolvable) (exposed : List TemplateVariable) (inherited : OverrideSet) :
    Ending → Outcome × List TemplateVariable
  | .refused e => (.error e, exposed)
  | .dangling => (.ok none, exposed)
  | .complete =>
    (.ok (some (node.body.fillIn (inherited.merge node.body.fixedVariables))),
      withdraw node (inherited.merge node.body.fixedVariables) exposed)

def passOn (node : Resolvable) (exposed : List TemplateVariable) (inherited : OverrideSet) :
    Outcome × List TemplateVariable → Outcome × List TemplateVariable
  | (.error e, _) => (.error e, exposed)
  | (.ok none, _) => (.ok none, exposed)
  | (.ok (some above), surfaced) =>
    (.ok (some ((node.body.fillIn (inherited.merge node.body.fixedVariables)).inherit above)),
      withdraw node (inherited.merge node.body.fixedVariables) (surface exposed surfaced inherited))

theorem resolveNode_of_verdict (h : c.verdict? maxDepth met node = some ending) :
    resolveNode c maxDepth met node exposed inherited = conclude node exposed inherited ending := by
  rw [resolveNode]
  by_cases fresh : ∀ own ∈ node.identity, own ∉ met
  · rw [verdict?_eq_of_fresh fresh] at h
    unfold verdictOn? at h
    rw [dif_pos fresh]
    split at h
    · next deep =>
      cases Option.some.inj h
      simp only [if_pos deep, conclude]
    · next shallow =>
      simp only [if_neg shallow]
      split at h
      · next empty =>
        cases Option.some.inj h
        simp only [if_pos empty, conclude]
      · next referring =>
        simp only [if_neg referring]
        cases named : node.body.template with
        | none =>
          rw [named] at h
          cases Option.some.inj h
          rfl
        | some id =>
          rw [named] at h
          cases there : c.find? id with
          | none =>
            simp only [there, Option.isNone_none, if_true] at h
            cases Option.some.inj h
            simp only
            split
            · rfl
            · next found => simp [found] at there
          | some parent => simp [there] at h
  · obtain ⟨id, own, old⟩ := exists_met fresh
    rw [verdict?_eq_of_met own old] at h
    cases Option.some.inj h
    rw [dif_neg fresh]
    simp [conclude, visit, own]

theorem resolveNode_of_goesOn (goesOn : c.verdict? maxDepth met node = none)
    (up : c.parent? node = some parent) :
    resolveNode c maxDepth met node exposed inherited =
      passOn node exposed inherited (resolveNode c maxDepth (visit met node) (.template parent)
        parent.templateVariables (inherited.merge node.body.fixedVariables)) := by
  obtain ⟨fresh, shallow, -⟩ := verdict?_eq_none_iff.1 goesOn
  obtain ⟨named, found⟩ := template_of_parent? up
  rw [resolveNode, dif_pos fresh]
  simp only [if_neg (Nat.not_lt.2 shallow), named, Option.isNone_some, Bool.and_false,
    Bool.false_eq_true, if_false]
  split
  · next missing => simp [found] at missing
  · next other found' =>
    cases Option.some.inj (found.symm.trans found')
    cases resolveNode c maxDepth (visit met node) (.template parent) parent.templateVariables
      (inherited.merge node.body.fixedVariables) with
    | mk outcome surfaced => rcases outcome with e | _ | above <;> rfl

/-- Induction along a walk: a level that ends it, or one with the rest of the walk above it. -/
theorem walk_induction (c : Catalogue) (maxDepth : Nat)
    {motive : List String → Resolvable → Prop}
    (ends : ∀ met node ending, c.verdict? maxDepth met node = some ending → motive met node)
    (goesOn : ∀ met node parent, c.verdict? maxDepth met node = none →
      c.parent? node = some parent → motive (visit met node) (.template parent) → motive met node)
    (met : List String) (node : Resolvable) : motive met node := by
  induction size : room c met node using Nat.strongRecOn generalizing met node with
  | ind size ih =>
    cases verdict : c.verdict? maxDepth met node with
    | some ending => exact ends met node ending verdict
    | none =>
      obtain ⟨fresh, -, parent, up⟩ := verdict?_eq_none_iff.1 verdict
      obtain ⟨-, found⟩ := template_of_parent? up
      refine goesOn met node parent verdict up (ih _ ?_ _ _ rfl)
      exact size ▸ room_lt c met node parent parent.id found fresh

/-- How an application comes about along a chain, with the caller's free variables before and
after. -/
inductive Resolves (c : Catalogue) : Resolvable → List TemplateVariable → OverrideSet →
    Application → List TemplateVariable → Prop where
  | root {node : Resolvable} {exposed : List TemplateVariable} {inherited : OverrideSet} :
      node.body.template = none →
      Resolves c node exposed inherited
        (node.body.fillIn (inherited.merge node.body.fixedVariables))
        (withdraw node (inherited.merge node.body.fixedVariables) exposed)
  | step {node : Resolvable} {parent : ApplicationTemplate} {exposed : List TemplateVariable}
      {inherited : OverrideSet} {above : Application} {surfaced : List TemplateVariable} :
      c.parent? node = some parent →
      Resolves c (.template parent) parent.templateVariables
        (inherited.merge node.body.fixedVariables) above surfaced →
      Resolves c node exposed inherited
        ((node.body.fillIn (inherited.merge node.body.fixedVariables)).inherit above)
        (withdraw node (inherited.merge node.body.fixedVariables)
          (surface exposed surfaced inherited))

theorem resolves_of_resolveNode (met : List String) (node : Resolvable)
    (exposed : List TemplateVariable) (inherited : OverrideSet) {a : Application}
    {after : List TemplateVariable}
    (h : resolveNode c maxDepth met node exposed inherited = (.ok (some a), after)) :
    Resolves c node exposed inherited a after := by
  induction met, node using walk_induction c maxDepth generalizing exposed inherited a after with
  | ends met node ending verdict =>
    rw [resolveNode_of_verdict verdict] at h
    cases ending with
    | refused e => simp [conclude] at h
    | dangling => simp [conclude] at h
    | complete =>
      cases h
      exact .root (verdict?_eq_complete_iff.1 verdict).2.2.2
  | goesOn met node parent verdict up ih =>
    rw [resolveNode_of_goesOn verdict up] at h
    rcases parents : resolveNode c maxDepth (visit met node) (.template parent)
      parent.templateVariables (inherited.merge node.body.fixedVariables) with
      ⟨_ | _ | above, surfaced⟩
    all_goals rw [parents] at h
    all_goals cases h
    exact .step up (ih _ _ parents)

theorem resolveNode_unchanged (met : List String) (node : Resolvable)
    (exposed : List TemplateVariable) (inherited : OverrideSet)
    (h : ∀ a, (resolveNode c maxDepth met node exposed inherited).1 ≠ .ok (some a)) :
    (resolveNode c maxDepth met node exposed inherited).2 = exposed := by
  cases verdict : c.verdict? maxDepth met node with
  | some ending =>
    rw [resolveNode_of_verdict verdict] at h ⊢
    cases ending with
    | refused e => rfl
    | dangling => rfl
    | complete => exact absurd rfl (h _)
  | none =>
    obtain ⟨-, -, parent, up⟩ := verdict?_eq_none_iff.1 verdict
    rw [resolveNode_of_goesOn verdict up] at h ⊢
    rcases parents : resolveNode c maxDepth (visit met node) (.template parent)
      parent.templateVariables (inherited.merge node.body.fixedVariables) with
      ⟨_ | _ | above, surfaced⟩
    · rfl
    · rfl
    · rw [parents] at h
      exact absurd rfl (h _)

end Resolution

namespace Catalogue

variable {c : Catalogue} {maxDepth : Nat} {met : List String} {node start : Resolvable}
  {parent : ApplicationTemplate} {ending : Ending} {i : Nat}

theorem EndsAt.here (h : c.verdict? maxDepth met start = some ending) :
    c.EndsAt maxDepth met start 0 ending :=
  ⟨⟨start, rfl, by simpa [idsBelow] using h⟩, fun _ impossible => absurd impossible (Nat.not_lt_zero _)⟩

theorem EndsAt.above (goesOn : c.verdict? maxDepth met start = none)
    (up : c.parent? start = some parent)
    (rest : c.EndsAt maxDepth (Resolution.visit met start) (.template parent) i ending) :
    c.EndsAt maxDepth met start (i + 1) ending := by
  have ids := append_idsBelow_succ met up
  obtain ⟨⟨last, level, verdict⟩, below⟩ := rest
  refine ⟨⟨last, ?_, ?_⟩, ?_⟩
  · rw [level?_succ_of_parent up, level]
  · rw [ids, verdict]
  · intro j before
    cases j with
    | zero => exact ⟨start, rfl, by simpa [idsBelow] using goesOn⟩
    | succ j =>
      obtain ⟨middle, level, verdict⟩ := below j (Nat.lt_of_succ_lt_succ before)
      exact ⟨middle, by rw [level?_succ_of_parent up, level], by rw [ids, verdict]⟩

/-- The recursion ends as the walk does, whatever is fixed and exposed. -/
theorem resolveNode_endsAt (c : Catalogue) (maxDepth : Nat) (met : List String)
    (node : Resolvable) (exposed : List TemplateVariable) (inherited : OverrideSet) :
    ∃ i, c.EndsAt maxDepth met node i
      (.ofOutcome (Resolution.resolveNode c maxDepth met node exposed inherited).1) := by
  induction met, node using Resolution.walk_induction c maxDepth
    generalizing exposed inherited with
  | ends met node ending verdict =>
    rw [Resolution.resolveNode_of_verdict verdict]
    refine ⟨0, .here ?_⟩
    cases ending <;> exact verdict
  | goesOn met node parent verdict up ih =>
    rw [Resolution.resolveNode_of_goesOn verdict up]
    obtain ⟨i, rest⟩ := ih parent.templateVariables (inherited.merge node.body.fixedVariables)
    refine ⟨i + 1, .above verdict up ?_⟩
    rcases parents : Resolution.resolveNode c maxDepth (Resolution.visit met node)
      (.template parent) parent.templateVariables (inherited.merge node.body.fixedVariables) with
      ⟨_ | _ | _, _⟩ <;> rw [parents] at rest <;> exact rest

def Refers (c : Catalogue) (start : Resolvable) (lower upper : String) : Prop :=
  ∃ i node, c.level? start i = some node ∧ node.identity = some lower ∧
    node.body.template = some upper

theorem length_visit_le (met : List String) (node : Resolvable) :
    (Resolution.visit met node).length ≤ met.length + 1 := by
  rw [Resolution.visit, List.length_append]
  cases node.identity <;> simp

theorem nodup_visit (distinct : met.Nodup) (fresh : ∀ own ∈ node.identity, own ∉ met) :
    (Resolution.visit met node).Nodup := by
  rw [Resolution.visit, List.nodup_append]
  refine ⟨distinct, by cases node.identity <;> simp, ?_⟩
  rintro id old _ own rfl
  exact fresh id (Option.mem_toList.1 own) old

/-- The ids met on a walk that goes on are distinct and within the limit. -/
theorem idsBelow_distinct (goesOn : ∀ j < i, ∃ node, c.level? start j = some node ∧
    c.verdict? maxDepth (c.idsBelow start j) node = none) :
    (c.idsBelow start i).Nodup ∧ (c.idsBelow start i).length ≤ maxDepth := by
  induction i with
  | zero => simp [idsBelow]
  | succ i ih =>
    obtain ⟨distinct, -⟩ := ih fun j before => goesOn j (Nat.lt_succ_of_lt before)
    obtain ⟨node, level, verdict⟩ := goesOn i (Nat.lt_succ_self i)
    obtain ⟨fresh, shallow, -⟩ := verdict?_eq_none_iff.1 verdict
    rw [idsBelow_succ level]
    exact ⟨nodup_visit distinct fresh, shallow⟩

/-- The last id met below a level refers to the id of that level. -/
theorem refers_of_getLast? {lower upper : String} (h : c.level? start i = some node)
    (last : (c.idsBelow start i).getLast? = some lower) (own : node.identity = some upper) :
    c.Refers start lower upper := by
  cases i with
  | zero => simp [idsBelow] at last
  | succ i =>
    obtain ⟨below, parent, level, rfl, named⟩ := level?_succ h
    rw [idsBelow_succ level, Resolution.visit] at last
    cases own
    cases i with
    | zero =>
      refine ⟨0, below, level, ?_, named⟩
      cases bare : below.identity <;> simp [idsBelow, bare] at last ⊢
      exact last
    | succ i =>
      obtain ⟨-, template, -, rfl, -⟩ := level?_succ level
      refine ⟨i + 1, _, level, ?_, named⟩
      simpa [Resolvable.identity] using last

theorem isChain_idsBelow (c : Catalogue) (start : Resolvable) (i : Nat) :
    (c.idsBelow start i).IsChain (c.Refers start) := by
  induction i with
  | zero => simp [idsBelow]
  | succ i ih =>
    rw [idsBelow, List.range_succ, List.filterMap_append]
    refine ih.append ?_ ?_
    · cases own : (c.level? start i).bind Resolvable.identity <;> simp [own]
    · intro lower last upper first
      obtain ⟨node, level, own⟩ : ∃ node, c.level? start i = some node ∧
          node.identity = some upper := by
        cases own : (c.level? start i).bind Resolvable.identity with
        | none => simp [own] at first
        | some id =>
          have same : id = upper := by simpa [own] using first
          exact same ▸ Option.bind_eq_some_iff.1 own
      exact refers_of_getLast? level last own

/-- Resolving ends as the plain walk does, at the first level with a verdict. The chain of a cycle
follows the references, repeats its last id alone, and is at most one longer than the limit. -/
theorem resolution_follows_walk (c : Catalogue) (maxDepth : Nat) (node : Resolvable)
    (exposed : List TemplateVariable) (inherited : OverrideSet) :
    (∃ i, c.EndsAt maxDepth [] node i
      (.ofOutcome (c.resolution maxDepth node exposed inherited).1)) ∧
    ∀ chain, (c.resolution maxDepth node exposed inherited).1 = .error (.circular chain) →
      ∃ met last, chain = met ++ [last] ∧ met.Nodup ∧ last ∈ met ∧
        chain.length ≤ maxDepth + 1 ∧ chain.IsChain (c.Refers node) := by
  obtain ⟨i, ends⟩ := resolveNode_endsAt c maxDepth [] node exposed inherited
  refine ⟨⟨i, ends⟩, fun chain cycle => ?_⟩
  simp only [resolution] at cycle
  simp only [EndsAt, cycle, Ending.ofOutcome, List.nil_append] at ends
  obtain ⟨⟨top, level, verdict⟩, below⟩ := ends
  obtain ⟨id, own, old, rfl⟩ := verdict?_eq_circular_iff.1 verdict
  obtain ⟨distinct, short⟩ := idsBelow_distinct below
  have linked := isChain_idsBelow c node (i + 1)
  rw [idsBelow_succ level, Resolution.visit, own] at linked
  exact ⟨_, id, rfl, distinct, old, by simpa using short, linked⟩

end Catalogue
end ProductTemplates
