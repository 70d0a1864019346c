import Mathlib.Data.List.Dedup
import Mathlib.Data.List.Perm.Subperm
import ProductTemplates.Proofs.Resolution.Walk

/-! How deep resolving goes. Each level hands on to one template at most, and only with its own id
newly recorded, so that the recursion ends after no more levels than there are ids, or than the limit
allows, and one. -/
namespace ProductTemplates.Resolution

open Catalogue

structure Call where
  visited : List String := []
  node : Resolvable
  exposed : List TemplateVariable
  inherited : OverrideSet

namespace Call

/-- The ids recorded once the level has checked its own. -/
def recorded (call : Call) : List String :=
  if ∀ own ∈ call.node.identity, own ∉ call.visited then visit call.visited call.node
  else call.visited

def next? (c : Catalogue) (maxDepth : Nat) (call : Call) : Option Call :=
  if (c.verdict? maxDepth call.visited call.node).isSome then none
  else (c.parent? call.node).map fun parent =>
    { visited := visit call.visited call.node
      node := .template parent
      exposed := parent.templateVariables
      inherited := call.inherited.merge call.node.body.fixedVariables }

end Call

/-- The recursion written out: the calls that are made, one inside the other, and what the first of
them returns. -/
inductive Unfolds (c : Catalogue) (maxDepth : Nat) :
    Call → List Call → Outcome × List TemplateVariable → Prop where
  | ends {call : Call} {ending : Ending} :
      c.verdict? maxDepth call.visited call.node = some ending →
        Unfolds c maxDepth call [call] (conclude call.node call.exposed call.inherited ending)
  | calls {call next : Call} {rest : List Call} {result : Outcome × List TemplateVariable} :
      call.next? c maxDepth = some next → Unfolds c maxDepth next rest result →
        Unfolds c maxDepth call (call :: rest) (passOn call.node call.exposed call.inherited result)

/-- How many ids there are, among the catalogue and the node. -/
def idCount (c : Catalogue) (node : Resolvable) : Nat :=
  (node.identity.toList ++ c.map (·.id)).dedup.length

variable {c : Catalogue} {maxDepth : Nat} {call upper : Call} {calls others : List Call}
  {result other : Outcome × List TemplateVariable} {pool : List String}

theorem next?_eq_some_iff : call.next? c maxDepth = some upper ↔
    c.verdict? maxDepth call.visited call.node = none ∧ ∃ parent, c.parent? call.node = some parent ∧
      upper = { visited := visit call.visited call.node
                node := .template parent
                exposed := parent.templateVariables
                inherited := call.inherited.merge call.node.body.fixedVariables } := by
  cases verdict : c.verdict? maxDepth call.visited call.node
  · rw [Call.next?, verdict, Option.isSome_none, if_neg Bool.false_ne_true, Option.map_eq_some_iff]
    simp only [true_and, eq_comm]
  · simp [Call.next?, verdict]

theorem next?_of_verdict {ending : Ending}
    (verdict : c.verdict? maxDepth call.visited call.node = some ending) :
    call.next? c maxDepth = none := by
  rw [Call.next?, verdict, Option.isSome_some, if_pos rfl]

theorem exists_unfolds (visited : List String) (node : Resolvable)
    (exposed : List TemplateVariable) (inherited : OverrideSet) :
    ∃ calls, Unfolds c maxDepth ⟨visited, node, exposed, inherited⟩ calls
      (resolveNode c maxDepth visited node exposed inherited) := by
  induction visited, node using walk_induction c maxDepth generalizing exposed inherited with
  | ends visited node ending verdict =>
    rw [resolveNode_of_verdict verdict]
    exact ⟨_, .ends verdict⟩
  | goesOn visited node parent verdict up ih =>
    rw [resolveNode_of_goesOn verdict up]
    obtain ⟨rest, unfolds⟩ := ih parent.templateVariables (inherited.merge node.body.fixedVariables)
    exact ⟨_, .calls (next?_eq_some_iff.2 ⟨verdict, parent, up, rfl⟩) unfolds⟩

theorem Unfolds.unique (h : Unfolds c maxDepth call calls result)
    (h' : Unfolds c maxDepth call others other) : others = calls ∧ other = result := by
  induction h generalizing others other with
  | ends verdict =>
    cases h' with
    | ends verdict' =>
      obtain rfl := Option.some.inj (verdict.symm.trans verdict')
      exact ⟨rfl, rfl⟩
    | calls step => simp [next?_of_verdict verdict] at step
  | calls step _ ih =>
    cases h' with
    | ends verdict => simp [next?_of_verdict verdict] at step
    | calls step' rest =>
      obtain rfl := Option.some.inj (step.symm.trans step')
      obtain ⟨rfl, rfl⟩ := ih rest
      exact ⟨rfl, rfl⟩

/-- The ids that a call is handed are distinct, known and not too many. -/
structure Call.IsSound (call : Call) (maxDepth : Nat) (pool : List String) : Prop where
  distinct : call.visited.Nodup
  shallow : call.visited.length ≤ maxDepth
  known : ∀ id ∈ visit call.visited call.node, id ∈ pool

/-- A call that is made in a sound one is sound, and is handed the id of the latter. -/
theorem Call.IsSound.next (sound : call.IsSound maxDepth pool) (entries : ∀ t ∈ c, t.id ∈ pool)
    (step : call.next? c maxDepth = some upper) :
    upper.IsSound maxDepth pool ∧ upper.visited = visit call.visited call.node := by
  obtain ⟨verdict, parent, up, rfl⟩ := next?_eq_some_iff.1 step
  obtain ⟨fresh, shallow, -⟩ := verdict?_eq_none_iff.1 verdict
  refine ⟨⟨nodup_visit sound.distinct fresh, shallow, fun id member => ?_⟩, rfl⟩
  rcases List.mem_append.1 member with old | own
  · exact sound.known id old
  · obtain rfl : id = parent.id := by simpa using own
    exact entries parent (List.mem_of_find?_eq_some (template_of_parent? up).2)

theorem Call.IsSound.recorded (sound : call.IsSound maxDepth pool) :
    call.recorded.Nodup ∧ call.recorded.length ≤ maxDepth + 1 := by
  have atMost := length_visit_le call.visited call.node
  have shallow := sound.shallow
  unfold Call.recorded
  split
  · next fresh => exact ⟨nodup_visit sound.distinct fresh, by omega⟩
  · exact ⟨sound.distinct, by omega⟩

theorem Call.IsSound.length_le (sound : call.IsSound maxDepth pool) :
    call.visited.length ≤ min maxDepth pool.dedup.length := by
  have subset : call.visited ⊆ pool.dedup := fun id member =>
    List.mem_dedup.2 (sound.known id (List.mem_append_left _ member))
  exact Nat.le_min.2 ⟨sound.shallow, (List.subperm_of_subset sound.distinct subset).length_le⟩

/-- Each identified level but the last one records an id. -/
theorem Unfolds.length_le (h : Unfolds c maxDepth call calls result)
    (sound : call.IsSound maxDepth pool) (entries : ∀ t ∈ c, t.id ∈ pool) :
    call.visited.length + calls.countP (·.node.identity.isSome) ≤
      min maxDepth pool.dedup.length + 1 := by
  induction h with
  | @ends call ending verdict =>
    have := sound.length_le
    have : [call].countP (·.node.identity.isSome) ≤ 1 := List.countP_le_length
    omega
  | @calls call next rest result step _ ih =>
    obtain ⟨sound', handed⟩ := sound.next entries step
    have above := ih sound'
    rw [handed, visit, List.length_append] at above
    rw [List.countP_cons]
    cases own : call.node.identity <;> simp [own] at above ⊢ <;> omega

theorem Unfolds.countP_bare (h : Unfolds c maxDepth call calls result) :
    calls.countP (·.node.identity.isNone) = if call.node.identity.isNone then 1 else 0 := by
  induction h with
  | ends verdict => simp [List.countP_cons]
  | calls step _ ih =>
    obtain ⟨-, parent, -, rfl⟩ := next?_eq_some_iff.1 step
    rw [List.countP_cons, ih]
    simp

theorem Unfolds.sound (h : Unfolds c maxDepth call calls result) (sound : call.IsSound maxDepth pool)
    (entries : ∀ t ∈ c, t.id ∈ pool) : ∀ made ∈ calls, made.IsSound maxDepth pool := by
  induction h with
  | ends => simpa using sound
  | calls step _ ih => exact List.forall_mem_cons.2 ⟨sound, ih (sound.next entries step).1⟩

/-- Resolving comes to its end. It goes through no more identified levels than there are ids, or than
the limit allows, and one; a node without an id is one level more. No id is recorded twice, and no
more than one over the limit. -/
theorem resolution_depth (c : Catalogue) (maxDepth : Nat) (node : Resolvable)
    (exposed : List TemplateVariable) (inherited : OverrideSet) :
    ∃ calls, Unfolds c maxDepth { node, exposed, inherited } calls
        (c.resolution maxDepth node exposed inherited) ∧
      (∀ others result, Unfolds c maxDepth { node, exposed, inherited } others result →
        others = calls) ∧
      calls.countP (·.node.identity.isSome) ≤ min maxDepth (idCount c node) + 1 ∧
      (calls.countP (·.node.identity.isNone) = if node.identity.isNone then 1 else 0) ∧
      ∀ call ∈ calls, call.recorded.Nodup ∧ call.recorded.length ≤ maxDepth + 1 := by
  have sound : Call.IsSound { node, exposed, inherited } maxDepth
      (node.identity.toList ++ c.map (·.id)) :=
    ⟨List.nodup_nil, Nat.zero_le _, fun id member => List.mem_append_left _ (by simpa [visit] using member)⟩
  have entries : ∀ t ∈ c, t.id ∈ node.identity.toList ++ c.map (·.id) :=
    fun t member => List.mem_append_right _ (List.mem_map_of_mem member)
  obtain ⟨calls, unfolds⟩ := @exists_unfolds c maxDepth [] node exposed inherited
  refine ⟨calls, unfolds, fun others result other => (unfolds.unique other).1, ?identified,
    unfolds.countP_bare, fun call member => (unfolds.sound sound entries call member).recorded⟩
  case identified =>
    have bound := unfolds.length_le sound entries
    rwa [List.length_nil, Nat.zero_add] at bound

end ProductTemplates.Resolution
