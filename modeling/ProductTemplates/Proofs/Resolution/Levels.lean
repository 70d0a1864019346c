import ProductTemplates.Proofs.OverrideSet
import ProductTemplates.Resolution

/-! The levels above a node: the templates that its references lead to, the ids that are met on the
way, and the values that are fixed at each of them. -/
namespace ProductTemplates

namespace Catalogue

variable {c : Catalogue} {node start : Resolvable} {parent : ApplicationTemplate} {i : Nat}

/-- The template that a node refers to, if the catalogue has it. -/
def parent? (c : Catalogue) (node : Resolvable) : Option ApplicationTemplate :=
  node.body.template.bind c.find?

/-- The node that lies a number of references above another. -/
def level? (c : Catalogue) (start : Resolvable) : Nat → Option Resolvable
  | 0 => some start
  | i + 1 => (c.level? start i).bind fun node => (c.parent? node).map .template

/-- The ids of the levels below one, in the order in which they are met. -/
def idsBelow (c : Catalogue) (start : Resolvable) (i : Nat) : List String :=
  (List.range i).filterMap fun j => (c.level? start j).bind Resolvable.identity

/-- The templates above a node, up to one without a reference. -/
inductive Lineage (c : Catalogue) : Resolvable → List ApplicationTemplate → Prop where
  | root {node : Resolvable} : node.body.template = none → Lineage c node []
  | step {node : Resolvable} {parent : ApplicationTemplate} {above : List ApplicationTemplate} :
      c.parent? node = some parent → Lineage c (.template parent) above →
      Lineage c node (parent :: above)

theorem id_eq_of_find? {id : String} (found : c.find? id = some parent) : parent.id = id := by
  simpa using List.find?_some found

theorem template_of_parent? (h : c.parent? node = some parent) :
    node.body.template = some parent.id ∧ c.find? parent.id = some parent := by
  obtain ⟨id, named, found⟩ := Option.bind_eq_some_iff.1 h
  have same := id_eq_of_find? found
  subst same
  exact ⟨named, found⟩

theorem level?_succ {upper : Resolvable} (h : c.level? start (i + 1) = some upper) :
    ∃ lower parent, c.level? start i = some lower ∧ upper = .template parent ∧
      lower.body.template = some parent.id := by
  obtain ⟨lower, level, up⟩ := Option.bind_eq_some_iff.1 h
  obtain ⟨parent, found, same⟩ := Option.map_eq_some_iff.1 up
  exact ⟨lower, parent, level, same.symm, (template_of_parent? found).1⟩

theorem level?_succ_of_parent (up : c.parent? start = some parent) (i : Nat) :
    c.level? start (i + 1) = c.level? (.template parent) i := by
  induction i with
  | zero => simp [level?, up]
  | succ i ih => rw [level?, ih, level?]

theorem idsBelow_succ_of_parent (up : c.parent? start = some parent) (i : Nat) :
    c.idsBelow start (i + 1) = start.identity.toList ++ c.idsBelow (.template parent) i := by
  have levels : (fun j => (c.level? start j).bind Resolvable.identity) ∘ Nat.succ =
      fun j => (c.level? (.template parent) j).bind Resolvable.identity :=
    funext fun j => congrArg (Option.bind · Resolvable.identity) (level?_succ_of_parent up j)
  simp only [idsBelow, List.range_succ_eq_map, List.filterMap_cons, List.filterMap_map, levels]
  rw [level?, Option.bind_some]
  cases start.identity <;> simp

/-- The ids met by a walk that has come to a node, counted from that node or from its parent. -/
theorem append_idsBelow_succ (met : List String) (up : c.parent? start = some parent) (i : Nat) :
    met ++ c.idsBelow start (i + 1) =
      Resolution.visit met start ++ c.idsBelow (.template parent) i := by
  rw [idsBelow_succ_of_parent up, Resolution.visit, List.append_assoc]

theorem idsBelow_succ (h : c.level? start i = some node) :
    c.idsBelow start (i + 1) = Resolution.visit (c.idsBelow start i) node := by
  simp only [idsBelow, Resolution.visit, List.range_succ, List.filterMap_append,
    List.filterMap_cons, List.filterMap_nil, h, Option.bind_some]
  cases node.identity <;> rfl

end Catalogue

namespace Resolution

/-- What is fixed at each level: what the caller fixes, then the levels from the leaf up to it. -/
def setsAlong (inherited : OverrideSet) (levels : List Application) : List OverrideSet :=
  (List.range levels.length).map fun i =>
    inherited.merge ((levels.take (i + 1)).flatMap (·.fixedVariables))

theorem setsAlong_cons (inherited : OverrideSet) (leaf : Application) (above : List Application) :
    setsAlong inherited (leaf :: above) = inherited.merge leaf.fixedVariables ::
      setsAlong (inherited.merge leaf.fixedVariables) above := by
  simp [setsAlong, List.range_succ_eq_map, OverrideSet.merge_append, Function.comp_def]

/-- The value of an id at a level is the caller's, else that of the first level to fix it. -/
theorem get?_setsAlong {inherited fixed : OverrideSet} {levels : List Application} {i : Nat}
    (h : (setsAlong inherited levels)[i]? = some fixed) (id : String) :
    fixed.get? id = (inherited.get? id).or
      (((levels.take (i + 1)).flatMap (·.fixedVariables)).find? (·.id == id) |>.map (·.value)) := by
  simp only [setsAlong, List.getElem?_map, Option.map_eq_some_iff] at h
  obtain ⟨j, level, rfl⟩ := h
  obtain ⟨-, rfl⟩ : i < levels.length ∧ i = j := by simpa using List.getElem?_eq_some_iff.1 level
  rw [OverrideSet.get?_merge]

end Resolution
end ProductTemplates
