import ProductTemplates.Proofs.Json.Reader

/-! How deeply JSON is nested. What is not nested too deep is read as all that was written. -/
namespace ProductTemplates.Json

open Document

mutual
/-- How many arrays and objects stand in one another where there are the most. -/
def nesting : Json → Nat
  | array xs => nestingOfItems xs + 1
  | object ms => nestingOfMembers ms + 1
  | _ => 0
def nestingOfItems : List Json → Nat
  | [] => 0
  | x :: xs => max (nesting x) (nestingOfItems xs)
def nestingOfMembers : List (String × Json) → Nat
  | [] => 0
  | (_, v) :: ms => max (nesting v) (nestingOfMembers ms)
end

variable {room : Nat}

theorem allWithin_itemNodes {xs : List Json}
    (each : ∀ x ∈ xs, ∀ room, x.nesting ≤ room → (node x).within room = node x)
    (shallow : nestingOfItems xs ≤ room) : Node.allWithin room (itemNodes xs) = itemNodes xs := by
  induction xs with
  | nil => rfl
  | cons x rest ih =>
    rw [List.forall_mem_cons] at each
    obtain ⟨here, there⟩ := Nat.max_le.1 shallow
    rw [itemNodes, Node.allWithin, each.1 room here, ih each.2 there]

theorem entriesWithin_memberNodes {ms : List (String × Json)}
    (each : ∀ m ∈ ms, ∀ room, m.2.nesting ≤ room → (node m.2).within room = node m.2)
    (shallow : nestingOfMembers ms ≤ room) :
    Node.entriesWithin room (memberNodes ms) = memberNodes ms := by
  induction ms with
  | nil => rfl
  | cons m rest ih =>
    obtain ⟨k, v⟩ := m
    rw [List.forall_mem_cons] at each
    obtain ⟨here, there⟩ := Nat.max_le.1 shallow
    rw [memberNodes, Node.entriesWithin, each.1 room here, ih each.2 there]
    rfl

theorem within_node {j : Json} (shallow : j.nesting ≤ room) : (node j).within room = node j := by
  induction j using Json.induction generalizing room with
  | null | bool | string => rfl
  | number n =>
    rw [node]
    cases numberAtom? n <;> rfl
  | array xs ih =>
    have inner : nestingOfItems xs ≤ room - 1 := Nat.le_sub_one_of_lt shallow
    have roomy : room ≠ 0 := Nat.ne_of_gt (Nat.lt_of_lt_of_le (Nat.succ_pos _) shallow)
    rw [node, Node.within, if_neg (fun full => roomy full.1),
      allWithin_itemNodes (fun x member room => ih x member) inner]
  | object ms ih =>
    have inner : nestingOfMembers ms ≤ room - 1 := Nat.le_sub_one_of_lt shallow
    have roomy : room ≠ 0 := Nat.ne_of_gt (Nat.lt_of_lt_of_le (Nat.succ_pos _) shallow)
    rw [node, Node.within, if_neg (fun full => roomy full.1),
      entriesWithin_memberNodes (fun m member room => ih m member) inner]

/-- Written and read, JSON is the document that it is if it is not nested too deep. -/
theorem readText_of_nesting {j : Json} (shallow : j.nesting ≤ maxNesting) :
    readText j.compactText = ⟨node j, true⟩ := by
  rw [readText_compactText, within_node shallow]

end ProductTemplates.Json
