import ProductTemplates.Descriptor.Writing
import ProductTemplates.Document.Reading
import ProductTemplates.Proofs.Except
import ProductTemplates.Proofs.Json.Reader

/-! Values as the documents that their JSON forms are. A value is read again as itself if it is
simple: without tags, with texts as names, none twice in a mapping, and with numbers that come back. -/
namespace ProductTemplates

open Document Json

namespace Value

theorem induction {motive : Value → Prop} (null : motive .null) (bool : ∀ b, motive (.bool b))
    (number : ∀ n, motive (.number n)) (string : ∀ s, motive (.string s))
    (sequence : ∀ xs, (∀ x ∈ xs, motive x) → motive (.sequence xs))
    (mapping : ∀ es, (∀ e ∈ es, motive e.1 ∧ motive e.2) → motive (.mapping es))
    (tagged : ∀ t v, motive v → motive (.tagged t v)) (v : Value) : motive v := by
  refine @Value.rec motive (fun xs => ∀ x ∈ xs, motive x)
    (fun es => ∀ e ∈ es, motive e.1 ∧ motive e.2) (fun e => motive e.1 ∧ motive e.2) null bool number
    string sequence mapping tagged ?_ ?_ ?_ ?_ (fun _ _ h h' => ⟨h, h'⟩) v
  · simp
  · exact fun x xs here there => List.forall_mem_cons.2 ⟨here, there⟩
  · simp
  · exact fun e es here there => List.forall_mem_cons.2 ⟨here, there⟩

/-- The name of a member; empty for what cannot name one. -/
def nameText (k : Value) : String :=
  match k.memberName with
  | .ok name => name
  | .error _ => ""

mutual
/-- A value as the document that its JSON form is. -/
def node : Value → Node
  | null => .ofAtom .null
  | bool b => .ofAtom (.bool b)
  | number n => atomNode (numberAtom? n)
  | string s => .ofAtom (.string s)
  | sequence xs => .sequence .typed (itemNodes xs) true
  | mapping es => .mapping .typed (entryNodes es) true
  | tagged t v => .mapping .typed [(.ofAtom (.string (tagText t)), node v)] true
def itemNodes : List Value → List Node
  | [] => []
  | x :: xs => node x :: itemNodes xs
def entryNodes : List (Value × Value) → List (Node × Node)
  | [] => []
  | (k, v) :: es => (.ofAtom (.string k.nameText), node v) :: entryNodes es
end

/-- Values without tags and floats, in which texts name the entries of mappings. -/
inductive IsPlain : Value → Prop where
  | null : IsPlain .null
  | bool (b : Bool) : IsPlain (.bool b)
  | integer {n : Int} : -2 ^ 63 ≤ n → n < 2 ^ 64 → IsPlain (.number (.integer n))
  | string (s : String) : IsPlain (.string s)
  | sequence {xs : List Value} : (∀ x ∈ xs, IsPlain x) → IsPlain (.sequence xs)
  | record {fields : List (String × Value)} : (∀ f ∈ fields, IsPlain f.2) → IsPlain (record fields)

/-- Values without tags, in which texts name the entries of mappings, none of them twice, and numbers
come back from their text. -/
inductive IsSimple : Value → Prop where
  | null : IsSimple .null
  | bool (b : Bool) : IsSimple (.bool b)
  | number {n : Number} : numberAtom? n = some (.number n) → IsSimple (.number n)
  | string (s : String) : IsSimple (.string s)
  | sequence {xs : List Value} : (∀ x ∈ xs, IsSimple x) → IsSimple (.sequence xs)
  | record {fields : List (String × Value)} : (fields.map (·.1)).Nodup →
      (∀ f ∈ fields, IsSimple f.2) → IsSimple (record fields)

theorem node_sequence (xs : List Value) : (sequence xs).node = .sequence .typed (xs.map node) true := by
  have items : itemNodes xs = xs.map node := by
    induction xs with
    | nil => rfl
    | cons x rest ih => rw [itemNodes, ih, List.map_cons]
  rw [node, items]

def entryNode (e : Value × Value) : Node × Node := (.ofAtom (.string e.1.nameText), e.2.node)

theorem node_mapping (es : List (Value × Value)) :
    (mapping es).node = .mapping .typed (es.map entryNode) true := by
  have entries : entryNodes es = es.map entryNode := by
    induction es with
    | nil => rfl
    | cons e rest ih => rw [entryNodes, ih, List.map_cons]; rfl
  rw [node, entries]

def fieldNode (f : String × Value) : Node × Node := (.ofAtom (.string f.1), f.2.node)

theorem node_record (fields : List (String × Value)) :
    (record fields).node = .mapping .typed (fields.map fieldNode) true := by
  rw [record, node_mapping, List.map_map]
  rfl

theorem node_of_toJsonItems {xs : List Value} {js : List Json}
    (each : ∀ x ∈ xs, ∀ j, x.toJson = .ok j → j.node = x.node) (h : toJsonItems xs = .ok js) :
    Json.itemNodes js = itemNodes xs := by
  induction xs generalizing js with
  | nil =>
    obtain rfl := Except.ok.inj h
    rfl
  | cons x rest ih =>
    rw [List.forall_mem_cons] at each
    obtain ⟨j, here, h⟩ := bind_eq_ok_iff.1 h
    obtain ⟨more, there, same⟩ := bind_eq_ok_iff.1 h
    obtain rfl := Except.ok.inj same
    rw [Json.itemNodes, itemNodes, each.1 j here, ih each.2 there]

theorem node_of_toJsonMembers {es : List (Value × Value)} {ms : List (String × Json)}
    (each : ∀ e ∈ es, ∀ j, e.2.toJson = .ok j → j.node = e.2.node) (h : toJsonMembers es = .ok ms) :
    Json.memberNodes ms = entryNodes es := by
  induction es generalizing ms with
  | nil =>
    obtain rfl := Except.ok.inj h
    rfl
  | cons e rest ih =>
    obtain ⟨k, v⟩ := e
    rw [List.forall_mem_cons] at each
    obtain ⟨name, named, h⟩ := bind_eq_ok_iff.1 h
    obtain ⟨j, here, h⟩ := bind_eq_ok_iff.1 h
    obtain ⟨more, there, same⟩ := bind_eq_ok_iff.1 h
    obtain rfl := Except.ok.inj same
    have text : k.nameText = name := by rw [nameText, named]
    rw [Json.memberNodes, entryNodes, each.1 j here, ih each.2 there, text]

/-- What has a JSON form is the document that this form is. -/
theorem node_of_toJson {v : Value} {j : Json} (h : v.toJson = .ok j) : j.node = v.node := by
  induction v using Value.induction generalizing j with
  | null | bool | number | string =>
    obtain rfl := Except.ok.inj h
    rfl
  | sequence xs ih =>
    obtain ⟨js, items, same⟩ := bind_eq_ok_iff.1 h
    obtain rfl := Except.ok.inj same
    rw [Json.node, node, node_of_toJsonItems (fun x member _ => ih x member) items]
  | mapping es ih =>
    obtain ⟨ms, members, same⟩ := bind_eq_ok_iff.1 h
    obtain rfl := Except.ok.inj same
    rw [Json.node, node, node_of_toJsonMembers (fun e member _ => (ih e member).2) members]
  | tagged t v ih =>
    obtain ⟨inner, here, same⟩ := bind_eq_ok_iff.1 h
    obtain rfl := Except.ok.inj same
    rw [Json.node, node, Json.memberNodes, Json.memberNodes, ih here]

theorem values?_eq_some_iff {xs : List Value} :
    Node.values? (xs.map node) = some xs ↔ ∀ x ∈ xs, x.node.value? = some x := by
  induction xs with
  | nil => simp [Node.values?]
  | cons x rest ih =>
    rw [List.map_cons, Node.values?, List.forall_mem_cons, ← ih]
    constructor
    · intro h
      obtain ⟨y, here, h⟩ := Option.bind_eq_some_iff.1 h
      obtain ⟨more, there, same⟩ := Option.bind_eq_some_iff.1 h
      obtain ⟨rfl, rfl⟩ := List.cons.inj (Option.some.inj same)
      exact ⟨here, there⟩
    · rintro ⟨here, there⟩
      rw [here, there]
      rfl

theorem fresh_later {e : String × Value} {es : List (String × Value)} {seen : List String}
    (distinct : ((e :: es).map (·.1)).Nodup)
    (fresh : ∀ d ∈ e :: es, d.1 ∉ seen) : ∀ d ∈ es, d.1 ∉ e.1 :: seen := by
  rw [List.map_cons, List.nodup_cons] at distinct
  rw [List.forall_mem_cons] at fresh
  intro d member
  rw [List.mem_cons, not_or]
  exact ⟨fun same => distinct.1 (same ▸ List.mem_map_of_mem member), fresh.2 d member⟩

theorem any_same_string {name : String} {seen : List String} :
    (seen.map string).any (string name).same = decide (name ∈ seen) := by
  rw [Bool.eq_iff_iff, List.any_map, List.any_eq_true, decide_eq_true_iff]
  simp [same]

/-- The entries of a mapping are read again if texts name them, none of them twice. -/
theorem valueEntries?_eq_some_iff {es : List (Value × Value)} {seen : List String} :
    Node.valueEntries? (seen.map string) (es.map entryNode) = some es ↔
      ∃ fields : List (String × Value), es = fields.map (fun f => (string f.1, f.2)) ∧
        (fields.map (·.1)).Nodup ∧ (∀ f ∈ fields, f.1 ∉ seen) ∧
        ∀ f ∈ fields, f.2.node.value? = some f.2 := by
  induction es generalizing seen with
  | nil =>
    constructor
    · exact fun _ => ⟨[], rfl, by simp, by simp, by simp⟩
    · exact fun _ => rfl
  | cons e rest ih =>
    obtain ⟨k, v⟩ := e
    have key : (Node.ofAtom (.string k.nameText)).value? = some (string k.nameText) := rfl
    have known : string k.nameText :: seen.map string = (k.nameText :: seen).map string := rfl
    rw [List.map_cons, entryNode, Node.valueEntries?, key, Option.bind_eq_bind, Option.bind_some,
      any_same_string, known]
    constructor
    · intro h
      split at h
      · contradiction
      · next fresh =>
        obtain ⟨x, here, h⟩ := Option.bind_eq_some_iff.1 h
        obtain ⟨more, there, same⟩ := Option.bind_eq_some_iff.1 h
        obtain ⟨first, rfl⟩ := List.cons.inj (Option.some.inj same)
        obtain ⟨named, rfl⟩ := Prod.mk.inj first
        obtain ⟨fields, rfl, distinct, later, each⟩ := ih.1 there
        refine ⟨(k.nameText, x) :: fields, ?_, ?_, ?_, List.forall_mem_cons.2 ⟨here, each⟩⟩
        · rw [List.map_cons, named]
        · rw [List.map_cons, List.nodup_cons]
          refine ⟨fun again => ?_, distinct⟩
          obtain ⟨f, member, same⟩ := List.mem_map.1 again
          exact later f member (same ▸ List.mem_cons_self)
        · refine List.forall_mem_cons.2 ⟨by simpa using fresh, fun f member old => ?_⟩
          exact later f member (List.mem_cons_of_mem _ old)
    · rintro ⟨fields, same, distinct, fresh, each⟩
      cases fields with
      | nil => contradiction
      | cons f others =>
        obtain ⟨first, rfl⟩ := List.cons.inj same
        obtain ⟨rfl, rfl⟩ := Prod.mk.inj first
        have later := fresh_later distinct fresh
        rw [List.forall_mem_cons] at each fresh
        rw [List.map_cons, List.nodup_cons] at distinct
        have step := ih.2 ⟨others, rfl, distinct.2, later, each.2⟩
        have new : ¬ decide (f.1 ∈ seen) = true := by simpa using fresh.1
        rw [show (string f.1).nameText = f.1 from rfl, if_neg new, each.1, Option.bind_some, step]
        rfl

/-- What is read again as itself is simple, and nothing else. -/
theorem value?_node_iff {v : Value} : v.node.value? = some v ↔ v.IsSimple := by
  constructor
  · intro h
    induction v using Value.induction with
    | null => exact .null
    | bool b => exact .bool b
    | string s => exact .string s
    | number n =>
      rw [node] at h
      cases atom : numberAtom? n with
      | none => simp [atom, atomNode, Node.value?] at h
      | some a =>
        have back : a.value = .number n := by
          simpa [atom, atomNode, Node.ofAtom, Node.value?, Scalar.atom?, Scalar.localTag?,
            Node.withTag] using h
        cases a with
        | number m =>
          obtain rfl := Value.number.inj back
          exact .number atom
        | null | bool | string => contradiction
    | sequence xs ih =>
      rw [node_sequence] at h
      obtain ⟨ys, read, same⟩ := Option.bind_eq_some_iff.1 h
      obtain rfl := Value.sequence.inj (Option.some.inj same)
      exact .sequence fun x member => ih x member (values?_eq_some_iff.1 read x member)
    | mapping es ih =>
      rw [node_mapping] at h
      obtain ⟨ds, read, same⟩ := Option.bind_eq_some_iff.1 h
      obtain rfl := Value.mapping.inj (Option.some.inj same)
      obtain ⟨fields, rfl, distinct, -, each⟩ := (@valueEntries?_eq_some_iff ds []).1 read
      exact .record distinct fun f member =>
        (ih _ (List.mem_map_of_mem member)).2 (each f member)
    | tagged t v ih =>
      obtain ⟨ds, -, same⟩ := Option.bind_eq_some_iff.1 h
      simp [Node.withTag, Shape.localTag?] at same
  · intro simple
    induction simple with
    | null | bool | string => rfl
    | number back =>
      rw [node, back]
      rfl
    | sequence _ ih =>
      rw [node_sequence, Node.value?, values?_eq_some_iff.2 ih]
      rfl
    | record distinct _ ih =>
      have entries := (@valueEntries?_eq_some_iff _ []).2 ⟨_, rfl, distinct, by simp, ih⟩
      rw [List.map_nil] at entries
      rw [record, node_mapping, Node.value?, entries]
      rfl

/-- Whether no part of a value is refused, so that its document settles to itself. -/
def Settles (v : Value) : Prop := v.node.settle? = some v.node

theorem settles_sequence {xs : List Value} (each : ∀ x ∈ xs, x.Settles) : (sequence xs).Settles := by
  have items : Node.settleAll? (xs.map node) = some (xs.map node) := by
    induction xs with
    | nil => rfl
    | cons x rest ih =>
      rw [List.forall_mem_cons] at each
      rw [List.map_cons, Node.settleAll?, each.1, ih each.2]
      rfl
  rw [Settles, node_sequence, Node.settle?, if_neg (by simp [Shape.localTag?]), items]
  rfl

theorem settles_record {fields : List (String × Value)} (each : ∀ f ∈ fields, f.2.Settles) :
    (record fields).Settles := by
  have entries : Node.settleEntries? (fields.map fieldNode) = some (fields.map fieldNode) := by
    induction fields with
    | nil => rfl
    | cons f rest ih =>
      rw [List.forall_mem_cons] at each
      rw [List.map_cons, fieldNode, Node.settleEntries?, each.1, ih each.2]
      rfl
  rw [Settles, node_record, Node.settle?, if_neg (by simp [Shape.localTag?]), entries]
  rfl

theorem IsSimple.settles {v : Value} (simple : v.IsSimple) : v.Settles := by
  induction simple with
  | null | bool | string => rfl
  | number back =>
    rw [Settles, node, back]
    rfl
  | sequence _ ih => exact settles_sequence ih
  | record _ _ ih => exact settles_record ih

theorem settleAll?_eq {xs : List Value} {ms : List Node}
    (each : ∀ x ∈ xs, ∀ m, x.node.settle? = some m → m = x.node)
    (h : Node.settleAll? (xs.map node) = some ms) : ms = xs.map node := by
  induction xs generalizing ms with
  | nil => exact (Option.some.inj h).symm
  | cons x rest ih =>
    rw [List.forall_mem_cons] at each
    obtain ⟨m, here, h⟩ := Option.bind_eq_some_iff.1 h
    obtain ⟨more, there, same⟩ := Option.bind_eq_some_iff.1 h
    obtain rfl := Option.some.inj same
    rw [each.1 m here, ih each.2 there, List.map_cons]

theorem settleEntries?_eq {es : List (Value × Value)} {ms : List (Node × Node)}
    (each : ∀ e ∈ es, ∀ m, e.2.node.settle? = some m → m = e.2.node)
    (h : Node.settleEntries? (es.map entryNode) = some ms) : ms = es.map entryNode := by
  induction es generalizing ms with
  | nil => exact (Option.some.inj h).symm
  | cons e rest ih =>
    rw [List.forall_mem_cons] at each
    obtain ⟨m, here, h⟩ := Option.bind_eq_some_iff.1 h
    obtain ⟨more, there, same⟩ := Option.bind_eq_some_iff.1 h
    obtain rfl := Option.some.inj same
    rw [each.1 m here, ih each.2 there, List.map_cons]
    rfl

theorem eq_of_settle? {v : Value} {m : Node} (h : v.node.settle? = some m) : m = v.node := by
  induction v using Value.induction generalizing m with
  | null | bool | string => exact (Option.some.inj h).symm
  | number n =>
    rw [node] at h ⊢
    cases atom : numberAtom? n with
    | none => simp [atom, atomNode, Node.settle?] at h
    | some a =>
      rw [atom] at h
      exact (Option.some.inj h).symm
  | sequence xs ih =>
    rw [node_sequence, Node.settle?, if_neg (by simp [Shape.localTag?])] at h
    obtain ⟨ms, items, same⟩ := Option.bind_eq_some_iff.1 h
    obtain rfl := Option.some.inj same
    rw [settleAll?_eq (fun x member _ => ih x member) items, node_sequence]
  | mapping es ih =>
    rw [node_mapping, Node.settle?, if_neg (by simp [Shape.localTag?])] at h
    obtain ⟨ms, entries, same⟩ := Option.bind_eq_some_iff.1 h
    obtain rfl := Option.some.inj same
    rw [settleEntries?_eq (fun e member _ => (ih e member).2) entries, node_mapping]
  | tagged t v ih =>
    rw [node, Node.settle?, if_neg (by simp [Shape.localTag?])] at h
    obtain ⟨ms, entries, same⟩ := Option.bind_eq_some_iff.1 h
    obtain rfl := Option.some.inj same
    have alone := @settleEntries?_eq [(string (tagText t), v)] ms (by simpa using fun m => @ih m) entries
    rw [alone]
    rfl

end Value
end ProductTemplates
