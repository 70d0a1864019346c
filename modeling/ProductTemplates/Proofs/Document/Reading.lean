import ProductTemplates.Proofs.Document.Nesting
import ProductTemplates.Proofs.Document.Record
import ProductTemplates.Proofs.Dictionary

/-! What is known of whatever a reader makes of a document. No mapping in a value has a key twice; a
list holds what its items were read as; a record has what its fields put into it. -/
namespace ProductTemplates

open Document

namespace Value

/-- Whether a value was read from a document. -/
def IsRead (v : Value) : Prop := ∃ n : Node, n.value? = some v

theorem not_isPlain_tagged {tag : String} {v : Value} : ¬ (tagged tag v).IsPlain := by
  intro plain
  cases plain

theorem isPlain_sequence_iff {xs : List Value} : (sequence xs).IsPlain ↔ ∀ x ∈ xs, x.IsPlain := by
  refine ⟨fun plain => ?_, .sequence⟩
  cases plain with
  | sequence each => exact each

theorem isPlain_mapping_iff {es : List (Value × Value)} : (mapping es).IsPlain ↔
    ∃ fields : List (String × Value),
      es = fields.map (fun f => (string f.1, f.2)) ∧ ∀ f ∈ fields, f.2.IsPlain := by
  constructor
  · intro plain
    cases plain with
    | @record fields each => exact ⟨fields, rfl, each⟩
  · rintro ⟨fields, rfl, each⟩
    exact .record each

theorem withTag_of_isPlain {tag : Option String} {v : Value} (plain : (Node.withTag tag v).IsPlain) :
    Node.withTag tag v = v := by
  cases tag with
  | none => rfl
  | some t => exact absurd plain not_isPlain_tagged

-- by recursion on the document: keys that were seen cannot come again, so that names are distinct
mutual
theorem isSimple_of_value? (n : Node) (v : Value) (h : n.value? = some v) (plain : v.IsPlain) :
    v.IsSimple := by
  cases n with
  | scalar s =>
    obtain ⟨a, -, rfl⟩ := Option.map_eq_some_iff.1 h
    have untagged := withTag_of_isPlain plain
    rw [untagged] at plain ⊢
    cases a with
    | null => exact .null
    | bool b => exact .bool b
    | string text => exact .string text
    | number x =>
      cases plain with
      | integer low high => exact .number (Json.numberAtom?_integer low high)
  | sequence shape items complete =>
    obtain ⟨xs, read, same⟩ := Option.bind_eq_some_iff.1 h
    split at same
    · obtain rfl := Option.some.inj same
      have untagged := withTag_of_isPlain plain
      rw [untagged] at plain ⊢
      exact .sequence (isSimple_of_values? items xs read (isPlain_sequence_iff.1 plain))
    · contradiction
  | mapping shape entries complete =>
    obtain ⟨es, read, same⟩ := Option.bind_eq_some_iff.1 h
    split at same
    · obtain rfl := Option.some.inj same
      have untagged := withTag_of_isPlain plain
      rw [untagged] at plain ⊢
      obtain ⟨fields, rfl, each⟩ := isPlain_mapping_iff.1 plain
      obtain ⟨distinct, -, simple⟩ := isSimple_of_valueEntries? entries [] fields read each
      exact .record distinct simple
    · contradiction
  | refused | malformed => contradiction
theorem isSimple_of_values? (items : List Node) (xs : List Value) (h : Node.values? items = some xs)
    (plain : ∀ x ∈ xs, x.IsPlain) : ∀ x ∈ xs, x.IsSimple := by
  cases items with
  | nil =>
    obtain rfl := Option.some.inj h
    simp
  | cons n rest =>
    obtain ⟨x, here, h⟩ := Option.bind_eq_some_iff.1 h
    obtain ⟨more, there, same⟩ := Option.bind_eq_some_iff.1 h
    obtain rfl := Option.some.inj same
    rw [List.forall_mem_cons] at plain ⊢
    exact ⟨isSimple_of_value? n x here plain.1, isSimple_of_values? rest more there plain.2⟩
theorem isSimple_of_valueEntries? (entries : List (Node × Node)) (seen : List Value)
    (fields : List (String × Value))
    (h : Node.valueEntries? seen entries = some (fields.map fun f => (string f.1, f.2)))
    (plain : ∀ f ∈ fields, f.2.IsPlain) : (fields.map (·.1)).Nodup ∧
      (∀ f ∈ fields, string f.1 ∉ seen) ∧ ∀ f ∈ fields, f.2.IsSimple := by
  match entries with
  | [] =>
    obtain rfl : fields = [] := by simpa using (Option.some.inj h).symm
    simp
  | (k, v) :: rest =>
    obtain ⟨key, named, h⟩ := Option.bind_eq_some_iff.1 h
    split at h
    · contradiction
    · next fresh =>
      obtain ⟨x, here, h⟩ := Option.bind_eq_some_iff.1 h
      obtain ⟨more, there, same⟩ := Option.bind_eq_some_iff.1 h
      cases fields with
      | nil => cases same
      | cons f others =>
        obtain ⟨first, rfl⟩ := List.cons.inj (Option.some.inj same)
        obtain ⟨rfl, rfl⟩ := Prod.mk.inj first
        rw [List.forall_mem_cons] at plain
        obtain ⟨distinct, later, simple⟩ :=
          isSimple_of_valueEntries? rest _ others there plain.2
        have new : string f.1 ∉ seen := by
          intro old
          exact fresh (List.any_eq_true.2 ⟨_, old, by simp [Value.same]⟩)
        have apart : f.1 ∉ others.map (·.1) := by
          rintro again
          obtain ⟨g, member, same⟩ := List.mem_map.1 again
          exact later g member (by simp [same])
        simp only [List.map_cons, List.nodup_cons, List.forall_mem_cons]
        refine ⟨⟨apart, distinct⟩, ⟨new, fun g member old => ?_⟩,
          isSimple_of_value? v _ here plain.1, simple⟩
        exact later g member (List.mem_cons_of_mem _ old)
end

theorem IsRead.isSimple {v : Value} (read : v.IsRead) (plain : v.IsPlain) : v.IsSimple := by
  obtain ⟨n, read⟩ := read
  exact isSimple_of_value? n v read plain

theorem isRead_of_value {n : Node} {v : Value} (h : n.value = .ok v) : v.IsRead := by
  unfold Node.value at h
  split at h
  · next w read =>
    obtain rfl := Except.ok.inj h
    exact ⟨n, read⟩
  · contradiction

end Value

namespace Document

open Node

variable {α σ : Type} {reader : Reader α} {n : Node} {P : α → Prop}

theorem forall_mem_of_list {xs : List α} (each : ∀ m x, reader m = .ok x → P x)
    (h : list reader n = .ok xs) : ∀ x ∈ xs, P x := by
  unfold list at h
  split at h
  · obtain ⟨ys, read, same⟩ := bind_eq_ok_iff.1 h
    split at same
    · obtain rfl := Except.ok.inj same
      exact forall_mem_of_mapM (fun m _ => each m) read
    · contradiction
  · split at h
    · obtain rfl := Except.ok.inj h
      simp
    · contradiction

theorem isRead_of_dictionary {d : Dictionary Value} (h : dictionary n = .ok d) :
    ∀ e ∈ d.entries, e.2.IsRead := by
  obtain ⟨⟨es, complete⟩, -, h⟩ := bind_eq_ok_iff.1 h
  obtain ⟨pairs, each, same⟩ := bind_eq_ok_iff.1 h
  split at same
  · obtain rfl := Except.ok.inj same
    apply Dictionary.forall_mem_ofList
    refine forall_mem_of_mapM (fun entry _ pair here => ?_) each
    obtain ⟨key, -, h⟩ := bind_eq_ok_iff.1 here
    obtain ⟨v, read, same⟩ := bind_eq_ok_iff.1 h
    obtain rfl := Except.ok.inj same
    exact Value.isRead_of_value read
  · contradiction

namespace RecordField

variable {fields : List (RecordField σ)} {f : RecordField σ} {Q : σ → Prop} {start r : σ}
  {p q : Progress σ}

/-- Whether putting a field into a record keeps what is known of the record. -/
def Keeps (Q : σ → Prop) (f : RecordField σ) : Prop :=
  ∀ n r r', f.put n r = .ok r' → Q r → Q r'

theorem keeps_of {name : String} {set : α → σ → σ}
    (each : ∀ m x r, reader m = .ok x → Q r → Q (set x r)) : (of name reader set).Keeps Q := by
  intro n r r' h known
  obtain ⟨x, read, rfl⟩ := map_eq_ok_iff.1 h
  exact each n x r read known

/-- A field keeps what is known of other parts of the record. -/
theorem keeps_other {name : String} {set : α → σ → σ} (same : ∀ x r, Q r → Q (set x r)) :
    (of name reader set).Keeps Q := keeps_of fun _ x r _ known => same x r known

@[simp] theorem keeps_needed : f.needed.Keeps Q ↔ f.Keeps Q := Iff.rfl

theorem readEntries_keeps (keeps : ∀ f ∈ fields, f.Keeps Q) {entries : List (Node × Node)}
    (h : readEntries fields entries p = .ok q) (known : Q p.record) : Q q.record := by
  induction entries generalizing p with
  | nil =>
    obtain rfl := Except.ok.inj h
    exact known
  | cons e rest ih =>
    obtain ⟨field, named, h⟩ := bind_eq_ok_iff.1 h
    cases field with
    | some f =>
      obtain ⟨p', met, later⟩ := bind_eq_ok_iff.1 h
      exact ih later (keeps f (mem_of_ofKey named) _ _ _ (put_of_meet met) known)
    | none =>
      simp only at h
      split at h
      · exact ih h known
      · contradiction

theorem readItems_keeps (keeps : ∀ f ∈ fields, f.Keeps Q) {items : List Node}
    (h : readItems fields items start = .ok r) (known : Q start) : Q r := by
  induction fields generalizing items start with
  | nil =>
    cases items with
    | nil =>
      obtain rfl := Except.ok.inj h
      exact known
    | cons => contradiction
  | cons f more ih =>
    rw [List.forall_mem_cons] at keeps
    cases items with
    | nil =>
      unfold readItems at h
      split at h
      · contradiction
      · obtain rfl := Except.ok.inj h
        exact known
    | cons n rest =>
      obtain ⟨next, put, later⟩ := bind_eq_ok_iff.1 h
      exact ih keeps.2 later (keeps.1 n start next put known)

theorem record_keeps (keeps : ∀ f ∈ fields, f.Keeps Q) (known : Q start)
    (h : record fields start n = .ok r) : Q r := by
  unfold record at h
  split at h
  · obtain ⟨r', read, same⟩ := bind_eq_ok_iff.1 h
    split at same
    · obtain rfl := Except.ok.inj same
      exact readItems_keeps keeps read known
    · contradiction
  · obtain ⟨⟨es, complete⟩, -, h⟩ := bind_eq_ok_iff.1 h
    obtain ⟨p, read, h⟩ := bind_eq_ok_iff.1 h
    split at h
    · contradiction
    · obtain ⟨_, -, same⟩ := bind_eq_ok_iff.1 h
      obtain rfl := Except.ok.inj same
      exact readEntries_keeps keeps read known

theorem readSettled_keeps (keeps : ∀ f ∈ fields, f.Keeps Q) {entries : List (String × Node)}
    (h : readSettled fields entries p = .ok q) (known : Q p.record) : Q q.record := by
  induction entries generalizing p with
  | nil =>
    obtain rfl := Except.ok.inj h
    exact known
  | cons e rest ih =>
    obtain ⟨key, v⟩ := e
    unfold readSettled at h
    split at h
    · next f found =>
      obtain ⟨p', met, later⟩ := bind_eq_ok_iff.1 h
      exact ih later (keeps f (mem_of_find? found) _ _ _ (put_of_meet met) known)
    · exact ih h known

/-- What comes back settled has the names of no fields. -/
theorem unknown_of_partly {others : List (String × Node)} (h : partly fields start n = .ok (r, others)) :
    ∀ e ∈ others, find? fields e.1 = none := by
  have unknown {entries : List (Node × Node)} {p q : Progress σ} {others : List (String × Node)}
      (h : readSome fields entries p = .ok (q, others)) : ∀ e ∈ others, find? fields e.1 = none := by
    induction entries generalizing p q others with
    | nil =>
      obtain ⟨-, rfl⟩ := Prod.mk.inj (Except.ok.inj h)
      simp
    | cons e rest ih =>
      obtain ⟨key, named, h⟩ := bind_eq_ok_iff.1 h
      cases found : find? fields key with
      | some f =>
        simp only [found] at h
        obtain ⟨p', met, later⟩ := bind_eq_ok_iff.1 h
        exact ih later
      | none =>
        simp only [found] at h
        obtain ⟨m, settled, h⟩ := bind_eq_ok_iff.1 h
        obtain ⟨⟨q', more⟩, later, same⟩ := bind_eq_ok_iff.1 h
        obtain ⟨-, rfl⟩ := Prod.mk.inj (Except.ok.inj same)
        exact List.forall_mem_cons.2 ⟨found, ih later⟩
  obtain ⟨⟨es, complete⟩, -, h⟩ := bind_eq_ok_iff.1 h
  obtain ⟨⟨p, more⟩, read, h⟩ := bind_eq_ok_iff.1 h
  dsimp only at h
  split at h
  · contradiction
  · obtain ⟨_, -, same⟩ := bind_eq_ok_iff.1 h
    obtain ⟨-, rfl⟩ := Prod.mk.inj (Except.ok.inj same)
    exact unknown read

end RecordField
end Document
end ProductTemplates
