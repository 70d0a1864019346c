import ProductTemplates.Proofs.Document.Settling

/-! Documents that say their types by themselves. Settling leaves opaque values as they are, and texts
where they are texts by themselves; lists and records of such parts are read alike. -/
namespace ProductTemplates.Document

open Node

variable {α σ : Type} {reader : Reader α} {n m : Node} {s : Scalar} {a : Atom} {t text : String}

namespace Scalar

theorem plain_atom?_eq_string (h : Plain.atom? text = some (.string t)) : text = t := by
  unfold Plain.atom? at h
  dsimp only at h
  split at h
  · cases h
  · split at h
    · cases h
    · split at h
      rotate_left
      split at h
      · cases h
      · cases h
      all_goals
        split at h
        · exact Atom.string.inj (Option.some.inj h)
        · split at h
          · cases h
          · exact Atom.string.inj (Option.some.inj h)

/-- What is a text by itself is taken as that text by a field of text. -/
theorem text?_of_atom? (h : s.atom? = some (.string t)) : s.text? = some t := by
  cases s with
  | atom b =>
    obtain rfl := Option.some.inj h
    rfl
  | written text plain tag =>
    have untagged (h : (if plain then Plain.atom? text else some (.string text)) = some (.string t)) :
        text = t := by
      cases plain with
      | true => exact plain_atom?_eq_string h
      | false => exact Atom.string.inj (Option.some.inj h)
    suffices same : text = t from congrArg some same
    cases tag with
    | none => exact untagged h
    | some tag =>
      simp only [atom?] at h
      split at h
      · exact untagged h
      · split at h
        · obtain ⟨_, -, same⟩ := Option.map_eq_some_iff.1 h
          cases same
        · split at h
          · obtain ⟨_, -, same⟩ := Option.bind_eq_some_iff.1 h
            split at same <;> cases same
          · split at h
            · obtain ⟨_, -, same⟩ := Option.map_eq_some_iff.1 h
              cases same
            · split at h
              · split at h <;> cases h
              · exact Atom.string.inj (Option.some.inj h)

theorem atom?_of_isAbsent? (h : s.isAbsent? = some true) :
    s.localTag? = none ∧ s.atom? = some .null := by
  cases s with
  | atom b =>
    obtain rfl : b = .null := by simpa [isAbsent?] using h
    exact ⟨rfl, rfl⟩
  | written text plain tag =>
    cases plain with
    | false => cases h
    | true =>
      cases tag with
      | none =>
        have absent : (text == "" || Plain.isNull text) = true := Option.some.inj h
        exact ⟨rfl, by simp [atom?, Plain.atom?, absent]⟩
      | some tag =>
        simp only [isAbsent?, Bool.not_true, Bool.false_eq_true, if_false] at h
        split at h
        · next null =>
          obtain rfl : tag = standardTag "null" := by simpa using null
          split at h
          · next isNull => exact ⟨rfl, by rw [atom?, if_pos isNull]; rfl⟩
          · contradiction
        · contradiction

theorem atom?_of_isAbsent?_eq_none (h : s.isAbsent? = none) : s.atom? = none := by
  cases s with
  | atom => contradiction
  | written text plain tag =>
    cases plain with
    | false => contradiction
    | true =>
      cases tag with
      | none => contradiction
      | some tag =>
        simp only [isAbsent?, Bool.not_true, Bool.false_eq_true, if_false] at h
        split at h
        · next null =>
          obtain rfl : tag = standardTag "null" := by simpa using null
          split at h
          · contradiction
          · next notNull => rw [atom?, if_neg notNull]; rfl
        · contradiction

end Scalar

-- by recursion on the document: without local tags, nothing in a value depends on who settles it
mutual
theorem value?_of_settle? (n m : Node) (h : n.settle? = some m) : m.value? = n.value? := by
  cases n with
  | scalar s =>
    obtain ⟨noTag, a, atom, rfl⟩ := settle?_scalar_iff.1 h
    rw [value?, noTag, atom]
    rfl
  | sequence shape items complete =>
    obtain ⟨noTag, rfl, xs, each, rfl⟩ := settle?_sequence_iff.1 h
    rw [value?, value?, values?_of_settleAll? items xs each, noTag]
    rfl
  | mapping shape entries complete =>
    obtain ⟨noTag, rfl, es, each, rfl⟩ := settle?_mapping_iff.1 h
    rw [value?, value?, valueEntries?_of_settleEntries? entries es each, noTag]
    rfl
  | refused | malformed => contradiction
theorem values?_of_settleAll? (items xs : List Node) (h : settleAll? items = some xs) :
    values? xs = values? items := by
  cases items with
  | nil =>
    obtain rfl := Option.some.inj h
    rfl
  | cons n rest =>
    obtain ⟨x, more, here, there, rfl⟩ := settleAll?_cons_iff.1 h
    rw [values?, values?, value?_of_settle? n x here, values?_of_settleAll? rest more there]
theorem valueEntries?_of_settleEntries? (entries es : List (Node × Node))
    (h : settleEntries? entries = some es) (seen : List Value) :
    valueEntries? seen es = valueEntries? seen entries := by
  match entries with
  | [] =>
    obtain rfl := Option.some.inj h
    rfl
  | (k, v) :: rest =>
    obtain ⟨key, x, more, named, here, there, rfl⟩ := settleEntries?_cons_iff.1 h
    rw [valueEntries?, valueEntries?, value?_of_settle? k key named, value?_of_settle? v x here]
    simp only [valueEntries?_of_settleEntries? rest more there]
end

theorem value_of_settle? (h : n.settle? = some m) : m.value = n.value := by
  rw [value, value, value?_of_settle? n m h]

/-- Whether a node is a text also when nobody says what it should be. -/
def Node.IsText (n : Node) : Prop := ∃ t, n.settle? = some (ofAtom (.string t))

theorem string_of_settle? (h : n.settle? = some (ofAtom (.string t))) : n.string = .ok t := by
  cases n with
  | scalar s =>
    obtain ⟨-, a, atom, same⟩ := settle?_scalar_iff.1 h
    obtain rfl : Atom.string t = a := by simpa [ofAtom] using same
    simp [string, key?, Scalar.text?_of_atom? atom]
  | sequence =>
    obtain ⟨-, -, _, -, same⟩ := settle?_sequence_iff.1 h
    cases same
  | mapping =>
    obtain ⟨-, -, _, -, same⟩ := settle?_mapping_iff.1 h
    cases same
  | refused | malformed => contradiction

theorem readsSettled_of_eq (h : n.settle? = some m) (same : reader m = reader n) :
    ReadsSettled reader n := by
  intro x
  constructor
  · intro read
    exact ⟨m, h, same.trans read⟩
  · rintro ⟨m', h', read⟩
    obtain rfl := Option.some.inj (h.symm.trans h')
    exact same.symm.trans read

theorem readsSettled_of_never (never : ∀ x, reader n ≠ .ok x)
    (never' : ∀ m, n.settle? = some m → ∀ x, reader m ≠ .ok x) : ReadsSettled reader n := by
  intro x
  constructor
  · intro read
    exact absurd read (never x)
  · rintro ⟨m, h, read⟩
    exact absurd read (never' m h x)

theorem readsSettled_string (h : n.IsText) : ReadsSettled string n := by
  obtain ⟨t, h⟩ := h
  exact readsSettled_of_eq h (string_of_settle? h).symm

theorem Node.IsText.textual (h : n.IsText) : RecordField.Textual n := by
  rintro i rfl
  obtain ⟨t, h⟩ := h
  cases h

theorem optional_unreadable (h : s.isAbsent? = none) :
    Node.optional reader (.scalar s) = .error .malformed := by
  rw [Node.optional, h]

theorem optional_absent (h : s.isAbsent? = some true) :
    Node.optional reader (.scalar s) = .ok none := by
  rw [Node.optional, h]

theorem optional_present (h : s.isAbsent? = some false) :
    Node.optional reader (.scalar s) = (reader (.scalar s)).map some := by
  rw [Node.optional, h]

theorem eq_of_optionalString (h : n.settle? = some m) (read : optional string m = .ok (some t)) :
    m = ofAtom (.string t) := by
  cases n with
  | scalar s =>
    obtain ⟨-, a, -, rfl⟩ := settle?_scalar_iff.1 h
    cases a with
    | string t' =>
      obtain rfl : t' = t := Option.some.inj (Except.ok.inj read)
      rfl
    | null | bool | number => cases read
  | sequence =>
    obtain ⟨-, -, _, -, rfl⟩ := settle?_sequence_iff.1 h
    cases read
  | mapping =>
    obtain ⟨-, -, _, -, rfl⟩ := settle?_mapping_iff.1 h
    cases read
  | refused | malformed => contradiction

theorem readsSettled_optionalString_scalar
    (texts : ∀ t, optional string (.scalar s) = .ok (some t) → (Node.scalar s).IsText) :
    ReadsSettled (optional string) (.scalar s) := by
  cases absent : s.isAbsent? with
  | none =>
    have unsettled : (Node.scalar s).settle? = none := by
      rw [settle?, Scalar.atom?_of_isAbsent?_eq_none absent]
      simp
    intro x
    simp [optional_unreadable absent, unsettled]
  | some isAbsent =>
    cases isAbsent with
    | true =>
      obtain ⟨noTag, atom⟩ := Scalar.atom?_of_isAbsent? absent
      refine readsSettled_of_eq (settle?_scalar_iff.2 ⟨noTag, _, atom, rfl⟩) ?_
      rw [optional_absent absent]
      rfl
    | false =>
      cases found : s.text? with
      | some t =>
        have read : optional string (.scalar s) = .ok (some t) := by
          simp [optional_present absent, string, key?, found, Except.map]
        obtain ⟨t', h⟩ := texts t read
        have same : t = t' := by simpa [string, key?, found] using string_of_settle? h
        apply readsSettled_of_eq h
        rw [read, same]
        rfl
      | none =>
        cases s with
        | atom a => exact readsSettled_of_eq rfl rfl
        | written => cases found

/-- An optional text is read alike iff, when it is there, it is a text by itself. -/
theorem readsSettled_optionalString_iff :
    ReadsSettled (optional string) n ↔ ∀ t, optional string n = .ok (some t) → n.IsText := by
  constructor
  · intro alike t read
    obtain ⟨m, h, read'⟩ := (alike (some t)).1 read
    exact ⟨t, eq_of_optionalString h read' ▸ h⟩
  · intro texts
    cases n with
    | scalar s => exact readsSettled_optionalString_scalar texts
    | sequence =>
      refine readsSettled_of_never nofun fun m h x read => ?_
      obtain ⟨-, -, xs, -, rfl⟩ := settle?_sequence_iff.1 h
      cases read
    | mapping =>
      refine readsSettled_of_never nofun fun m h x read => ?_
      obtain ⟨-, -, es, -, rfl⟩ := settle?_mapping_iff.1 h
      cases read
    | refused | malformed => exact readsSettled_of_never nofun fun m h => by cases h

/-- Any scalar that settles is the same text before and after. -/
theorem scalarText_of_settle? (h : n.settle? = some m) : scalarText m = scalarText n := by
  have value := value_of_settle? h
  cases n with
  | scalar s =>
    obtain ⟨noTag, a, atom, rfl⟩ := settle?_scalar_iff.1 h
    cases absent : s.isAbsent? with
    | none =>
      rw [Scalar.atom?_of_isAbsent?_eq_none absent] at atom
      contradiction
    | some isAbsent =>
      cases isAbsent with
      | true =>
        rw [(Scalar.atom?_of_isAbsent? absent).2] at atom
        obtain rfl := Option.some.inj atom
        rw [scalarText, scalarText, optional_absent absent]
        rfl
      | false =>
        rw [scalarText, scalarText, optional_present absent, ← value]
        cases a with
        | null | bool | number | string => rfl
  | sequence =>
    obtain ⟨-, -, xs, -, rfl⟩ := settle?_sequence_iff.1 h
    simp only [scalarText, Node.optional, value]
  | mapping =>
    obtain ⟨-, -, es, -, rfl⟩ := settle?_mapping_iff.1 h
    simp only [scalarText, Node.optional, value]
  | refused | malformed => contradiction

theorem readsSettled_scalarText (h : ∃ m, n.settle? = some m) : ReadsSettled scalarText n := by
  obtain ⟨m, h⟩ := h
  exact readsSettled_of_eq h (scalarText_of_settle? h)

theorem readsSettled_requiredText (h : ∃ m, n.settle? = some m) : ReadsSettled requiredText n := by
  obtain ⟨m, h⟩ := h
  apply readsSettled_of_eq h
  rw [requiredText, requiredText, scalarText_of_settle? h]

theorem isWhole_settled (h : n.settle? = some m) : m.isWhole = true := by
  cases n with
  | scalar s =>
    obtain ⟨-, a, -, rfl⟩ := settle?_scalar_iff.1 h
    rfl
  | sequence =>
    obtain ⟨-, -, xs, -, rfl⟩ := settle?_sequence_iff.1 h
    rfl
  | mapping =>
    obtain ⟨-, -, es, -, rfl⟩ := settle?_mapping_iff.1 h
    rfl
  | refused | malformed => contradiction

theorem exists_settle?_of_mem {items : List Node} {shape : Shape} {complete : Bool}
    (settles : ∃ m, (Node.sequence shape items complete).settle? = some m) (member : n ∈ items) :
    ∃ m, n.settle? = some m := by
  obtain ⟨m, h⟩ := settles
  obtain ⟨-, -, xs, all, -⟩ := settle?_sequence_iff.1 h
  clear h
  induction items generalizing xs with
  | nil => contradiction
  | cons n' rest ih =>
    obtain ⟨x, more, here, there, rfl⟩ := settleAll?_cons_iff.1 all
    rcases List.mem_cons.1 member with rfl | later
    · exact ⟨x, here⟩
    · exact ih later more there

theorem exists_settle?_of_entry {entries : List (Node × Node)} {shape : Shape} {complete : Bool}
    {e : Node × Node} (settles : ∃ m, (Node.mapping shape entries complete).settle? = some m)
    (member : e ∈ entries) : ∃ m, e.2.settle? = some m := by
  obtain ⟨m, h⟩ := settles
  obtain ⟨-, -, es, all, -⟩ := settle?_mapping_iff.1 h
  clear h
  induction entries generalizing es with
  | nil => contradiction
  | cons e' rest ih =>
    obtain ⟨key, x, more, -, here, there, rfl⟩ := settleEntries?_cons_iff.1 all
    rcases List.mem_cons.1 member with rfl | later
    · exact ⟨x, here⟩
    · exact ih later more there

theorem readsSettled_list {shape : Shape} {items : List Node} {complete : Bool}
    (settles : ∃ m, (Node.sequence shape items complete).settle? = some m)
    (alike : ∀ n ∈ items, ReadsSettled reader n) :
    ReadsSettled (list reader) (.sequence shape items complete) := by
  have each {items xs : List Node} {ys : List α} (h : settleAll? items = some xs)
      (alike : ∀ n ∈ items, ReadsSettled reader n) :
      items.mapM reader = .ok ys ↔ xs.mapM reader = .ok ys := by
    induction items generalizing xs ys with
    | nil =>
      obtain rfl := Option.some.inj h
      rfl
    | cons n rest ih =>
      obtain ⟨x, more, here, there, rfl⟩ := settleAll?_cons_iff.1 h
      rw [List.forall_mem_cons] at alike
      have same (y : α) : reader n = .ok y ↔ reader x = .ok y := by
        rw [alike.1 y, here]
        simp
      simp only [mapM_cons_eq_ok_iff, same, ih there alike.2]
  obtain ⟨m, h⟩ := settles
  obtain ⟨-, rfl, xs, all, rfl⟩ := settle?_sequence_iff.1 h
  intro ys
  rw [h]
  simp only [list, Option.some.injEq, exists_eq_left', if_true, bind_eq_ok_iff, each all alike]

theorem readsSettled_dictionary {shape : Shape} {entries : List (Node × Node)} {complete : Bool}
    (settles : ∃ m, (Node.mapping shape entries complete).settle? = some m)
    (keys : ∀ e ∈ entries, e.1.IsText) :
    ReadsSettled dictionary (.mapping shape entries complete) := by
  obtain ⟨m, h⟩ := settles
  obtain ⟨-, rfl, es, all, rfl⟩ := settle?_mapping_iff.1 h
  apply readsSettled_of_eq h
  have each {entries es : List (Node × Node)} (h : settleEntries? entries = some es)
      (keys : ∀ e ∈ entries, e.1.IsText) :
      (es.mapM fun e => do return (← e.1.string, ← e.2.value)) =
        (entries.mapM fun e => do return (← e.1.string, ← e.2.value) :
          Except ReadError (List (String × Value))) := by
    induction entries generalizing es with
    | nil =>
      obtain rfl := Option.some.inj h
      rfl
    | cons e rest ih =>
      obtain ⟨key, x, more, named, here, there, rfl⟩ := settleEntries?_cons_iff.1 h
      rw [List.forall_mem_cons] at keys
      obtain ⟨t, text⟩ := keys.1
      obtain rfl := Option.some.inj (named.symm.trans text)
      have same : (ofAtom (.string t)).string = e.1.string := (string_of_settle? text).symm
      rw [List.mapM_cons, List.mapM_cons, ih there keys.2]
      simp only [same, value_of_settle? here]
  exact congrArg (· >>= fun pairs => return Dictionary.ofList pairs) (each all keys)

namespace RecordField

variable {fields : List (RecordField σ)} {entries es : List (Node × Node)} {p q : Progress σ}

theorem readEntries_of_settleEntries? (h : settleEntries? entries = some es)
    (keys : ∀ e ∈ entries, e.1.IsText) (alike : ∀ e ∈ entries, EntrySettles fields e) :
    readEntries fields es p = .ok q ↔ readEntries fields entries p = .ok q := by
  induction entries generalizing es p with
  | nil =>
    obtain rfl := Option.some.inj h
    rfl
  | cons e rest ih =>
    obtain ⟨key, x, more, named, here, there, rfl⟩ := settleEntries?_cons_iff.1 h
    rw [List.forall_mem_cons] at keys alike
    obtain ⟨t, text⟩ := keys.1
    obtain rfl := Option.some.inj (named.symm.trans text)
    have string := string_of_settle? text
    have string' : (ofAtom (.string t)).string = .ok t := rfl
    have textual : Textual (ofAtom (.string t)) := by
      intro i same
      cases same
    rw [readEntries_cons_iff textual, readEntries_cons_iff keys.1.textual]
    simp only [string, string', Except.ok.injEq, exists_eq_left']
    cases found : find? fields t with
    | some f =>
      have put (r r' : σ) : f.put x r = .ok r' ↔ f.put e.2 r = .ok r' := by
        rw [alike.1.known t f string found r r', here]
        simp
      simp only [meet_eq_ok_iff, put, ih there keys.2 alike.2]
    | none => simp only [isWhole_of_settle? here, isWhole_settled here, ih there keys.2 alike.2]

theorem readsSettled_record {start : σ} {shape : Shape} {complete : Bool}
    (settles : ∃ m, (Node.mapping shape entries complete).settle? = some m)
    (keys : ∀ e ∈ entries, e.1.IsText) (alike : ∀ e ∈ entries, EntrySettles fields e) :
    ReadsSettled (record fields start) (.mapping shape entries complete) := by
  obtain ⟨m, h⟩ := settles
  obtain ⟨-, rfl, es, all, rfl⟩ := settle?_mapping_iff.1 h
  intro r
  rw [h]
  simp only [record, Node.entries, Option.some.injEq, exists_eq_left', bind_eq_ok_iff,
    readEntries_of_settleEntries? all keys alike, Except.ok.injEq]

theorem readsSettled_put {f : RecordField σ} {set : α → σ → σ}
    (put : f.put = fun n r => (reader n).map (set · r)) (h : ReadsSettled reader n) (r : σ) :
    ReadsSettled (f.put · r) n := by
  intro r'
  simp only [put, map_eq_ok_iff]
  constructor
  · rintro ⟨x, read, rfl⟩
    obtain ⟨m, settles, read'⟩ := (h x).1 read
    exact ⟨m, settles, x, read', rfl⟩
  · rintro ⟨m, settles, x, read, rfl⟩
    exact ⟨x, (h x).2 ⟨m, settles, read⟩, rfl⟩

theorem answersTo_of_find? {f : RecordField σ} {key : String} (h : find? fields key = some f) :
    f.answersTo key = true := by
  rw [find?] at h
  have answers := List.find?_some h
  exact answers

theorem answersTo_of_iff {name key : String} {set : α → σ → σ} :
    (of name reader set).answersTo key = true ↔ name = key := by
  simp [answersTo, of]

/-- Whether a field reads alike whatever settles, if under `names` it is a text. -/
def ReadsTyped (names : List String) (f : RecordField σ) : Prop :=
  ∀ key v r, f.answersTo key = true → (∃ m, v.settle? = some m) → (key ∈ names → v.IsText) →
    ReadsSettled (f.put · r) v

end RecordField

/-- Whether a node is a mapping with texts as keys, and with texts under `names`. -/
def NamesTexts (names : List String) : Node → Prop
  | .mapping _ entries _ =>
    ∀ e ∈ entries, e.1.IsText ∧ ∀ name ∈ names, e.1.string = .ok name → e.2.IsText
  | _ => False

open RecordField

theorem readsSettled_of_namesTexts {fields : List (RecordField σ)} {start : σ} {names : List String}
    (each : ∀ f ∈ fields, f.ReadsTyped names) (settles : ∃ m, n.settle? = some m)
    (texts : NamesTexts names n) : ReadsSettled (record fields start) n := by
  cases n with
  | mapping shape entries complete =>
    refine readsSettled_record settles (fun e member => (texts e member).1) fun e member => ?_
    have here := exists_settle?_of_entry settles member
    constructor
    · intro key f string found r
      exact each f (mem_of_find? found) key e.2 r (answersTo_of_find? found) here
        fun inside => (texts e member).2 key inside string
    · exact fun _ _ _ _ => here
  | scalar | sequence | refused | malformed => exact texts.elim

end ProductTemplates.Document
