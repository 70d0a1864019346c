import ProductTemplates.Document.Reading
import ProductTemplates.Proofs.Except

/-! Documents in which the collections that are nested too deep were refused. What is read of such a
document is read of the whole one: a refused part is skipped, or the reading fails. -/
namespace ProductTemplates.Document

namespace Node

mutual
/-- The node, in which collections are refused that are nested deeper than `room`. -/
def within (room : Nat) : Node → Node
  | .sequence shape items complete =>
    if room = 0 ∧ complete then .refused
    else .sequence shape (allWithin (room - 1) items) complete
  | .mapping shape entries complete =>
    if room = 0 ∧ complete then .refused
    else .mapping shape (entriesWithin (room - 1) entries) complete
  | n => n
def allWithin (room : Nat) : List Node → List Node
  | [] => []
  | n :: rest => within room n :: allWithin room rest
def entriesWithin (room : Nat) : List (Node × Node) → List (Node × Node)
  | [] => []
  | (k, v) :: rest => (within room k, within room v) :: entriesWithin room rest
end

/-- Whether a reader makes of a document with refused parts only what it makes of the whole. -/
def Steady {α : Type} (reader : Reader α) : Prop :=
  ∀ room n x, reader (n.within room) = .ok x → reader n = .ok x

variable {room : Nat} {n m : Node} {s : Scalar} {α β : Type} {reader : Reader α}

@[simp] theorem isWhole_within : (n.within room).isWhole = n.isWhole := by
  cases n with
  | sequence shape parts complete | mapping shape parts complete =>
    rw [within]
    split
    · next refused => simp [isWhole, refused.2]
    · rfl
  | _ => rfl

@[simp] theorem key?_within : (n.within room).key? = n.key? := by
  cases n with
  | sequence | mapping =>
    rw [within]
    split <;> rfl
  | _ => rfl

@[simp] theorem steady_string : Steady string := by
  intro room n x read
  rwa [string, key?_within] at read

-- by recursion on the whole document; the room shrinks with each collection around a part
mutual
theorem value?_of_within (room : Nat) (n : Node) (v : Value) (h : (n.within room).value? = some v) :
    n.value? = some v := by
  cases n with
  | scalar | refused | malformed => exact h
  | sequence shape items complete =>
    rw [within] at h
    split at h
    · contradiction
    · obtain ⟨xs, read, rest⟩ := Option.bind_eq_some_iff.1 h
      exact Option.bind_eq_some_iff.2 ⟨xs, values?_of_within _ items xs read, rest⟩
  | mapping shape entries complete =>
    rw [within] at h
    split at h
    · contradiction
    · obtain ⟨es, read, rest⟩ := Option.bind_eq_some_iff.1 h
      exact Option.bind_eq_some_iff.2 ⟨es, valueEntries?_of_within _ entries [] es read, rest⟩
theorem values?_of_within (room : Nat) (items : List Node) (xs : List Value)
    (h : values? (allWithin room items) = some xs) : values? items = some xs := by
  cases items with
  | nil => exact h
  | cons n rest =>
    obtain ⟨x, here, h⟩ := Option.bind_eq_some_iff.1 h
    obtain ⟨more, there, same⟩ := Option.bind_eq_some_iff.1 h
    refine Option.bind_eq_some_iff.2 ⟨x, value?_of_within _ n x here, ?_⟩
    exact Option.bind_eq_some_iff.2 ⟨more, values?_of_within _ rest more there, same⟩
theorem valueEntries?_of_within (room : Nat) (entries : List (Node × Node)) (seen : List Value)
    (es : List (Value × Value)) (h : valueEntries? seen (entriesWithin room entries) = some es) :
    valueEntries? seen entries = some es := by
  match entries with
  | [] => exact h
  | (k, v) :: rest =>
    obtain ⟨key, named, h⟩ := Option.bind_eq_some_iff.1 h
    refine Option.bind_eq_some_iff.2 ⟨key, value?_of_within _ k key named, ?_⟩
    split at h
    · contradiction
    · next fresh =>
      obtain ⟨x, here, h⟩ := Option.bind_eq_some_iff.1 h
      obtain ⟨more, there, same⟩ := Option.bind_eq_some_iff.1 h
      rw [if_neg fresh]
      refine Option.bind_eq_some_iff.2 ⟨x, value?_of_within _ v x here, ?_⟩
      exact Option.bind_eq_some_iff.2
        ⟨more, valueEntries?_of_within _ rest _ more there, same⟩
end

@[simp] theorem steady_value : Steady value := by
  intro room n x read
  unfold value at read ⊢
  split at read
  · next v known => rwa [value?_of_within room n v known]
  · contradiction

theorem settle?_scalar_iff : (Node.scalar s).settle? = some m ↔
    s.localTag? = none ∧ ∃ a, s.atom? = some a ∧ m = ofAtom a := by
  rw [settle?]
  cases s.localTag? with
  | none =>
    refine Option.map_eq_some_iff.trans ?_
    simp only [true_and, eq_comm]
  | some tag => simp

theorem settle?_sequence_iff {shape : Shape} {items : List Node} {complete : Bool} :
    (Node.sequence shape items complete).settle? = some m ↔ shape.localTag? = none ∧ complete = true ∧
      ∃ xs, settleAll? items = some xs ∧ m = .sequence .typed xs true := by
  rw [settle?]
  cases shape.localTag? with
  | none =>
    cases complete with
    | true => simp [Option.bind_eq_some_iff, @eq_comm _ m]
    | false => simp
  | some tag => simp

theorem settle?_mapping_iff {shape : Shape} {entries : List (Node × Node)} {complete : Bool} :
    (Node.mapping shape entries complete).settle? = some m ↔ shape.localTag? = none ∧ complete = true ∧
      ∃ es, settleEntries? entries = some es ∧ m = .mapping .typed es true := by
  rw [settle?]
  cases shape.localTag? with
  | none =>
    cases complete with
    | true => simp [Option.bind_eq_some_iff, @eq_comm _ m]
    | false => simp
  | some tag => simp

theorem settleAll?_cons_iff {rest xs : List Node} : settleAll? (n :: rest) = some xs ↔
    ∃ x more, n.settle? = some x ∧ settleAll? rest = some more ∧ xs = x :: more := by
  rw [settleAll?]
  simp [Option.bind_eq_some_iff, @eq_comm _ xs]

theorem settleEntries?_cons_iff {e : Node × Node} {rest es : List (Node × Node)} :
    settleEntries? (e :: rest) = some es ↔ ∃ key x more, e.1.settle? = some key ∧
      e.2.settle? = some x ∧ settleEntries? rest = some more ∧ es = (key, x) :: more := by
  obtain ⟨k, v⟩ := e
  rw [settleEntries?]
  simp [Option.bind_eq_some_iff, @eq_comm _ es]

mutual
theorem settle?_of_within (room : Nat) (n m : Node) (h : (n.within room).settle? = some m) :
    n.settle? = some m := by
  cases n with
  | scalar | refused | malformed => exact h
  | sequence shape items complete =>
    rw [within] at h
    split at h
    · contradiction
    · obtain ⟨noTag, whole, xs, read, same⟩ := settle?_sequence_iff.1 h
      exact settle?_sequence_iff.2 ⟨noTag, whole, xs, settleAll?_of_within _ items xs read, same⟩
  | mapping shape entries complete =>
    rw [within] at h
    split at h
    · contradiction
    · obtain ⟨noTag, whole, es, read, same⟩ := settle?_mapping_iff.1 h
      exact settle?_mapping_iff.2 ⟨noTag, whole, es, settleEntries?_of_within _ entries es read, same⟩
theorem settleAll?_of_within (room : Nat) (items xs : List Node)
    (h : settleAll? (allWithin room items) = some xs) : settleAll? items = some xs := by
  cases items with
  | nil => exact h
  | cons n rest =>
    obtain ⟨x, more, here, there, same⟩ := settleAll?_cons_iff.1 h
    exact settleAll?_cons_iff.2
      ⟨x, more, settle?_of_within _ n x here, settleAll?_of_within _ rest more there, same⟩
theorem settleEntries?_of_within (room : Nat) (entries es : List (Node × Node))
    (h : settleEntries? (entriesWithin room entries) = some es) :
    settleEntries? entries = some es := by
  match entries with
  | [] => exact h
  | (k, v) :: rest =>
    obtain ⟨key, x, more, named, here, there, same⟩ := settleEntries?_cons_iff.1 h
    exact settleEntries?_cons_iff.2 ⟨key, x, more, settle?_of_within _ k key named,
      settle?_of_within _ v x here, settleEntries?_of_within _ rest more there, same⟩
end

theorem steady_settled : Steady settled := by
  intro room n x read
  unfold settled at read ⊢
  split at read
  · next m known => rwa [settle?_of_within room n m known]
  · contradiction

theorem steady_bind (steady : Steady reader) (f : α → Except ReadError β) :
    Steady fun n => reader n >>= f := by
  intro room n x read
  obtain ⟨y, here, rest⟩ := bind_eq_ok_iff.1 read
  exact bind_eq_ok_iff.2 ⟨y, steady room n y here, rest⟩

@[simp] theorem steady_optional (steady : Steady reader) : Steady (optional reader) := by
  intro room n x read
  cases n with
  | scalar | refused | malformed => exact read
  | sequence shape parts complete | mapping shape parts complete =>
    have inner {m : Node} (h : (reader (m.within room)).map some = .ok x) :
        (reader m).map some = .ok x := by
      obtain ⟨y, here, rfl⟩ := map_eq_ok_iff.1 h
      exact map_eq_ok_iff.2 ⟨y, steady room m y here, rfl⟩
    refine inner ?_
    rw [← read, within]
    split <;> rfl

@[simp] theorem steady_scalarText : Steady scalarText := steady_bind (steady_optional steady_value) _

@[simp] theorem steady_requiredText : Steady requiredText := steady_bind steady_scalarText _

theorem mapM_of_allWithin (steady : Steady reader) {items : List Node} {xs : List α}
    (h : (allWithin room items).mapM reader = .ok xs) : items.mapM reader = .ok xs := by
  induction items generalizing xs with
  | nil => exact h
  | cons n rest ih =>
    rw [allWithin, mapM_cons_eq_ok_iff] at h
    obtain ⟨x, more, here, there, same⟩ := h
    exact mapM_cons_eq_ok_iff.2 ⟨x, more, steady room n x here, ih there, same⟩

@[simp] theorem steady_list (steady : Steady reader) : Steady (list reader) := by
  intro room n xs read
  cases n with
  | scalar | refused | malformed => exact read
  | sequence shape items complete =>
    rw [within] at read
    split at read
    · contradiction
    · obtain ⟨ys, here, rest⟩ := bind_eq_ok_iff.1 read
      exact bind_eq_ok_iff.2 ⟨ys, mapM_of_allWithin steady here, rest⟩
  | mapping =>
    rw [within] at read
    split at read <;> contradiction

theorem entries_of_within {es : List (Node × Node)} {complete : Bool}
    (h : (n.within room).entries = .ok (es, complete)) :
    ∃ whole, n.entries = .ok (whole, complete) ∧ es = entriesWithin (room - 1) whole := by
  cases n with
  | scalar s =>
    refine ⟨es, h, ?_⟩
    change (if s.isBlank then Except.ok ([], true) else .error ReadError.malformed) = _ at h
    split at h
    · obtain ⟨rfl, -⟩ := Prod.mk.inj (Except.ok.inj h)
      rfl
    · contradiction
  | refused | malformed => contradiction
  | sequence =>
    rw [within] at h
    split at h <;> contradiction
  | mapping shape whole =>
    rw [within] at h
    split at h
    · contradiction
    · obtain ⟨rfl, rfl⟩ := Prod.mk.inj (Except.ok.inj h)
      exact ⟨whole, rfl, rfl⟩

theorem mapM_of_entriesWithin {read : Node × Node → Except ReadError α} {entries : List (Node × Node)}
    {xs : List α}
    (steady : ∀ k v x, read (within room k, within room v) = .ok x → read (k, v) = .ok x)
    (h : (entriesWithin room entries).mapM read = .ok xs) : entries.mapM read = .ok xs := by
  induction entries generalizing xs with
  | nil => exact h
  | cons e rest ih =>
    obtain ⟨k, v⟩ := e
    rw [entriesWithin, mapM_cons_eq_ok_iff] at h
    obtain ⟨x, more, here, there, same⟩ := h
    exact mapM_cons_eq_ok_iff.2 ⟨x, more, steady k v x here, ih there, same⟩

@[simp] theorem steady_dictionary : Steady dictionary := by
  intro room n d read
  obtain ⟨⟨es, complete⟩, found, h⟩ := bind_eq_ok_iff.1 read
  obtain ⟨pairs, each, same⟩ := bind_eq_ok_iff.1 h
  obtain ⟨whole, found', rfl⟩ := entries_of_within found
  refine bind_eq_ok_iff.2 ⟨_, found', bind_eq_ok_iff.2 ⟨pairs, ?_, same⟩⟩
  refine mapM_of_entriesWithin (fun k v x here => ?_) each
  obtain ⟨key, named, h⟩ := bind_eq_ok_iff.1 here
  obtain ⟨y, inside, same⟩ := bind_eq_ok_iff.1 h
  exact bind_eq_ok_iff.2 ⟨key, steady_string _ _ _ named,
    bind_eq_ok_iff.2 ⟨y, steady_value _ _ _ inside, same⟩⟩

end Node

namespace RecordField

open Node

variable {σ : Type} {fields : List (RecordField σ)} {room : Nat} {f : RecordField σ}
  {p q : Progress σ} {entries : List (Node × Node)}

def IsSteady (f : RecordField σ) : Prop :=
  ∀ room n r r', f.put (n.within room) r = .ok r' → f.put n r = .ok r'

@[simp] theorem isSteady_of {α : Type} {reader : Reader α} (steady : Steady reader) (name : String)
    (set : α → σ → σ) : (RecordField.of name reader set).IsSteady := by
  intro room n r r' h
  obtain ⟨x, here, same⟩ := map_eq_ok_iff.1 h
  exact map_eq_ok_iff.2 ⟨x, steady room n x here, same⟩

@[simp] theorem isSteady_needed : f.needed.IsSteady ↔ f.IsSteady := Iff.rfl

@[simp] theorem isSteady_orNamed {other : String} : (f.orNamed other).IsSteady ↔ f.IsSteady := Iff.rfl

theorem meet_of_within (steady : f.IsSteady) {v : Node} (h : f.meet (v.within room) p = .ok q) :
    f.meet v p = .ok q := by
  unfold meet at h ⊢
  split at h
  · contradiction
  · next fresh =>
    rw [if_neg fresh]
    obtain ⟨r, here, same⟩ := bind_eq_ok_iff.1 h
    exact bind_eq_ok_iff.2 ⟨r, steady room v _ _ here, same⟩

theorem mem_of_find? {key : String} (h : find? fields key = some f) : f ∈ fields :=
  List.mem_of_find?_eq_some h

theorem mem_of_ofKey {k : Node} (h : ofKey fields k = .ok (some f)) : f ∈ fields := by
  unfold ofKey at h
  split at h
  · split at h
    · contradiction
    · exact List.mem_of_getElem? (Except.ok.inj h)
  · obtain ⟨key, -, found⟩ := bind_eq_ok_iff.1 h
    exact mem_of_find? (Except.ok.inj found)

theorem ofKey_of_within {k : Node} {known : Option (RecordField σ)}
    (h : ofKey fields (k.within room) = .ok known) : ofKey fields k = .ok known := by
  cases k with
  | scalar | refused | malformed => exact h
  | sequence | mapping =>
    rw [within] at h
    split at h <;> contradiction

theorem readEntries_of_within (steady : ∀ f ∈ fields, f.IsSteady)
    (h : readEntries fields (entriesWithin room entries) p = .ok q) :
    readEntries fields entries p = .ok q := by
  induction entries generalizing p with
  | nil => exact h
  | cons e rest ih =>
    obtain ⟨k, v⟩ := e
    obtain ⟨known, named, h⟩ := bind_eq_ok_iff.1 h
    refine bind_eq_ok_iff.2 ⟨known, ofKey_of_within named, ?_⟩
    cases known with
    | some f =>
      obtain ⟨p', met, rest'⟩ := bind_eq_ok_iff.1 h
      have there := steady f (mem_of_ofKey named)
      exact bind_eq_ok_iff.2 ⟨p', meet_of_within there met, ih rest'⟩
    | none =>
      simp only [isWhole_within] at h ⊢
      split at h
      · next whole =>
        rw [if_pos whole]
        exact ih h
      · contradiction

theorem readItems_of_within {items : List Node} {r r' : σ} (steady : ∀ f ∈ fields, f.IsSteady)
    (h : readItems fields (allWithin room items) r = .ok r') : readItems fields items r = .ok r' := by
  induction fields generalizing items r with
  | nil => cases items <;> exact h
  | cons f more ih =>
    rw [List.forall_mem_cons] at steady
    cases items with
    | nil => exact h
    | cons n rest =>
      obtain ⟨next, here, there⟩ := bind_eq_ok_iff.1 h
      exact bind_eq_ok_iff.2 ⟨next, steady.1 room n r next here, ih steady.2 there⟩

theorem steady_record (steady : ∀ f ∈ fields, f.IsSteady) (start : σ) :
    Steady (record fields start) := by
  intro room n r read
  cases n with
  | scalar | refused | malformed => exact read
  | mapping shape entries complete =>
    rw [within] at read
    split at read
    · contradiction
    · obtain ⟨_, found, read⟩ := bind_eq_ok_iff.1 read
      obtain rfl := Except.ok.inj found
      obtain ⟨p, each, rest⟩ := bind_eq_ok_iff.1 read
      exact bind_eq_ok_iff.2 ⟨_, rfl, bind_eq_ok_iff.2 ⟨p, readEntries_of_within steady each, rest⟩⟩
  | sequence shape items complete =>
    rw [within] at read
    split at read
    · contradiction
    · cases shape with
      | written => contradiction
      | typed =>
        obtain ⟨r', each, rest⟩ := bind_eq_ok_iff.1 read
        exact bind_eq_ok_iff.2 ⟨r', readItems_of_within steady each, rest⟩

theorem readSome_of_within (steady : ∀ f ∈ fields, f.IsSteady)
    {result : Progress σ × List (String × Node)}
    (h : readSome fields (entriesWithin room entries) p = .ok result) :
    readSome fields entries p = .ok result := by
  induction entries generalizing p result with
  | nil => exact h
  | cons e rest ih =>
    obtain ⟨k, v⟩ := e
    obtain ⟨key, named, h⟩ := bind_eq_ok_iff.1 h
    refine bind_eq_ok_iff.2 ⟨key, steady_string _ _ _ named, ?_⟩
    cases found : find? fields key with
    | some f =>
      simp only [found] at h ⊢
      obtain ⟨p', met, rest'⟩ := bind_eq_ok_iff.1 h
      have there := steady f (mem_of_find? found)
      exact bind_eq_ok_iff.2 ⟨p', meet_of_within there met, ih rest'⟩
    | none =>
      simp only [found] at h ⊢
      obtain ⟨m, settled, h⟩ := bind_eq_ok_iff.1 h
      obtain ⟨later, rest', same⟩ := bind_eq_ok_iff.1 h
      exact bind_eq_ok_iff.2 ⟨m, steady_settled _ _ _ settled,
        bind_eq_ok_iff.2 ⟨later, ih rest', same⟩⟩

theorem steady_partly (steady : ∀ f ∈ fields, f.IsSteady) (start : σ) :
    Steady (partly fields start) := by
  intro room n result read
  obtain ⟨⟨es, complete⟩, found, h⟩ := bind_eq_ok_iff.1 read
  obtain ⟨whole, found', rfl⟩ := entries_of_within found
  obtain ⟨p, each, rest⟩ := bind_eq_ok_iff.1 h
  exact bind_eq_ok_iff.2 ⟨_, found', bind_eq_ok_iff.2 ⟨p, readSome_of_within steady each, rest⟩⟩

end RecordField
end ProductTemplates.Document
