import ProductTemplates.Proofs.Document.Reading

/-! Reading before and after settling. A record that is read from entries as they are written is the
one that is read from the settled entries iff each field reads its value alike. -/
namespace ProductTemplates.Document

open Node

/-- Whether a reader makes of a node just what it makes of the settled node. -/
def ReadsSettled {α : Type} (reader : Reader α) (n : Node) : Prop :=
  ∀ x, reader n = .ok x ↔ ∃ m, n.settle? = some m ∧ reader m = .ok x

theorem isWhole_of_settle? {n m : Node} (h : n.settle? = some m) : n.isWhole = true := by
  cases n with
  | scalar | refused => rfl
  | malformed => contradiction
  | sequence =>
    obtain ⟨-, whole, -⟩ := settle?_sequence_iff.1 h
    exact whole
  | mapping =>
    obtain ⟨-, whole, -⟩ := settle?_mapping_iff.1 h
    exact whole

theorem Source.read_eq_ok_iff {α : Type} {reader : Reader α} {n : Node} {alone : Bool} {x : α} :
    Source.read ⟨n, alone⟩ reader = .ok x ↔ reader n = .ok x ∧ alone = true := by
  rw [Source.read, bind_eq_ok_iff]
  cases alone <;> simp [throw, throwThe, MonadExceptOf.throw, pure, Except.pure]

namespace RecordField

variable {σ α : Type} {fields : List (RecordField σ)} {f g : RecordField σ} {key : String}
  {entries : List (Node × Node)} {others : List (String × Node)} {e : Node × Node}
  {n m : Node} {p q q' : Progress σ} {r : σ}

/-- Whether an entry of a record is read alike before and after it is settled: by the field that it
names, or else by not being read. -/
structure EntrySettles (fields : List (RecordField σ)) (e : Node × Node) : Prop where
  known : ∀ key f, e.1.string = .ok key → find? fields key = some f →
    ∀ r, ReadsSettled (f.put · r) e.2
  unknown : ∀ key, e.1.string = .ok key → find? fields key = none →
    e.2.isWhole = true → ∃ m, e.2.settle? = some m

/-- Whether a key is a text, or no key at all; numbers count fields in other documents. -/
def Textual (k : Node) : Prop := ∀ i, k ≠ .scalar (.atom (.number (.integer i)))

theorem ofKey_eq (textual : Textual n) : ofKey fields n = n.string.map (find? fields) := by
  unfold ofKey
  split
  · next i => exact absurd rfl (textual i)
  · cases n.string <;> rfl

def named (e : Node × Node) : Except ReadError (String × Node) := e.1.string.map (·, e.2)

def namedSettled (e : Node × Node) : Except ReadError (String × Node) :=
  e.1.string >>= fun key => e.2.settled.map (key, ·)

theorem named_eq_ok_iff {x : String × Node} :
    named e = .ok x ↔ e.1.string = .ok x.1 ∧ e.2 = x.2 := by
  rw [named, map_eq_ok_iff]
  constructor
  · rintro ⟨key, string, rfl⟩
    exact ⟨string, rfl⟩
  · rintro ⟨string, same⟩
    exact ⟨x.1, string, by rw [same]⟩

theorem settled_eq_ok_iff_settle? : n.settled = .ok m ↔ n.settle? = some m := by
  unfold settled
  cases n.settle? <;> simp

theorem namedSettled_eq_ok_iff {x : String × Node} :
    namedSettled e = .ok x ↔ e.1.string = .ok x.1 ∧ e.2.settle? = some x.2 := by
  simp only [namedSettled, bind_eq_ok_iff, map_eq_ok_iff, settled_eq_ok_iff_settle?]
  constructor
  · rintro ⟨key, string, w, settles, rfl⟩
    exact ⟨string, settles⟩
  · rintro ⟨string, settles⟩
    exact ⟨x.1, string, x.2, settles, rfl⟩

theorem readSome_eq_ok_iff (unclaimed : ∀ e ∈ entries, ∀ key, e.1.string = .ok key →
      find? fields key = none) {y : Progress σ × List (String × Node)} :
    readSome fields entries p = .ok y ↔
      ∃ others, entries.mapM namedSettled = .ok others ∧ y = (p, others) := by
  induction entries generalizing y with
  | nil => simp [readSome, pure, Except.pure, eq_comm]
  | cons e rest ih =>
    obtain ⟨k, v⟩ := e
    rw [List.forall_mem_cons] at unclaimed
    simp only [mapM_cons_eq_ok_iff, namedSettled_eq_ok_iff]
    cases string : k.string with
    | error fault => simp [readSome, string, bind, Except.bind]
    | ok key =>
      rw [readSome_unknown string (unclaimed.1 key string)]
      simp only [bind_eq_ok_iff, map_eq_ok_iff, settled_eq_ok_iff_settle?, ih unclaimed.2]
      constructor
      · rintro ⟨w, settles, _, ⟨others, later, rfl⟩, rfl⟩
        exact ⟨_, ⟨(key, w), others, ⟨rfl, settles⟩, later, rfl⟩, rfl⟩
      · rintro ⟨_, ⟨⟨_, w⟩, others, ⟨same, settles⟩, later, rfl⟩, rfl⟩
        obtain rfl := Except.ok.inj same
        exact ⟨w, settles, _, ⟨others, later, rfl⟩, rfl⟩

theorem readEntries_cons_iff (textual : Textual e.1) :
    readEntries fields (e :: entries) p = .ok q ↔ ∃ key, e.1.string = .ok key ∧
      match find? fields key with
      | some f => ∃ p', f.meet e.2 p = .ok p' ∧ readEntries fields entries p' = .ok q
      | none => e.2.isWhole = true ∧ readEntries fields entries p = .ok q := by
  obtain ⟨k, v⟩ := e
  rw [readEntries, ofKey_eq textual]
  cases string : k.string with
  | error fault => simp [bind, Except.bind, Except.map]
  | ok key =>
    cases found : find? fields key with
    | some f => simp [bind_eq_ok_iff, Except.map, found]
    | none =>
      cases v.isWhole with
      | true => simp [bind_eq_ok_iff, Except.map, found]
      | false => simp [bind_eq_ok_iff, Except.map, found, throw, throwThe, MonadExceptOf.throw]

theorem readSettled_cons_iff : readSettled fields ((key, n) :: others) p = .ok q ↔
    match find? fields key with
    | some f => ∃ p', f.meet n p = .ok p' ∧ readSettled fields others p' = .ok q
    | none => readSettled fields others p = .ok q := by
  rw [readSettled]
  cases find? fields key with
  | some f => exact bind_eq_ok_iff
  | none => exact Iff.rfl

theorem meet_eq_ok_iff : f.meet n p = .ok q ↔
    f.name ∉ p.seen ∧ f.put n p.record = .ok q.record ∧ q.seen = f.name :: p.seen := by
  rw [meet]
  split
  · next again => simpa using fun fresh => absurd (by simpa using again) fresh
  · next fresh =>
    simp only [bind_eq_ok_iff]
    constructor
    · rintro ⟨r, put, same⟩
      obtain rfl := Except.ok.inj same
      exact ⟨by simpa using fresh, put, rfl⟩
    · rintro ⟨-, put, seen⟩
      exact ⟨q.record, put, by rw [← seen]; rfl⟩

/-- Entries that are read alike make the same record. -/
theorem readEntries_eq_ok_iff (textual : ∀ e ∈ entries, Textual e.1)
    (alike : ∀ e ∈ entries, EntrySettles fields e) :
    readEntries fields entries p = .ok q ↔
      ∃ others, entries.mapM namedSettled = .ok others ∧ readSettled fields others p = .ok q := by
  induction entries generalizing p with
  | nil => simp [readEntries, readSettled, pure, Except.pure]
  | cons e rest ih =>
    rw [List.forall_mem_cons] at textual alike
    rw [readEntries_cons_iff textual.1]
    simp only [mapM_cons_eq_ok_iff, namedSettled_eq_ok_iff]
    constructor
    · rintro ⟨key, string, read⟩
      cases found : find? fields key with
      | some f =>
        rw [found] at read
        obtain ⟨p', met, later⟩ := read
        obtain ⟨others, settled, rest'⟩ := (ih textual.2 alike.2).1 later
        obtain ⟨fresh, put, seen⟩ := meet_eq_ok_iff.1 met
        obtain ⟨w, settles, put'⟩ := (alike.1.known key f string found _ _).1 put
        refine ⟨_, ⟨(key, w), others, ⟨string, settles⟩, settled, rfl⟩, ?_⟩
        rw [readSettled_cons_iff, found]
        exact ⟨p', meet_eq_ok_iff.2 ⟨fresh, put', seen⟩, rest'⟩
      | none =>
        rw [found] at read
        obtain ⟨others, settled, rest'⟩ := (ih textual.2 alike.2).1 read.2
        obtain ⟨w, settles⟩ := alike.1.unknown key string found read.1
        refine ⟨_, ⟨(key, w), others, ⟨string, settles⟩, settled, rfl⟩, ?_⟩
        rw [readSettled_cons_iff, found]
        exact rest'
    · rintro ⟨_, ⟨⟨key, w⟩, others, ⟨string, settles⟩, settled, rfl⟩, read⟩
      rw [readSettled_cons_iff] at read
      refine ⟨key, string, ?_⟩
      cases found : find? fields key with
      | some f =>
        simp only [found] at read ⊢
        obtain ⟨p', met, later⟩ := read
        obtain ⟨fresh, put, seen⟩ := meet_eq_ok_iff.1 met
        have put' := (alike.1.known key f string found _ _).2 ⟨w, settles, put⟩
        exact ⟨p', meet_eq_ok_iff.2 ⟨fresh, put', seen⟩,
          (ih textual.2 alike.2).2 ⟨others, settled, later⟩⟩
      | none =>
        simp only [found] at read ⊢
        exact ⟨isWhole_of_settle? settles, (ih textual.2 alike.2).2 ⟨others, settled, read⟩⟩

theorem exists_named_of_readEntries (textual : ∀ e ∈ entries, Textual e.1)
    (h : readEntries fields entries p = .ok q) :
    ∃ others, entries.mapM named = .ok others ∧ readSettled fields others p = .ok q := by
  induction entries generalizing p with
  | nil => exact ⟨[], rfl, h⟩
  | cons e rest ih =>
    rw [List.forall_mem_cons] at textual
    obtain ⟨key, string, read⟩ := (readEntries_cons_iff textual.1).1 h
    have here : named e = .ok (key, e.2) := named_eq_ok_iff.2 ⟨string, rfl⟩
    cases found : find? fields key with
    | some f =>
      simp only [found] at read
      obtain ⟨p', met, later⟩ := read
      obtain ⟨others, names, rest'⟩ := ih textual.2 later
      refine ⟨_, mapM_cons_eq_ok_iff.2 ⟨_, others, here, names, rfl⟩, ?_⟩
      rw [readSettled_cons_iff, found]
      exact ⟨p', met, rest'⟩
    | none =>
      simp only [found] at read
      obtain ⟨others, names, rest'⟩ := ih textual.2 read.2
      refine ⟨_, mapM_cons_eq_ok_iff.2 ⟨_, others, here, names, rfl⟩, ?_⟩
      rw [readSettled_cons_iff, found]
      exact rest'

/-- A part of the record that only one field sets. -/
structure IsPart (fields : List (RecordField σ)) (f : RecordField σ) (reader : Reader α)
    (set : α → σ → σ) (get : σ → α) : Prop where
  put : f.put = fun n r => (reader n).map (set · r)
  get_set : ∀ x r, get (set x r) = x
  other : ∀ g ∈ fields, g.name ≠ f.name → ∀ n r r', g.put n r = .ok r' → get r' = get r

section Part

variable {reader : Reader α} {set : α → σ → σ} {get : σ → α}

theorem get_of_met (part : IsPart fields f reader set get) (met : f.name ∈ p.seen)
    (h : readSettled fields others p = .ok q) : get q.record = get p.record := by
  induction others generalizing p with
  | nil =>
    obtain rfl := Except.ok.inj h
    rfl
  | cons x rest ih =>
    obtain ⟨key, n⟩ := x
    rw [readSettled_cons_iff] at h
    cases found : find? fields key with
    | some g =>
      simp only [found] at h
      obtain ⟨p', here, later⟩ := h
      obtain ⟨fresh, put, seen⟩ := meet_eq_ok_iff.1 here
      have differ : g.name ≠ f.name := by
        intro same
        exact fresh (same ▸ met)
      rw [ih (seen ▸ List.mem_cons_of_mem _ met) later]
      exact part.other g (mem_of_find? found) differ _ _ _ put
    | none =>
      simp only [found] at h
      exact ih met h

/-- What a field's entry is read as is what the record has. -/
theorem get_of_readSettled (part : IsPart fields f reader set get) (found : find? fields key = some f)
    (member : (key, n) ∈ others) (h : readSettled fields others p = .ok q) :
    reader n = .ok (get q.record) := by
  induction others generalizing p with
  | nil => contradiction
  | cons x rest ih =>
    obtain ⟨key', n'⟩ := x
    rw [readSettled_cons_iff] at h
    rcases List.mem_cons.1 member with same | later
    · obtain ⟨rfl, rfl⟩ := Prod.mk.inj same
      simp only [found] at h
      obtain ⟨p', here, rest'⟩ := h
      obtain ⟨-, put, seen⟩ := meet_eq_ok_iff.1 here
      rw [part.put] at put
      obtain ⟨x, read, same⟩ := map_eq_ok_iff.1 put
      rw [get_of_met part (seen ▸ List.mem_cons_self) rest', ← same, part.get_set]
      exact read
    · split at h
      · obtain ⟨p', -, rest'⟩ := h
        exact ih later rest'
      · exact ih later h

end Part

/-- Whether each field has a part of the record to itself. -/
def Apart (fields : List (RecordField σ)) : Prop :=
  ∀ f ∈ fields, ∃ (α : Type) (reader : Reader α) (set : α → σ → σ) (get : σ → α),
    IsPart fields f reader set get

/-- Where entries make a record, settled or not, they make the same one iff each is read alike. -/
theorem record_eq_iff_of_read (apart : Apart fields) (textual : ∀ e ∈ entries, Textual e.1)
    (h : readEntries fields entries p = .ok q) (settled : entries.mapM namedSettled = .ok others)
    (h' : readSettled fields others p = .ok q') :
    q.record = q'.record ↔ ∀ e ∈ entries, EntrySettles fields e := by
  constructor
  · intro same e member
    obtain ⟨names, named, read⟩ := exists_named_of_readEntries textual h
    obtain ⟨⟨key, v⟩, inside, here⟩ := exists_mem_of_mapM named member
    obtain ⟨⟨key', w⟩, inside', here'⟩ := exists_mem_of_mapM settled member
    obtain ⟨string, rfl⟩ := named_eq_ok_iff.1 here
    obtain ⟨string', settles⟩ := namedSettled_eq_ok_iff.1 here'
    obtain rfl : key = key' := Except.ok.inj (string.symm.trans string')
    constructor
    · intro key₁ f string₁ found r x
      obtain rfl : key = key₁ := Except.ok.inj (string.symm.trans string₁)
      obtain ⟨α, reader, set, get, part⟩ := apart f (mem_of_find? found)
      have before := get_of_readSettled part found inside read
      have after := get_of_readSettled part found inside' h'
      rw [← same] at after
      simp only [part.put, map_eq_ok_iff]
      constructor
      · rintro ⟨y, read', rfl⟩
        exact ⟨w, settles, y, after.trans (before.symm.trans read'), rfl⟩
      · rintro ⟨m, settles', y, read', rfl⟩
        obtain rfl := Option.some.inj (settles.symm.trans settles')
        exact ⟨y, before.trans (after.symm.trans read'), rfl⟩
    · exact fun _ _ _ _ => ⟨w, settles⟩
  · intro alike
    obtain ⟨others', settled', read⟩ := (readEntries_eq_ok_iff textual alike).1 h
    obtain rfl := Except.ok.inj (settled.symm.trans settled')
    rw [Except.ok.inj (read.symm.trans h')]

end RecordField
end ProductTemplates.Document
