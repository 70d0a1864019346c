import ProductTemplates.Proofs.Document.Writing

/-! Records and the fields they were written as: a record is read as what its fields, put into the
default one after another, make of it. -/
namespace ProductTemplates.Document.RecordField

open Value Node

variable {σ α : Type} {fields : List (RecordField σ)} {f : RecordField σ} {name key : String}
  {es more : List (String × Value)} {r r' r'' start x : σ} {seen : List String}
  {names others : List String} {q : Progress σ}

/-- What becomes of a record when the fields of a written one are put into it. -/
inductive Puts (fields : List (RecordField σ)) : List (String × Value) → σ → σ → Prop where
  | nil {r : σ} : Puts fields [] r r
  | cons {f : RecordField σ} {name : String} {v : Value} {es : List (String × Value)} {r r' r'' : σ} :
      find? fields name = some f → f.name = name → f.put v.node r = .ok r' → Puts fields es r' r'' →
      Puts fields ((name, v) :: es) r r''

theorem Puts.append (h : Puts fields es r r') (h' : Puts fields more r' r'') :
    Puts fields (es ++ more) r r'' := by
  induction h with
  | nil => exact h'
  | cons known named put _ ih => exact .cons known named put (ih h')

theorem Puts.eq (h : Puts fields es r r') (h' : Puts fields es r r'') : r' = r'' := by
  induction h with
  | nil =>
    cases h'
    rfl
  | cons known _ put _ ih =>
    cases h' with
    | cons known' _ put' rest' =>
      obtain rfl := Option.some.inj (known.symm.trans known')
      obtain rfl := Except.ok.inj (put.symm.trans put')
      exact ih rest'

/-- The last fields are put into what the first ones make. -/
theorem Puts.append_iff (h : Puts fields es r r') :
    Puts fields (es ++ more) r r'' ↔ Puts fields more r' r'' := by
  refine ⟨fun all => ?_, h.append⟩
  induction h with
  | nil => exact all
  | cons known _ put _ ih =>
    cases all with
    | cons known' _ put' rest' =>
      obtain rfl := Option.some.inj (known.symm.trans known')
      obtain rfl := Except.ok.inj (put.symm.trans put')
      exact ih rest'

/-- Whether each name is that of a field. -/
def Known (fields : List (RecordField σ)) (names : List String) : Prop :=
  ∀ name ∈ names, (find? fields name).map (·.name) = some name

instance : Decidable (Known fields names) :=
  inferInstanceAs (Decidable (∀ name ∈ names, (find? fields name).map (·.name) = some name))

theorem Puts.known (h : Puts fields es r r') : Known fields (es.map (·.1)) := by
  induction h with
  | nil => simp [Known]
  | cons known named _ _ ih =>
    refine List.forall_mem_cons.2 ⟨?_, ih⟩
    rw [known, Option.map_some, named]

theorem Puts.uncons {v : Value} (h : Puts fields ((name, v) :: es) r r'')
    (known : find? fields name = some f) : ∃ r', f.put v.node r = .ok r' ∧ Puts fields es r' r'' := by
  cases h with
  | cons known' _ put rest =>
    obtain rfl := Option.some.inj (known.symm.trans known')
    exact ⟨_, put, rest⟩

theorem Puts.read_first {reader : Reader α} {set : α → σ → σ} {v : Value}
    (h : Puts fields ((name, v) :: es) r r'') (known : find? fields name = some f)
    (put : f.put = fun n r => (reader n).map (set · r)) :
    ∃ a, reader v.node = .ok a ∧ Puts fields es (set a r) r'' := by
  obtain ⟨_, placed, rest⟩ := h.uncons known
  rw [put] at placed
  obtain ⟨a, read, rfl⟩ := map_eq_ok_iff.1 placed
  exact ⟨a, read, rest⟩

theorem puts_first {reader : Reader α} {set : α → σ → σ} {v : Value} {a : α}
    (known : find? fields name = some f) (named : f.name = name)
    (put : f.put = fun n r => (reader n).map (set · r)) (read : reader v.node = .ok a)
    (rest : Puts fields es (set a r) r'') : Puts fields ((name, v) :: es) r r'' := by
  have placed : f.put v.node r = .ok (set a r) := by
    rw [put]
    exact map_eq_ok_iff.2 ⟨a, read, rfl⟩
  exact .cons known named placed rest

theorem puts_cons_iff {v : Value} (known : find? fields name = some f) (named : f.name = name) :
    Puts fields ((name, v) :: es) r r'' ↔ ∃ r', f.put v.node r = .ok r' ∧ Puts fields es r' r'' := by
  refine ⟨fun h => h.uncons known, ?_⟩
  rintro ⟨r', put, rest⟩
  exact .cons known named put rest

/-- The fields of a written record: values that settle under some of the `names`, in their order, that
make one record of another. -/
structure Writes (fields : List (RecordField σ)) (names : List String) (es : List (String × Value))
    (r r' : σ) : Prop where
  sublist : (es.map (·.1)).Sublist names
  settles : ∀ e ∈ es, e.2.Settles
  puts : Puts fields es r r'

theorem Writes.append (h : Writes fields names es r r') (h' : Writes fields others more r' r'') :
    Writes fields (names ++ others) (es ++ more) r r'' where
  sublist := by
    rw [List.map_append]
    exact h.sublist.append h'.sublist
  settles := by
    rw [List.forall_mem_append]
    exact ⟨h.settles, h'.settles⟩
  puts := h.puts.append h'.puts

theorem writes_nil : Writes fields [] [] r r := ⟨.slnil, by simp, .nil⟩

/-- Whether a value settles and stands for what a reader makes of it. -/
structure Denotes (reader : Reader α) (v : Value) (x : α) : Prop where
  settles : v.Settles
  read : reader v.node = .ok x

section Fields

variable {reader : Reader α} {set : α → σ → σ}

theorem writes_one {v : Value} {a : α} (known : find? fields name = some f) (named : f.name = name)
    (put : f.put = fun n r => (reader n).map (set · r)) (denotes : Denotes reader v a)
    (same : set a r = r') : Writes fields [name] [(name, v)] r r' where
  sublist := List.Sublist.refl _
  settles := by simpa using denotes.settles
  puts := by
    subst same
    exact puts_first known named put denotes.read .nil

theorem writes_none (same : r = r') : Writes fields [name] [] r r' := by
  subst same
  exact ⟨List.nil_sublist _, by simp, .nil⟩

theorem list_eq_ok_iff {write : α → Value} {xs : List α} :
    Node.list reader (Value.sequence (xs.map write)).node = .ok xs ↔
      ∀ x ∈ xs, reader (write x).node = .ok x := by
  have items : ((xs.map write).map node).mapM reader = .ok xs ↔
      ∀ x ∈ xs, reader (write x).node = .ok x := by
    rw [List.mapM_map, List.mapM_map]
    exact mapM_self_iff
  rw [node_sequence, ← items]
  constructor
  · intro h
    obtain ⟨ys, read, same⟩ := bind_eq_ok_iff.1 h
    obtain rfl := Except.ok.inj same
    exact read
  · exact fun read => bind_eq_ok_iff.2 ⟨xs, read, rfl⟩

theorem denotes_list {write : α → Value} {xs : List α}
    (each : ∀ x ∈ xs, Denotes reader (write x) x) :
    Denotes (Node.list reader) (.sequence (xs.map write)) xs where
  settles := by
    apply settles_sequence
    rw [List.forall_mem_map]
    exact fun x member => (each x member).settles
  read := list_eq_ok_iff.2 fun x member => (each x member).read

end Fields

theorem writes_text {reader : Reader (Option String)} {set : Option String → σ → σ}
    {text : Option String} (known : find? fields name = some f) (named : f.name = name)
    (put : f.put = fun n r => (reader n).map (set · r))
    (reads : ∀ s, reader (.ofAtom (.string s)) = .ok (some s)) (idle : set none r = r)
    (same : set text r = r') : Writes fields [name] (textField name text) r r' := by
  cases text with
  | none => exact writes_none (idle.symm.trans same)
  | some s => exact writes_one known named put ⟨rfl, reads s⟩ same

theorem writes_list {reader : Reader α} {write : α → Value} {set : List α → σ → σ} {xs : List α}
    (known : find? fields name = some f) (named : f.name = name)
    (put : f.put = fun n r => (Node.list reader n).map (set · r))
    (each : ∀ x ∈ xs, Denotes reader (write x) x) (idle : set [] r = r) (same : set xs r = r') :
    Writes fields [name] (listField name write xs) r r' := by
  unfold listField
  split
  · next empty =>
    rw [List.isEmpty_iff] at empty
    subst empty
    exact writes_none (idle.symm.trans same)
  · exact writes_one known named put (denotes_list each) same

def namedNode (e : String × Value) : String × Node := (e.1, e.2.node)

theorem put_of_meet {n : Node} {p : Progress σ} (h : f.meet n p = .ok q) :
    f.put n p.record = .ok q.record := by
  unfold meet at h
  split at h
  · contradiction
  · obtain ⟨r, put, same⟩ := bind_eq_ok_iff.1 h
    obtain rfl := Except.ok.inj same
    exact put

theorem meet_bind_eq_ok_iff {v : Node} {next : Progress σ → Except ReadError α} {y : α}
    (fresh : f.name ∉ seen) : f.meet v ⟨seen, r⟩ >>= next = .ok y ↔
      ∃ r', f.put v r = .ok r' ∧ next ⟨f.name :: seen, r'⟩ = .ok y := by
  rw [meet, if_neg (by simpa using fresh)]
  simp only [bind_eq_ok_iff]
  constructor
  · rintro ⟨_, ⟨r', put, same⟩, rest⟩
    obtain rfl := Except.ok.inj same
    exact ⟨r', put, rest⟩
  · rintro ⟨r', put, rest⟩
    exact ⟨_, ⟨r', put, rfl⟩, rest⟩

/-- Settled entries of known fields are put into the record. -/
theorem readSettled_eq_ok_iff (known : Known fields (es.map (·.1)))
    (distinct : (es.map (·.1)).Nodup) (fresh : ∀ e ∈ es, e.1 ∉ seen) :
    readSettled fields (es.map namedNode) ⟨seen, r⟩ = .ok q ↔
      ∃ r', Puts fields es r r' ∧ q = ⟨(es.map (·.1)).reverse ++ seen, r'⟩ := by
  induction es generalizing seen r with
  | nil =>
    constructor
    · intro h
      exact ⟨r, .nil, (Except.ok.inj h).symm⟩
    · rintro ⟨_, puts, rfl⟩
      cases puts
      rfl
  | cons e rest ih =>
    obtain ⟨name, v⟩ := e
    have later := fresh_later distinct fresh
    rw [List.map_cons, List.nodup_cons] at distinct
    rw [List.forall_mem_cons] at fresh
    obtain ⟨known, known'⟩ := List.forall_mem_cons.1 known
    obtain ⟨f, found, rfl⟩ := Option.map_eq_some_iff.1 known
    rw [List.map_cons, readSettled]
    simp only [namedNode, found, meet_bind_eq_ok_iff fresh.1, ih known' distinct.2 later,
      puts_cons_iff found rfl]
    constructor
    · rintro ⟨r', put, r'', puts, rfl⟩
      exact ⟨r'', ⟨r', put, puts⟩, by simp⟩
    · rintro ⟨r'', ⟨r', put, puts⟩, rfl⟩
      exact ⟨r', put, r'', puts, by simp⟩

theorem readEntries_eq {p : Progress σ} (known : Known fields (es.map (·.1))) :
    readEntries fields (es.map fieldNode) p = readSettled fields (es.map namedNode) p := by
  induction es generalizing p with
  | nil => rfl
  | cons e rest ih =>
    obtain ⟨known, known'⟩ := List.forall_mem_cons.1 known
    obtain ⟨f, found, -⟩ := Option.map_eq_some_iff.1 known
    have key : ofKey fields (fieldNode e).1 = .ok (some f) := congrArg Except.ok found
    rw [List.map_cons, List.map_cons, readEntries, readSettled, key]
    simp only [namedNode, found]
    exact bind_congr fun p' => ih known'

theorem readSome_known {k v : Node} {entries : List (Node × Node)} {p : Progress σ}
    (named : k.string = .ok key) (found : find? fields key = some f) :
    readSome fields ((k, v) :: entries) p = f.meet v p >>= readSome fields entries := by
  have key' : k.string = pure key := named
  rw [readSome, key', pure_bind]
  simp only [found]

theorem readSome_unknown {k v : Node} {entries : List (Node × Node)} {p : Progress σ}
    (named : k.string = .ok key) (unknown : find? fields key = none) :
    readSome fields ((k, v) :: entries) p = v.settled >>= fun m =>
      (readSome fields entries p).map fun z => (z.1, (key, m) :: z.2) := by
  have key' : k.string = pure key := named
  rw [readSome, key', pure_bind]
  simp only [unknown]
  rfl

theorem readSome_eq {p : Progress σ} (known : Known fields (es.map (·.1))) :
    readSome fields (es.map fieldNode) p =
      (readSettled fields (es.map namedNode) p).map (·, []) := by
  induction es generalizing p with
  | nil => rfl
  | cons e rest ih =>
    obtain ⟨known, known'⟩ := List.forall_mem_cons.1 known
    obtain ⟨f, found, -⟩ := Option.map_eq_some_iff.1 known
    rw [List.map_cons, List.map_cons, fieldNode, readSome_known rfl found, readSettled,
      bind_congr fun p' => ih known']
    simp only [namedNode, found]
    cases f.meet e.2.node p <;> rfl

/-- Fields that were put into a record are read and nothing is left. -/
theorem Writes.readSome_iff {y : Progress σ × List (String × Node)}
    (writes : Writes fields names es r r') (distinct : names.Nodup) (fresh : ∀ e ∈ es, e.1 ∉ seen) :
    readSome fields (es.map fieldNode) ⟨seen, r⟩ = .ok y ↔
      y = (⟨(es.map (·.1)).reverse ++ seen, r'⟩, []) := by
  have settled (q : Progress σ) := @readSettled_eq_ok_iff _ _ _ r _ q writes.puts.known
    (writes.sublist.nodup distinct) fresh
  rw [readSome_eq writes.puts.known, map_eq_ok_iff]
  constructor
  · rintro ⟨q, read, rfl⟩
    obtain ⟨_, puts, rfl⟩ := (settled q).1 read
    rw [puts.eq writes.puts]
  · rintro rfl
    exact ⟨_, (settled _).2 ⟨r', writes.puts, rfl⟩, rfl⟩

theorem settled_eq_ok_iff {v : Value} {m : Node} : v.node.settled = .ok m ↔ v.Settles ∧ m = v.node := by
  unfold settled
  cases settle : v.node.settle? with
  | none => simp [Settles, settle]
  | some m' =>
    obtain rfl := eq_of_settle? settle
    simp [Settles, settle, eq_comm]

theorem readSome_others_iff {p : Progress σ} {y : Progress σ × List (String × Node)}
    (unknown : ∀ e ∈ es, find? fields e.1 = none) :
    readSome fields (es.map fieldNode) p = .ok y ↔
      (∀ e ∈ es, e.2.Settles) ∧ y = (p, es.map namedNode) := by
  induction es generalizing y with
  | nil => simp [readSome, eq_comm]
  | cons e rest ih =>
    rw [List.forall_mem_cons] at unknown
    rw [List.map_cons, List.map_cons, fieldNode, readSome_unknown rfl unknown.1, List.forall_mem_cons]
    simp only [bind_eq_ok_iff, map_eq_ok_iff, settled_eq_ok_iff, ih unknown.2]
    constructor
    · rintro ⟨_, ⟨settles, rfl⟩, _, ⟨others, rfl⟩, rfl⟩
      exact ⟨⟨settles, others⟩, rfl⟩
    · rintro ⟨⟨settles, others⟩, rfl⟩
      exact ⟨_, ⟨settles, rfl⟩, _, ⟨others, rfl⟩, rfl⟩

theorem readSome_append_iff {entries later : List (Node × Node)} {p : Progress σ}
    {y : Progress σ × List (String × Node)} :
    readSome fields (entries ++ later) p = .ok y ↔ ∃ q xs s ys,
      readSome fields entries p = .ok (q, xs) ∧ readSome fields later q = .ok (s, ys) ∧
        y = (s, xs ++ ys) := by
  induction entries generalizing p y with
  | nil =>
    constructor
    · exact fun h => ⟨p, [], y.1, y.2, rfl, h, rfl⟩
    · rintro ⟨_, _, s, ys, same, h, rfl⟩
      obtain ⟨rfl, rfl⟩ := Prod.mk.inj (Except.ok.inj same)
      exact h
  | cons e rest ih =>
    obtain ⟨k, v⟩ := e
    cases named : k.string with
    | error fault => simp [readSome, named, bind, Except.bind]
    | ok key =>
      cases found : find? fields key with
      | some f =>
        rw [List.cons_append, readSome_known named found, readSome_known named found]
        simp only [bind_eq_ok_iff, ih]
        constructor
        · rintro ⟨p', met, q, xs, s, ys, here, there⟩
          exact ⟨q, xs, s, ys, ⟨p', met, here⟩, there⟩
        · rintro ⟨q, xs, s, ys, ⟨p', met, here⟩, there⟩
          exact ⟨p', met, q, xs, s, ys, here, there⟩
      | none =>
        rw [List.cons_append, readSome_unknown named found, readSome_unknown named found]
        simp only [bind_eq_ok_iff, map_eq_ok_iff, ih]
        constructor
        · rintro ⟨m, settled, _, ⟨q, xs, s, ys, here, there, rfl⟩, rfl⟩
          exact ⟨q, (key, m) :: xs, s, ys, ⟨m, settled, _, here, rfl⟩, there, rfl⟩
        · rintro ⟨q, _, s, ys, ⟨m, settled, ⟨_, xs⟩, here, same⟩, there, rfl⟩
          obtain ⟨rfl, rfl⟩ := Prod.mk.inj same
          exact ⟨m, settled, _, ⟨_, xs, s, ys, here, there, rfl⟩, rfl⟩

theorem complain_eq_ok {p : Progress σ} (met : ∀ f ∈ fields, f.required = true → f.name ∈ p.seen) :
    complain fields p = .ok () := by
  have complete : fields.find? (fun f => f.required && !p.seen.contains f.name) = none := by
    rw [List.find?_eq_none]
    intro f member
    cases needed : f.required with
    | false => simp
    | true => simp [met f member needed]
  rw [complain, complete]

/-- A record is read as what its fields make of the default. -/
theorem record_eq_ok_iff (known : Known fields names) (sublist : (es.map (·.1)).Sublist names)
    (distinct : names.Nodup) (met : ∀ f ∈ fields, f.required = true → f.name ∈ es.map (·.1)) :
    record fields start (Value.record es).node = .ok x ↔ Puts fields es start x := by
  have entries (q : Progress σ) := @readSettled_eq_ok_iff _ fields _ start [] q
    (fun name member => known name (sublist.subset member)) (sublist.nodup distinct) (by simp)
  have read := @readEntries_eq _ fields es ⟨[], start⟩ fun name member =>
    known name (sublist.subset member)
  rw [node_record]
  constructor
  · intro h
    obtain ⟨_, same, h⟩ := bind_eq_ok_iff.1 h
    obtain rfl := Except.ok.inj same
    obtain ⟨q, here, h⟩ := bind_eq_ok_iff.1 h
    obtain ⟨_, -, last⟩ := bind_eq_ok_iff.1 h
    obtain ⟨r', puts, rfl⟩ := (entries q).1 (read.symm.trans here)
    obtain rfl := Except.ok.inj last
    exact puts
  · intro puts
    have here := read.trans ((entries _).2 ⟨x, puts, rfl⟩)
    have complete := @complain_eq_ok _ fields ⟨(es.map (·.1)).reverse ++ [], x⟩
      (by simpa using met)
    refine bind_eq_ok_iff.2 ⟨_, rfl, bind_eq_ok_iff.2 ⟨_, here, ?_⟩⟩
    exact bind_eq_ok_iff.2 ⟨(), complete, rfl⟩

theorem Writes.denotes (writes : Writes fields names es start x) (distinct : names.Nodup)
    (met : ∀ f ∈ fields, f.required = true → f.name ∈ es.map (·.1)) :
    Denotes (record fields start) (Value.record es) x where
  settles := settles_record writes.settles
  read := (record_eq_ok_iff writes.puts.known (List.Sublist.refl _)
    (writes.sublist.nodup distinct) met).2 writes.puts

/-- Where all fields but one are known to be put, a record is made if that one is read. -/
theorem Writes.puts_iff {reader : Reader α} {set : α → σ → σ} {v : Value} {a : α}
    (writes : Writes fields names es start r) (name : String) (last : α → σ)
    (known : find? fields name = some f) (named : f.name = name) (put : f.put = fun n r => (reader n).map (set · r))
    (rest : ∀ b, Puts fields more (set b r) (last b)) (whole : last a = x)
    (apart : ∀ b, last b = x → b = a) :
    Puts fields (es ++ (name, v) :: more) start x ↔ reader v.node = .ok a := by
  subst whole
  rw [writes.puts.append_iff]
  constructor
  · intro puts
    obtain ⟨b, read, puts⟩ := puts.read_first known put
    obtain rfl := apart b ((rest b).eq puts)
    exact read
  · exact fun read => puts_first known named put read (rest a)

theorem Writes.record_iff {reader : Reader α} {set : α → σ → σ} {v : Value} {a : α}
    (writes : Writes fields names es start r) (name : String) (known : find? fields name = some f)
    (named : f.name = name) (put : f.put = fun n r => (reader n).map (set · r))
    (whole : set a r = x) (apart : ∀ b, set b r = x → b = a) (distinct : (names ++ [name]).Nodup)
    (met : ∀ f ∈ fields, f.required = true → f.name ∈ (es ++ [(name, v)]).map (·.1)) :
    record fields start (Value.record (es ++ [(name, v)])).node = .ok x ↔ reader v.node = .ok a := by
  have own : Known fields ((es ++ [(name, v)]).map (·.1)) := by
    rw [List.map_append]
    refine List.forall_mem_append.2 ⟨writes.puts.known, ?_⟩
    simp [known, named]
  have sublist : ((es ++ [(name, v)]).map (·.1)).Sublist (names ++ [name]) := by
    rw [List.map_append]
    exact writes.sublist.append (List.Sublist.refl _)
  rw [record_eq_ok_iff own (List.Sublist.refl _) (sublist.nodup distinct) met]
  exact writes.puts_iff name (set · r) known named put (fun _ => .nil) whole apart

/-- The record's own fields are put into it; what stands between them comes back as it was written. -/
theorem Writes.partly_iff {between later : List (String × Value)}
    (writes : Writes fields names es start r) (unknown : ∀ e ∈ between, find? fields e.1 = none)
    (writes' : Writes fields others later r x) (distinct : (names ++ others).Nodup)
    (met : ∀ f ∈ fields, f.required = true → f.name ∈ es.map (·.1)) (y : σ × List (String × Node)) :
    partly fields start (Value.record (es ++ between ++ later)).node = .ok y ↔
      (∀ e ∈ between, e.2.Settles) ∧ y = (x, between.map namedNode) := by
  obtain ⟨own, own', apart⟩ := List.nodup_append.1 distinct
  have first (z : Progress σ × List (String × Node)) := @Writes.readSome_iff _ _ _ _ _ [] _ z writes
    own (by simp)
  have last (z : Progress σ × List (String × Node)) :=
    @Writes.readSome_iff _ _ _ _ _ ((es.map (·.1)).reverse ++ []) _ z writes' own' (by
      intro e member met
      rw [List.append_nil, List.mem_reverse] at met
      have later := writes'.sublist.subset (List.mem_map_of_mem member)
      exact apart _ (writes.sublist.subset met) _ later rfl)
  have entries (z : Progress σ × List (String × Node)) :
      readSome fields ((es ++ between ++ later).map fieldNode) ⟨[], start⟩ = .ok z ↔
        (∀ e ∈ between, e.2.Settles) ∧
          z = (⟨(later.map (·.1)).reverse ++ ((es.map (·.1)).reverse ++ []), x⟩,
            between.map namedNode) := by
    rw [List.map_append, List.map_append, readSome_append_iff]
    simp only [readSome_append_iff, first, readSome_others_iff unknown]
    constructor
    · rintro ⟨_, _, s, ys, ⟨_, _, _, _, same, ⟨settles, same'⟩, same''⟩, there, rfl⟩
      obtain ⟨rfl, rfl⟩ := Prod.mk.inj same
      obtain ⟨rfl, rfl⟩ := Prod.mk.inj same'
      obtain ⟨rfl, rfl⟩ := Prod.mk.inj same''
      obtain ⟨rfl, rfl⟩ := Prod.mk.inj ((last _).1 there)
      exact ⟨settles, by simp⟩
    · rintro ⟨settles, rfl⟩
      exact ⟨_, _, _, _, ⟨_, _, _, _, rfl, ⟨settles, rfl⟩, rfl⟩, (last _).2 rfl, by simp⟩
  have complete := @complain_eq_ok _ fields
    ⟨(later.map (·.1)).reverse ++ ((es.map (·.1)).reverse ++ []), x⟩ (by
      intro f member required
      have own := met f member required
      simp [own])
  rw [node_record]
  constructor
  · intro h
    obtain ⟨_, same, h⟩ := bind_eq_ok_iff.1 h
    obtain rfl := Except.ok.inj same
    obtain ⟨z, here, h⟩ := bind_eq_ok_iff.1 h
    obtain ⟨settles, rfl⟩ := (entries z).1 here
    obtain ⟨_, -, same⟩ := bind_eq_ok_iff.1 h
    exact ⟨settles, (Except.ok.inj same).symm⟩
  · rintro ⟨settles, rfl⟩
    refine bind_eq_ok_iff.2 ⟨_, rfl, bind_eq_ok_iff.2 ⟨_, (entries _).2 ⟨settles, rfl⟩, ?_⟩⟩
    exact bind_eq_ok_iff.2 ⟨(), complete, rfl⟩

end ProductTemplates.Document.RecordField
