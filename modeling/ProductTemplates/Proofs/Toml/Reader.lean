import ProductTemplates.Proofs.Toml.Node
import ProductTemplates.Proofs.Toml.Place

/-! Every line that a document knows, and the line of every fault in its text, is that of a place of
the text. -/
namespace ProductTemplates.Toml

variable {start p : Cursor} {element : Cursor → Except Nat (Node × Cursor)} {s : State}

/-- What is found and all its lines are ahead. -/
def NodeAhead (start : Cursor) (found : Node × Cursor) : Prop :=
  found.1.Knows (LineAhead start) ∧ Ahead start found.2

def KeyAhead (start : Cursor) (found : (List Key × Key) × Cursor) : Prop :=
  (∀ k ∈ found.1.1, LineAhead start k.line) ∧ LineAhead start found.1.2.line ∧ Ahead start found.2

theorem tells_simpleKey (ahead : Ahead start p) :
    Tells start (fun found => Ahead start found.2) (simpleKey p) := by
  unfold simpleKey
  split
  · next found => exact (tells_lineText (ahead.step found (by decide))).map fun _ gone => gone
  · next found => exact (tells_lineText (ahead.step found (by decide))).map fun _ gone => gone
  · dsimp only
    split
    · exact .fault ahead
    · exact .ok (ahead.advance (feed_not_mem_take _ rfl (Nat.le_refl _)))

theorem tells_keyPath {limit : Nat} (ahead : Ahead start p) :
    Tells start (KeyAhead start) (keyPath limit p) := by
  induction limit generalizing p with
  | zero => exact .fault ahead
  | succ limit ih =>
    rw [keyPath]
    refine (tells_simpleKey ahead.skipGaps).bind fun (name, q) gone => ?_
    dsimp only at gone ⊢
    split
    · next dot =>
      refine (ih (gone.skipGaps.step dot (by decide))).bind fun ((path, last), r) there => ?_
      obtain ⟨keys, key, behind⟩ := there
      exact .ok ⟨List.forall_mem_cons.2 ⟨ahead.lineAhead, keys⟩, key, behind⟩
    · exact .ok ⟨by simp, ahead.lineAhead, gone.skipGaps⟩

def ItemsAhead (start : Cursor) (found : List Node × Cursor) : Prop :=
  (∀ n ∈ found.1, n.Knows (LineAhead start)) ∧ Ahead start found.2

def PairKnows (start : Cursor) (entry : List Key × Key × Node) : Prop :=
  (∀ k ∈ entry.1, LineAhead start k.line) ∧ LineAhead start entry.2.1.line ∧
    entry.2.2.Knows (LineAhead start)

def PairsAhead (start : Cursor) (found : List (List Key × Key × Node) × Cursor) : Prop :=
  (∀ entry ∈ found.1, PairKnows start entry) ∧ Ahead start found.2

theorem knows_foldlM {entries : List (List Key × Key × Node)} {es : Entries}
    (all : ∀ entry ∈ entries, PairKnows start entry) (known : es.Knows (LineAhead start)) :
    ∀ inner ∈ entries.foldlM (fun es (path, k, n) => Entries.insert? path k n es) es,
      inner.Knows (LineAhead start) := by
  induction entries generalizing es with
  | nil =>
    rintro inner ⟨⟩
    exact known
  | cons entry others ih =>
    rw [List.forall_mem_cons] at all
    intro inner folded
    obtain ⟨next, put, rest⟩ := Option.bind_eq_some_iff.1 folded
    obtain ⟨keys, key, value⟩ := all.1
    exact ih all.2 (Entries.knows_insert? keys key value known next put) inner rest

section

variable (each : ∀ q, Ahead start q → Tells start (NodeAhead start) (element q))

include each

theorem tells_items (ahead : Ahead start p) :
    Tells start (ItemsAhead start) (items element p) := by
  fun_induction items element p with
  | case1 p q tail close => exact .ok ⟨by simp, ahead.skipBlank.step close (by decide)⟩
  | case2 p q other ih =>
    refine (each q ahead.skipBlank).bind fun found inside => ?_
    obtain ⟨n, r⟩ := found
    obtain ⟨known, gone⟩ := inside
    dsimp only
    split
    · next close => exact .ok ⟨by simpa using known, gone.skipBlank.step close (by decide)⟩
    · next rest comma =>
      split
      · next progress =>
        have more := ih r rest progress (gone.skipBlank.behind comma (by decide))
        refine more.bind fun found inside => ?_
        exact .ok ⟨List.forall_mem_cons.2 ⟨known, inside.1⟩, inside.2⟩
      · exact .fault gone.skipBlank
    · exact .fault gone.skipBlank

theorem tells_pair (ahead : Ahead start p) :
    Tells start (fun found => PairKnows start found.1 ∧ Ahead start found.2) (pair element p) := by
  unfold pair
  refine (tells_keyPath ahead).bind fun ((path, k), q) ⟨keys, key, gone⟩ => ?_
  dsimp only at gone ⊢
  split
  · next sign =>
    refine (each _ (gone.step sign (by decide)).skipGaps).bind fun (n, r) ⟨known, there⟩ => ?_
    exact .ok ⟨⟨keys, key, known⟩, there.skipGaps⟩
  · exact .fault gone

theorem tells_pairs (ahead : Ahead start p) :
    Tells start (PairsAhead start) (pairs element p) := by
  fun_induction pairs element p with
  | case1 p ih =>
    refine (tells_pair each ahead).bind fun found inside => ?_
    obtain ⟨entry, q⟩ := found
    obtain ⟨known, gone⟩ := inside
    dsimp only at gone ⊢
    split
    · next rest comma =>
      split
      · next progress =>
        have more := ih q rest progress (gone.behind comma (by decide))
        refine more.bind fun found inside => ?_
        exact .ok ⟨List.forall_mem_cons.2 ⟨known, inside.1⟩, inside.2⟩
      · exact .ok ⟨by simpa using known, gone⟩
    · exact .ok ⟨by simpa using known, gone⟩

theorem tells_braces (ahead : Ahead start p) :
    Tells start (fun found => found.1.Knows (LineAhead start) ∧ Ahead start found.2)
      (braces element p) := by
  unfold braces
  extract_lets finish
  have finishes (found : List (List Key × Key × Node) × Cursor) (inside : PairsAhead start found) :
      Tells start (fun found => found.1.Knows (LineAhead start) ∧ Ahead start found.2)
        (finish found) := by
    obtain ⟨all, gone⟩ := inside
    unfold finish
    dsimp only
    split
    · exact .fault ahead
    · next folded close =>
      exact .ok ⟨knows_foldlM all Entries.knows_nil _ folded, gone.step close (by decide)⟩
    · exact .fault gone
  split
  · exact (tells_pairs each ahead).bind finishes
  · exact finishes ([], p.skipGaps) ⟨by simp, ahead.skipGaps⟩

end

theorem tells_value (depth : Nat) (ahead : Ahead start p) :
    Tells start (NodeAhead start) (value depth p) := by
  -- arrays and tables read what is inside them with a lower limit
  induction depth using Nat.strongRecOn generalizing p with
  | ind depth ih =>
    rw [value.eq_def]
    split
    · next found =>
      have text : Tells start (fun found => Ahead start found.2) (string true p) :=
        tells_string ahead found
      exact text.map fun _ gone => ⟨.scalar ahead.lineAhead, gone⟩
    · next found =>
      have text : Tells start (fun found => Ahead start found.2) (string false p) :=
        tells_string ahead found
      exact text.map fun _ gone => ⟨.scalar ahead.lineAhead, gone⟩
    · next depth tail bracket =>
      have element (q : Cursor) : Ahead start q → Tells start (NodeAhead start) (value depth q) :=
        ih depth (Nat.lt_succ_self depth)
      exact (tells_items element (ahead.step bracket (by decide))).map fun _ ⟨each, gone⟩ =>
        ⟨.array ahead.lineAhead each, gone⟩
    · next depth tail brace =>
      have element (q : Cursor) : Ahead start q → Tells start (NodeAhead start) (value depth q) :=
        ih depth (Nat.lt_succ_self depth)
      exact (tells_braces element (ahead.step brace (by decide))).map fun _ ⟨known, gone⟩ =>
        ⟨known.table (by simpa using ahead.lineAhead), gone⟩
    · split
      · next s rest found =>
        exact .ok ⟨.scalar ahead.lineAhead, ahead.onLine (staysOnLine_bare? (.refl _) _ found)⟩
      · exact .fault ahead

/-- The lines in the document and the place behind a statement are ahead. -/
def StateAhead (start : Cursor) (found : State × Cursor) : Prop :=
  found.1.entries.Knows (LineAhead start) ∧ Ahead start found.2

theorem tells_header {listed : Bool} (ahead : Ahead start p)
    (known : s.entries.Knows (LineAhead start)) :
    Tells start (StateAhead start) (header listed p s) := by
  unfold header
  refine (tells_keyPath ahead).bind fun ((path, k), q) ⟨keys, key, gone⟩ => ?_
  dsimp only at keys key gone ⊢
  have clean : '\n' ∉ if listed then [']', ']'] else [']'] := by split <;> decide
  generalize (if listed = true then [']', ']'] else [']']) = close at clean ⊢
  split
  · exact .fault gone
  · next closed =>
    have bracket : '\n' ∉ q.rest.take close.length := by rwa [not_not.1 closed]
    refine (tells_endLine (gone.advance bracket)).bind fun after behind => ?_
    split
    · next put => exact .ok ⟨Entries.knows_open? ahead.lineAhead keys key known _ put, behind⟩
    · exact .fault ahead

theorem tells_entry (ahead : Ahead start p) (known : s.entries.Knows (LineAhead start)) :
    Tells start (StateAhead start) (entry p s) := by
  unfold entry
  refine (tells_pair (fun _ => tells_value maxNesting) ahead).bind fun ((path, k, n), q) there => ?_
  obtain ⟨⟨keys, key, value⟩, gone⟩ := there
  refine (tells_endLine gone).bind fun after behind => ?_
  split
  · next put => exact .ok ⟨Entries.knows_insertBelow? keys key value known _ put, behind⟩
  · exact .fault ahead

theorem tells_statement (ahead : Ahead start p) (known : s.entries.Knows (LineAhead start)) :
    Tells start (StateAhead start) (statement p s) := by
  unfold statement
  split
  · next double => exact tells_header (ahead.advance (by simp [double])) known
  · next bracket => exact tells_header (ahead.step bracket (by decide)) known
  · exact (tells_endLine ahead).map fun _ gone => ⟨known, gone⟩
  · exact (tells_endLine ahead).map fun _ gone => ⟨known, gone⟩
  · exact (tells_endLine ahead).map fun _ gone => ⟨known, gone⟩
  · exact tells_entry ahead known

theorem tells_statements (ahead : Ahead start p) (known : s.entries.Knows (LineAhead start)) :
    Tells start (fun found => found.entries.Knows (LineAhead start)) (statements p s) := by
  fun_induction statements p s with
  | case1 p s q ended => exact .ok known
  | case2 p s q more ih =>
    refine (tells_statement ahead.skipGaps known).bind fun (t, r) ⟨filled, gone⟩ => ?_
    dsimp only at filled gone ⊢
    split
    · next progress => exact ih t r progress gone filled
    · exact .fault ahead.skipGaps

/-- All lines that a document knows, and that of the fault that ends its reading, are lines of its
text from the start on. -/
theorem tells_readText (text : String) :
    Tells ⟨text.toList, 1⟩ (Entries.Knows (LineAhead ⟨text.toList, 1⟩)) (readText text) := by
  unfold readText
  extract_lets cs
  have front : Ahead ⟨text.toList, 1⟩ { rest := cs } := by
    unfold cs
    split
    · next rest mark => exact (Ahead.refl _).behind mark (by decide)
    · exact .refl _
  exact (tells_statements front Entries.knows_nil).map fun _ known => known

end ProductTemplates.Toml
