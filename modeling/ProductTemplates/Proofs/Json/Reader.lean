import ProductTemplates.Json.Reader
import ProductTemplates.Proofs.Document.Nesting
import ProductTemplates.Proofs.Json.Token

/-! JSON that is written and read again is the tree it was, but for what is nested too deep and for
numbers that are read as something else. -/
namespace ProductTemplates.Json

open Document Document.Compose

variable {inside : List Container} {expect : Expect} {rest : List Token} {limit : Nat} {s : State}

/-- A scalar of a document, or a part that stands for nothing. -/
def atomNode : Option Atom → Node
  | some a => .ofAtom a
  | none => .refused

def atomEvent : Option Atom → Event
  | some a => .scalar (.atom a)
  | none => .refused

mutual
/-- JSON as a document. -/
def node : Json → Node
  | null => .ofAtom .null
  | bool b => .ofAtom (.bool b)
  | number n => atomNode (numberAtom? n)
  | string s => .ofAtom (.string s)
  | array xs => .sequence .typed (itemNodes xs) true
  | object ms => .mapping .typed (memberNodes ms) true
def itemNodes : List Json → List Node
  | [] => []
  | x :: xs => node x :: itemNodes xs
def memberNodes : List (String × Json) → List (Node × Node)
  | [] => []
  | (k, v) :: ms => (.ofAtom (.string k), node v) :: memberNodes ms
end

mutual
def written : Json → List Event
  | null => [.scalar (.atom .null)]
  | bool b => [.scalar (.atom (.bool b))]
  | number n => [atomEvent (numberAtom? n)]
  | string s => [.scalar (.atom (.string s))]
  | array xs => .openSequence .typed :: itemsWritten xs
  | object ms => .openMapping .typed :: membersWritten ms
def itemsWritten : List Json → List Event
  | [] => [.close]
  | x :: xs => written x ++ itemsWritten xs
def membersWritten : List (String × Json) → List Event
  | [] => [.close]
  | (k, v) :: ms => .scalar (.atom (.string k)) :: written v ++ membersWritten ms
end

def before (es : List Event) (later : List Event × Bool) : List Event × Bool :=
  (es ++ later.1, later.2)

theorem before_append (es more : List Event) (later : List Event × Bool) :
    before (es ++ more) later = before es (before more later) := by
  simp [before]

theorem events_cons {t : Token} {event : Option Event} {inside' : List Container} {expect' : Expect}
    (h : advance? inside expect t = some (event, inside', expect')) :
    events inside expect (t :: rest) = before event.toList (events inside' expect' rest) := by
  rw [events, h]
  rfl

def Expect.TakesValue (expect : Expect) : Prop := expect = .value ∨ expect = .itemOrClose

theorem advance?_atomToken (a : Option Atom) (ready : expect.TakesValue) :
    advance? inside expect (atomToken a) = some (some (atomEvent a), inside, afterValue inside) := by
  rcases ready with rfl | rfl <;> cases a <;> rfl

theorem advance?_openArray (ready : expect.TakesValue) : advance? inside expect .openArray =
    some (some (.openSequence .typed), .array :: inside, .itemOrClose) := by
  rcases ready with rfl | rfl <;> rfl

theorem advance?_openObject (ready : expect.TakesValue) : advance? inside expect .openObject =
    some (some (.openMapping .typed), .object :: inside, .keyOrClose) := by
  rcases ready with rfl | rfl <;> rfl

/-- What the tokens of a value come to, at a place for a value. -/
def Yields (j : Json) : Prop := ∀ inside expect rest, Expect.TakesValue expect →
  events inside expect (tokens j ++ rest) =
    before (written j) (events inside (afterValue inside) rest)

theorem events_closeArray (first : expect = .itemOrClose ∨ expect = .commaOrClose) :
    events (.array :: inside) expect (.closeArray :: rest) =
      before [.close] (events inside (afterValue inside) rest) := by
  rcases first with rfl | rfl
  · exact @events_cons _ _ _ _ (some .close) _ _ rfl
  · exact @events_cons _ _ _ _ (some .close) _ _ rfl

theorem events_closeObject (first : expect = .keyOrClose ∨ expect = .commaOrClose) :
    events (.object :: inside) expect (.closeObject :: rest) =
      before [.close] (events inside (afterValue inside) rest) := by
  rcases first with rfl | rfl
  · exact @events_cons _ _ _ _ (some .close) _ _ rfl
  · exact @events_cons _ _ _ _ (some .close) _ _ rfl

theorem events_itemTokens {xs : List Json} (items : ∀ x ∈ xs, Yields x) :
    events (.array :: inside) .commaOrClose (itemTokens xs ++ rest) =
      before (itemsWritten xs) (events inside (afterValue inside) rest) := by
  induction xs with
  | nil => exact events_closeArray (.inr rfl)
  | cons x more ih =>
    rw [List.forall_mem_cons] at items
    have comma : events (.array :: inside) .commaOrClose (itemTokens (x :: more) ++ rest) =
        events (.array :: inside) .value (tokens x ++ (itemTokens more ++ rest)) := by
      rw [itemTokens, List.cons_append, List.cons_append, List.append_assoc]
      exact @events_cons _ _ _ _ none _ _ rfl
    have goesOn : events (.array :: inside) (afterValue (.array :: inside))
        (itemTokens more ++ rest) = _ := ih items.2
    rw [comma, items.1 _ _ _ (.inl rfl), itemsWritten, before_append, goesOn]

theorem events_member {k : String} {v : Json} (value : Yields v)
    (ready : expect = .key ∨ expect = .keyOrClose) :
    events (.object :: inside) expect (.scalar (.string k) :: .colon :: (tokens v ++ rest)) =
      before (.scalar (.atom (.string k)) :: written v)
        (events (.object :: inside) .commaOrClose rest) := by
  have key : advance? (.object :: inside) expect (.scalar (.string k)) =
      some (some (.scalar (.atom (.string k))), .object :: inside, .colon) := by
    rcases ready with rfl | rfl <;> rfl
  have colon : events (.object :: inside) .colon (.colon :: (tokens v ++ rest)) =
      events (.object :: inside) .value (tokens v ++ rest) := @events_cons _ _ _ _ none _ _ rfl
  rw [events_cons key, colon, value _ _ _ (.inl rfl), ← before_append]
  rfl

theorem events_memberTokens {ms : List (String × Json)} (members : ∀ m ∈ ms, Yields m.2) :
    events (.object :: inside) .commaOrClose (memberTokens ms ++ rest) =
      before (membersWritten ms) (events inside (afterValue inside) rest) := by
  induction ms with
  | nil => exact events_closeObject (.inr rfl)
  | cons m more ih =>
    obtain ⟨k, v⟩ := m
    rw [List.forall_mem_cons] at members
    have comma : events (.object :: inside) .commaOrClose (memberTokens ((k, v) :: more) ++ rest) =
        events (.object :: inside) .key
          (.scalar (.string k) :: .colon :: (tokens v ++ (memberTokens more ++ rest))) := by
      have listed : memberTokens ((k, v) :: more) ++ rest =
          .comma :: .scalar (.string k) :: .colon :: (tokens v ++ (memberTokens more ++ rest)) := by
        simp [memberTokens]
      rw [listed]
      exact @events_cons _ .commaOrClose _ .comma none (.object :: inside) .key rfl
    rw [comma, events_member members.1 (.inl rfl), ih members.2, ← before_append]
    simp [membersWritten]

theorem yields (j : Json) : Yields j := by
  have scalar (a : Option Atom) (inside : List Container) (expect : Expect) (rest : List Token)
      (ready : expect.TakesValue) : events inside expect ([atomToken a] ++ rest) =
        before [atomEvent a] (events inside (afterValue inside) rest) :=
    events_cons (advance?_atomToken a ready)
  induction j using Json.induction with
  | null => exact scalar (some .null)
  | bool b => exact scalar (some (.bool b))
  | number n => exact scalar (numberAtom? n)
  | string s => exact scalar (some (.string s))
  | array xs ih =>
    intro inside expect rest ready
    have opened (later : List Token) : events inside expect (.openArray :: later) =
        before [.openSequence .typed] (events (.array :: inside) .itemOrClose later) :=
      events_cons (advance?_openArray ready)
    cases xs with
    | nil =>
      exact (opened _).trans (congrArg _ (events_closeArray (.inl rfl)))
    | cons x more =>
      rw [List.forall_mem_cons] at ih
      have listed : tokens (.array (x :: more)) ++ rest =
          .openArray :: (tokens x ++ (itemTokens more ++ rest)) := by
        simp [tokens]
      have items : events (.array :: inside) (afterValue (.array :: inside))
          (itemTokens more ++ rest) = _ := events_itemTokens ih.2
      rw [listed, opened, ih.1 _ _ _ (.inr rfl), items, ← before_append, ← before_append]
      simp [written, itemsWritten]
  | object ms ih =>
    intro inside expect rest ready
    have opened (later : List Token) : events inside expect (.openObject :: later) =
        before [.openMapping .typed] (events (.object :: inside) .keyOrClose later) :=
      events_cons (advance?_openObject ready)
    cases ms with
    | nil =>
      exact (opened _).trans (congrArg _ (events_closeObject (.inl rfl)))
    | cons m more =>
      obtain ⟨k, v⟩ := m
      rw [List.forall_mem_cons] at ih
      have listed : tokens (.object ((k, v) :: more)) ++ rest =
          .openObject :: .scalar (.string k) :: .colon :: (tokens v ++ (memberTokens more ++ rest)) := by
        simp [tokens]
      rw [listed, opened, events_member ih.1 (.inr rfl), events_memberTokens ih.2, ← before_append,
        ← before_append]
      simp [written, membersWritten]

/-- What the events of a value come to, whatever is open around them. -/
def Composes (limit : Nat) (j : Json) : Prop := ∀ s : State,
  (written j).foldl (State.step limit) s = s.add ((node j).within (limit - s.frames.length))

theorem foldl_itemsWritten {xs : List Json} {done : List Node} {outer : List Frame} {root : Option Node}
    (items : ∀ x ∈ xs, Composes limit x) :
    (itemsWritten xs).foldl (State.step limit) ⟨.sequence .typed done :: outer, root⟩ =
      State.add (if outer.length < limit then .sequence .typed
        (done.reverse ++ Node.allWithin (limit - (outer.length + 1)) (itemNodes xs)) true
        else .refused) ⟨outer, root⟩ := by
  induction xs generalizing done with
  | nil => simp [itemsWritten, State.step, Frame.finish, itemNodes, Node.allWithin]
  | cons x more ih =>
    rw [List.forall_mem_cons] at items
    rw [itemsWritten, List.foldl_append, items.1]
    refine (ih items.2).trans ?_
    simp [itemNodes, Node.allWithin]

theorem foldl_membersWritten {ms : List (String × Json)} {done : List (Node × Node)}
    {outer : List Frame} {root : Option Node} (members : ∀ m ∈ ms, Composes limit m.2) :
    (membersWritten ms).foldl (State.step limit) ⟨.mapping .typed done none :: outer, root⟩ =
      State.add (if outer.length < limit then .mapping .typed
        (done.reverse ++ Node.entriesWithin (limit - (outer.length + 1)) (memberNodes ms)) true
        else .refused) ⟨outer, root⟩ := by
  induction ms generalizing done with
  | nil => simp [membersWritten, State.step, Frame.finish, memberNodes, Node.entriesWithin]
  | cons m more ih =>
    obtain ⟨k, v⟩ := m
    rw [List.forall_mem_cons] at members
    have key : State.step limit ⟨.mapping .typed done none :: outer, root⟩
        (.scalar (.atom (.string k))) =
          ⟨.mapping .typed done (some (.ofAtom (.string k))) :: outer, root⟩ := rfl
    rw [membersWritten, List.cons_append, List.foldl_cons, key, List.foldl_append, members.1]
    refine (ih members.2).trans ?_
    simp [memberNodes, Node.entriesWithin, Node.within, Node.ofAtom]

theorem composes (j : Json) : Composes limit j := by
  have refused {depth : Nat} {collection : Node} :
      (if depth < limit then collection else .refused) =
        if limit - depth = 0 ∧ true = true then .refused else collection := by
    by_cases fits : depth < limit
    · rw [if_pos fits, if_neg (fun full => by have := full.1; omega)]
    · rw [if_neg fits, if_pos ⟨by omega, rfl⟩]
  induction j using Json.induction with
  | null | bool | string => exact fun s => rfl
  | number n =>
    intro s
    rw [written, node]
    cases numberAtom? n <;> rfl
  | array xs ih =>
    intro s
    refine (foldl_itemsWritten ih).trans ?_
    rw [node, Node.within, Nat.sub_sub, refused]
    rfl
  | object ms ih =>
    intro s
    refine (foldl_membersWritten ih).trans ?_
    rw [node, Node.within, Nat.sub_sub, refused]
    rfl

/-- Written and read, JSON is a document, in which what is nested too deep is refused. -/
theorem readText_compactText (j : Json) :
    readText j.compactText = ⟨(node j).within maxNesting, true⟩ := by
  have found : Token.ofChars j.compact = tokens j := by
    have whole := ofChars_compact j ends_nil
    rw [List.append_nil, Token.ofChars, List.append_nil] at whole
    exact whole
  have parsed : events [] .value (tokens j) = (written j, true) := by
    have whole := yields j [] .value [] (.inl rfl)
    rw [List.append_nil] at whole
    rw [whole]
    simp [before, events, afterValue]
  have composed : Node.ofEvents? maxNesting (written j) = some ((node j).within maxNesting) := by
    rw [Node.ofEvents?, composes j]
    rfl
  rw [readText, compactText, String.toList_ofList, found, parsed]
  simp only [composed, Option.getD_some]

end ProductTemplates.Json
