import ProductTemplates.Yaml.Token

/-! The nodes of a YAML text in order, as its tokens spell them. A stack says what the grammar
expects; each step takes tokens or makes the stack lighter, so `Parse.run` comes to an end. -/
namespace ProductTemplates.Yaml

inductive Event where
  | documentStart
  | documentEnd
  | scalar (text : String) (plain : Bool) (tag anchor : Option String)
  | openSequence (tag anchor : Option String)
  | openMapping (tag anchor : Option String)
  | close
  | reference (name : String)
deriving Repr, DecidableEq, Inhabited

def Event.blank : Event := .scalar "" true none none

/-- What the grammar expects. Items, keys and values are those of a block unless they are said to
be of a flow collection; a pair is a mapping of one entry in a flow sequence. Bare items are those
of a sequence that has the indentation of its key. -/
inductive Goal where
  | documents (first : Bool)
  | content
  | documentEnd
  | node (block bare : Bool)
  | items
  | bareItems
  | keys
  | value
  | flowItems (first : Bool)
  | pairKey
  | pairValue
  | pairEnd
  | flowKeys (first : Bool)
  | flowValue
  | flowNoValue
deriving Repr, DecidableEq, Inhabited

/-- What a goal weighs: more than the goals that may replace it when no token is taken. -/
def Goal.weight : Goal → Nat
  | documents true => 6
  | documents false => 1
  | content => 3
  | documentEnd => 2
  | node _ _ => 2
  | items => 1
  | bareItems => 1
  | keys => 1
  | value => 3
  | flowItems true => 4
  | flowItems false => 1
  | pairKey => 7
  | pairValue => 4
  | pairEnd => 2
  | flowKeys true => 6
  | flowKeys false => 1
  | flowValue => 3
  | flowNoValue => 3

def Goal.weights : List Goal → Nat
  | [] => 0
  | g :: goals => g.weight + weights goals

/-- What a tag handle stands for, in the order of the directives. -/
abbrev Handles := List (String × String)

namespace Handles

def standard : Handles := [("!", "!"), ("!!", "tag:yaml.org,2002:")]

def expand? (hs : Handles) (handle rest : String) : Option String :=
  if handle = "" then some rest
  else ((hs ++ standard).find? (·.1 == handle)).map fun h => h.2 ++ rest

def expandAll? (hs : Handles) : Option (String × String) → Option (Option String)
  | none => some none
  | some (handle, rest) => (hs.expand? handle rest).map some

end Handles

/-- The directives in front of a document, with the token after them. A version must be 1.1 or
1.2 and, like a handle, must not be given twice. -/
def directives? : Bool → Handles → List Token → Option (Handles × List Token)
  | versioned, hs, .version major minor :: rest =>
    if versioned || major != 1 || (minor != 1 && minor != 2) then none
    else directives? true hs rest
  | versioned, hs, .tagHandle handle start :: rest =>
    if hs.any (·.1 == handle) then none else directives? versioned (hs ++ [(handle, start)]) rest
  | _, hs, ts => some (hs, ts)

/-- An anchor and a tag in front of a node, in either order. -/
structure Properties where
  anchor : Option String := none
  tag : Option (String × String) := none

def properties : List Token → Properties × List Token
  | .anchor a :: .tag h r :: rest => (⟨some a, some (h, r)⟩, rest)
  | .anchor a :: rest => (⟨some a, none⟩, rest)
  | .tag h r :: .anchor a :: rest => (⟨some a, some (h, r)⟩, rest)
  | .tag h r :: rest => (⟨none, some (h, r)⟩, rest)
  | ts => ({}, ts)

/-- The state between two steps: what is expected, innermost first, and the tokens left. -/
structure Parse where
  goals : List Goal
  tokens : List Token
  handles : Handles := []
deriving Repr, Inhabited

namespace Parse

/-- What is left to do: a token weighs more than all that it may bring. -/
def size (p : Parse) : Nat := 10 * p.tokens.length + Goal.weights p.goals

/-- A node whose properties are read. One that has properties may be left out. -/
def bareNode (block bare named : Bool) (tag anchor : Option String) (goals : List Goal)
    (hs : Handles) (ts : List Token) : Option (Event × Parse) :=
  let leftOut : Option (Event × Parse) :=
    if named then some (.scalar "" true tag anchor, ⟨goals, ts, hs⟩) else none
  match ts with
  | [] => none
  | .item :: _ =>
    if bare then some (.openSequence tag anchor, ⟨.bareItems :: goals, ts, hs⟩) else leftOut
  | .scalar text plain :: rest =>
    some (.scalar text plain (if tag = some "!" then none else tag) anchor, ⟨goals, rest, hs⟩)
  | .openFlowSequence :: rest =>
    some (.openSequence tag anchor, ⟨.flowItems true :: goals, rest, hs⟩)
  | .openFlowMapping :: rest =>
    some (.openMapping tag anchor, ⟨.flowKeys true :: goals, rest, hs⟩)
  | .openBlockSequence :: rest =>
    if block then some (.openSequence tag anchor, ⟨.items :: goals, rest, hs⟩) else leftOut
  | .openBlockMapping :: rest =>
    if block then some (.openMapping tag anchor, ⟨.keys :: goals, rest, hs⟩) else leftOut
  | _ :: _ => leftOut

def node (block bare : Bool) (goals : List Goal) (hs : Handles) (ts : List Token) :
    Option (Event × Parse) :=
  match ts with
  | .reference name :: rest => some (.reference name, ⟨goals, rest, hs⟩)
  | _ => do
    let (ps, rest) := properties ts
    let tag ← hs.expandAll? ps.tag
    bareNode block bare (ps.tag.isSome || ps.anchor.isSome) tag ps.anchor goals hs rest

def nodeUnless (ends : Token → Bool) (block bare : Bool) (goals : List Goal) (hs : Handles) :
    List Token → Option (Event × Parse)
  | [] => none
  | t :: rest =>
    if ends t then some (.blank, ⟨goals, t :: rest, hs⟩) else node block bare goals hs (t :: rest)

/-- The start of a document that is marked, after further ends of the one before and after
directives. -/
def startMarked (goals : List Goal) (ts : List Token) : Option (Event × Parse) := do
  let (hs, rest) ← directives? false [] (ts.dropWhile (· == .documentEnd))
  match rest with
  | .documentStart :: rest => some (.documentStart, ⟨.content :: .documentEnd :: goals, rest, hs⟩)
  | _ => none

def flowItem (goals : List Goal) (hs : Handles) : List Token → Option (Event × Parse)
  | .key :: rest => some (.openMapping none none, ⟨.pairKey :: .flowItems false :: goals, rest, hs⟩)
  | .closeFlowSequence :: rest => some (.close, ⟨goals, rest, hs⟩)
  | ts => node false false (.flowItems false :: goals) hs ts

def flowKey (goals : List Goal) (hs : Handles) : List Token → Option (Event × Parse)
  | .key :: rest =>
    nodeUnless (· matches .value | .comma | .closeFlowMapping) false false
      (.flowValue :: goals) hs rest
  | .closeFlowMapping :: rest => some (.close, ⟨goals, rest, hs⟩)
  | ts => node false false (.flowNoValue :: goals) hs ts

def step (p : Parse) : Option (Event × Parse) :=
  let hs := p.handles
  match p.goals, p.tokens with
  | [], _ => none
  | _, [] => none
  | .documents true :: goals, t :: rest =>
    match t with
    | .version _ _ | .tagHandle _ _ | .documentStart =>
      startMarked (.documents false :: goals) (t :: rest)
    | .streamEnd => none
    | _ =>
      some (.documentStart,
        ⟨.node true false :: .documentEnd :: .documents false :: goals, t :: rest, []⟩)
  | .documents false :: goals, t :: rest =>
    startMarked (.documents false :: goals) (t :: rest)
  | .content :: goals, ts =>
    nodeUnless (· matches .version _ _ | .tagHandle _ _ | .documentStart | .documentEnd | .streamEnd)
      true false goals hs ts
  | .documentEnd :: goals, .documentEnd :: rest => some (.documentEnd, ⟨goals, rest, []⟩)
  | .documentEnd :: goals, ts => some (.documentEnd, ⟨goals, ts, []⟩)
  | .node block bare :: goals, ts => node block bare goals hs ts
  | .items :: goals, .item :: rest =>
    nodeUnless (· matches .item | .endBlock) true false (.items :: goals) hs rest
  | .items :: goals, .endBlock :: rest => some (.close, ⟨goals, rest, hs⟩)
  | .items :: _, _ => none
  | .bareItems :: goals, .item :: rest =>
    nodeUnless (· matches .item | .key | .value | .endBlock) true false
      (.bareItems :: goals) hs rest
  | .bareItems :: goals, ts => some (.close, ⟨goals, ts, hs⟩)
  | .keys :: goals, .key :: rest =>
    nodeUnless (· matches .key | .value | .endBlock) true true (.value :: .keys :: goals) hs rest
  | .keys :: goals, .endBlock :: rest => some (.close, ⟨goals, rest, hs⟩)
  | .keys :: _, _ => none
  | .value :: goals, .value :: rest =>
    nodeUnless (· matches .key | .value | .endBlock) true true goals hs rest
  | .value :: goals, ts => some (.blank, ⟨goals, ts, hs⟩)
  | .flowItems true :: goals, ts => flowItem goals hs ts
  | .flowItems false :: goals, .closeFlowSequence :: rest => some (.close, ⟨goals, rest, hs⟩)
  | .flowItems false :: goals, .comma :: rest => flowItem goals hs rest
  | .flowItems false :: _, _ => none
  | .pairKey :: goals, t :: rest =>
    if t matches .value | .comma | .closeFlowSequence then
      some (.blank, ⟨.pairValue :: goals, rest, hs⟩)
    else node false false (.pairValue :: goals) hs (t :: rest)
  | .pairValue :: goals, .value :: rest =>
    nodeUnless (· matches .comma | .closeFlowSequence) false false (.pairEnd :: goals) hs rest
  | .pairValue :: goals, ts => some (.blank, ⟨.pairEnd :: goals, ts, hs⟩)
  | .pairEnd :: goals, ts => some (.close, ⟨goals, ts, hs⟩)
  | .flowKeys true :: goals, ts => flowKey goals hs ts
  | .flowKeys false :: goals, .closeFlowMapping :: rest => some (.close, ⟨goals, rest, hs⟩)
  | .flowKeys false :: goals, .comma :: rest => flowKey goals hs rest
  | .flowKeys false :: _, _ => none
  | .flowValue :: goals, .value :: rest =>
    nodeUnless (· matches .comma | .closeFlowMapping) false false
      (.flowKeys false :: goals) hs rest
  | .flowValue :: goals, ts => some (.blank, ⟨.flowKeys false :: goals, ts, hs⟩)
  | .flowNoValue :: goals, ts => some (.blank, ⟨.flowKeys false :: goals, ts, hs⟩)

theorem length_properties_le (ts : List Token) : (properties ts).2.length ≤ ts.length := by
  unfold properties
  split <;> simp <;> omega

theorem length_directives?_le {versioned : Bool} {hs : Handles} {ts : List Token}
    {r : Handles × List Token} (h : directives? versioned hs ts = some r) :
    r.2.length ≤ ts.length := by
  fun_induction directives? versioned hs ts with
  | case1 => simp at h
  | case2 _ _ _ _ _ _ ih => exact Nat.le_succ_of_le (ih h)
  | case3 => simp at h
  | case4 _ _ _ _ _ _ ih => exact Nat.le_succ_of_le (ih h)
  | case5 => simp only [Option.some.injEq] at h; simp [← h]

theorem size_bareNode_le {block bare named : Bool} {tag anchor : Option String}
    {goals : List Goal} {hs : Handles} {ts : List Token} {e : Event} {p : Parse}
    (h : bareNode block bare named tag anchor goals hs ts = some (e, p)) :
    p.size ≤ 10 * ts.length + Goal.weights goals + 1 := by
  unfold bareNode at h
  grind [size, Goal.weight, Goal.weights]

theorem size_node_le {block bare : Bool} {goals : List Goal} {hs : Handles} {ts : List Token}
    {e : Event} {p : Parse} (h : node block bare goals hs ts = some (e, p)) :
    p.size ≤ 10 * ts.length + Goal.weights goals + 1 := by
  unfold node at h
  split at h
  · grind [size]
  · have := length_properties_le ts
    simp only [Option.bind_eq_bind, Option.bind_eq_some_iff] at h
    obtain ⟨tag, _, h⟩ := h
    have := size_bareNode_le h
    omega

theorem size_nodeUnless_le {ends : Token → Bool} {block bare : Bool} {goals : List Goal}
    {hs : Handles} {ts : List Token} {e : Event} {p : Parse}
    (h : nodeUnless ends block bare goals hs ts = some (e, p)) :
    p.size ≤ 10 * ts.length + Goal.weights goals + 1 := by
  unfold nodeUnless at h
  split at h
  · simp at h
  · split at h
    · grind [size]
    · exact size_node_le h

theorem size_startMarked_le {goals : List Goal} {ts : List Token} {e : Event} {p : Parse}
    (h : startMarked goals ts = some (e, p)) :
    p.size + 5 ≤ 10 * ts.length + Goal.weights goals := by
  simp only [startMarked, Option.bind_eq_bind, Option.bind_eq_some_iff] at h
  obtain ⟨r, hr, h⟩ := h
  have := length_directives?_le hr
  have := (@List.dropWhile_sublist _ ts (· == .documentEnd)).length_le
  grind [size, Goal.weight, Goal.weights]

theorem size_flowItem_le {goals : List Goal} {hs : Handles} {ts : List Token} {e : Event}
    {p : Parse} (h : flowItem goals hs ts = some (e, p)) :
    p.size ≤ 10 * ts.length + Goal.weights goals + 2 := by
  unfold flowItem at h
  split at h
  · grind [size, Goal.weight, Goal.weights]
  · grind [size]
  · have := size_node_le h
    grind [Goal.weight, Goal.weights]

theorem size_flowKey_le {goals : List Goal} {hs : Handles} {ts : List Token} {e : Event}
    {p : Parse} (h : flowKey goals hs ts = some (e, p)) :
    p.size ≤ 10 * ts.length + Goal.weights goals + 4 := by
  unfold flowKey at h
  split at h
  · have := size_nodeUnless_le h
    grind [Goal.weight, Goal.weights]
  · grind [size]
  · have := size_node_le h
    grind [Goal.weight, Goal.weights]

theorem size_step_lt {p q : Parse} {e : Event} (h : p.step = some (e, q)) : q.size < p.size := by
  unfold step at h
  obtain ⟨goals, tokens, hs⟩ := p
  simp only at h
  split at h
  all_goals
    first
      | (simp at h; done)
      | have := size_nodeUnless_le h
        grind [size, Goal.weight, Goal.weights]
      | have := size_node_le h
        grind [size, Goal.weight, Goal.weights]
      | have := size_flowItem_le h
        grind [size, Goal.weight, Goal.weights]
      | have := size_flowKey_le h
        grind [size, Goal.weight, Goal.weights]
      | have := size_startMarked_le h
        grind [size, Goal.weight, Goal.weights]
      | split at h <;> first
          | have := size_node_le h
            grind [size, Goal.weight, Goal.weights]
          | have := size_startMarked_le h
            grind [size, Goal.weight, Goal.weights]
          | grind [size, Goal.weight, Goal.weights]
      | grind [size, Goal.weight, Goal.weights]

def run (p : Parse) : List Event × Parse :=
  match _next : p.step with
  | none => ([], p)
  | some (e, q) =>
    let (es, last) := run q
    (e :: es, last)
termination_by p.size
decreasing_by exact size_step_lt _next

end Parse

/-- The events of a text, and whether the text ends after them; if not, it has a fault there. -/
def events (ts : List Token) : List Event × Bool :=
  let (es, last) := Parse.run { goals := [.documents true], tokens := ts.drop 1 }
  (es, match last.goals with
    | [.documents _] => last.tokens.dropWhile (· == .documentEnd) == [.streamEnd]
    | _ => false)

end ProductTemplates.Yaml
