import ProductTemplates.Yaml.Token.Name

/-! All tokens of a YAML text. Whether a word is a key shows only at a later colon, so tokens wait
until that is settled; of a faulty text the tokens that still wait are lost. -/
namespace ProductTemplates.Yaml

/-- Where a key may have begun: the number of its first token and its place. A required key must
turn out to be one. -/
structure KeyStart where
  number : Nat
  place : Cursor
  required : Bool
deriving Repr, Inhabited

/-- The state between two tokens. For each flow collection around, and for the blocks outside all
of them, `keys` has the place where a key may have begun. -/
structure Scan where
  cursor : Cursor
  /-- How many tokens are settled and gone. -/
  released : Nat := 0
  waiting : List Token := []
  indent : Int := -1
  outerIndents : List Int := []
  keyAllowed : Bool := true
  keys : List (Option KeyStart) := [none]
deriving Repr, Inhabited

namespace Scan

def inFlow (s : Scan) : Bool := 1 < s.keys.length

def emit (t : Token) (s : Scan) : Scan := { s with waiting := s.waiting ++ [t] }

def emitBefore (number : Nat) (t : Token) (s : Scan) : Scan :=
  let k := number - s.released
  { s with waiting := s.waiting.take k ++ t :: s.waiting.drop k }

def advance (k : Nat) (s : Scan) : Scan := { s with cursor := s.cursor.advance k }

/-- A key is over after its line or after 1024 characters; a required one must not be. -/
def dropStale (s : Scan) : Option Scan := do
  let keys ← s.keys.mapM fun key => match key with
    | none => some none
    | some k =>
      if k.place.line < s.cursor.line ∨ k.place.index + 1024 < s.cursor.index then
        (if k.required then none else some none)
      else some (some k)
  return { s with keys := keys }

def dropKey (s : Scan) : Option Scan :=
  match s.keys with
  | some k :: outer => if k.required then none else some { s with keys := none :: outer }
  | _ => some s

def saveKey (s : Scan) : Option Scan :=
  if s.keyAllowed then do
    let s ← s.dropKey
    let start : KeyStart :=
      { number := s.released + s.waiting.length
        place := s.cursor
        required := !s.inFlow && s.indent == s.cursor.column }
    return { s with keys := some start :: s.keys.tail }
  else some s

def endedBlocks (column : Int) : Int → List Int → Nat × Int × List Int
  | indent, [] => (0, indent, [])
  | indent, o :: outer =>
    if column < indent then
      let (n, i, left) := endedBlocks column o outer
      (n + 1, i, left)
    else (0, indent, o :: outer)

def unroll (column : Int) (s : Scan) : Scan :=
  if s.inFlow then s
  else
    let (n, indent, outer) := endedBlocks column s.indent s.outerIndents
    { s with
      waiting := s.waiting ++ List.replicate n .endBlock
      indent := indent
      outerIndents := outer }

/-- Opens a block at a column that is deeper than the current one. -/
def roll (column : Nat) (place : Scan → Scan) (s : Scan) : Scan :=
  if !s.inFlow && s.indent < column then
    place { s with indent := column, outerIndents := s.indent :: s.outerIndents }
  else s

/-- Past blanks, comments and line breaks. Tabs do not stand where a key may begin in a block. -/
def skipBlank (inFlow : Bool) (p : Cursor) (keyAllowed : Bool) : Cursor × Bool :=
  let q := p.skipWhile fun c => c == ' ' || ((inFlow || !keyAllowed) && c == '\t')
  let q := if q.holds 0 (· == '#') then q.skipWhile (fun c => !isBreak c) else q
  if _break : q.holds 0 isBreak then skipBlank inFlow q.takeBreak.2 (keyAllowed || !inFlow)
  else (q, keyAllowed)
termination_by p.rest.length
decreasing_by
  refine Nat.lt_of_lt_of_le (Cursor.length_takeBreak_lt _ _break) ?_
  split
  · exact Nat.le_trans (Cursor.length_skipWhile_le _ _) (Cursor.length_skipWhile_le _ _)
  · exact Cursor.length_skipWhile_le _ _

def isIndicator (c : Char) : Bool := "-?:,[]{}#&*!|>'\"%@`".toList.contains c

def plainBegins (s : Scan) : Bool :=
  let p := s.cursor
  p.holds 0 fun c =>
    !(isGap c || isBreak c || isIndicator c) ||
      (c == '-' && !p.holds 1 isGap) ||
      (!s.inFlow && (c == '?' || c == ':') && !p.gapAt 1)

def openFlow (t : Token) (s : Scan) : Option Scan := do
  let s ← s.saveKey
  return { s.advance 1 with keys := none :: s.keys, keyAllowed := true, waiting := s.waiting ++ [t] }

def closeFlow (t : Token) (s : Scan) : Option Scan := do
  let s ← s.dropKey
  let keys := if s.inFlow then s.keys.tail else s.keys
  return { s.advance 1 with keys := keys, keyAllowed := false, waiting := s.waiting ++ [t] }

def comma (s : Scan) : Option Scan := do
  let s ← s.dropKey
  return { s.advance 1 with keyAllowed := true, waiting := s.waiting ++ [.comma] }

def item (s : Scan) : Option Scan := do
  if !s.inFlow && !s.keyAllowed then none
  let s ← (s.roll s.cursor.column (emit .openBlockSequence)).dropKey
  return { s.advance 1 with keyAllowed := true, waiting := s.waiting ++ [.item] }

def key (s : Scan) : Option Scan := do
  if !s.inFlow && !s.keyAllowed then none
  let s ← (s.roll s.cursor.column (emit .openBlockMapping)).dropKey
  return { s.advance 1 with keyAllowed := !s.inFlow, waiting := s.waiting ++ [.key] }

/-- The mark of a value. If a key may have begun on this level, it did, and with it perhaps a
mapping. -/
def value (s : Scan) : Option Scan :=
  match s.keys with
  | some k :: outer =>
    let s := s.emitBefore k.number .key
    let s := s.roll k.place.column (emitBefore k.number .openBlockMapping)
    some { s.advance 1 with
      keys := none :: outer, keyAllowed := false, waiting := s.waiting ++ [.value] }
  | _ => do
    if !s.inFlow && !s.keyAllowed then none
    let s := s.roll s.cursor.column (emit .openBlockMapping)
    return { s.advance 1 with keyAllowed := !s.inFlow, waiting := s.waiting ++ [.value] }

def begin (lexer : Cursor → Option (Token × Cursor)) (s : Scan) : Option Scan := do
  let s ← s.saveKey
  let (t, p) ← lexer s.cursor
  return { s with cursor := p, keyAllowed := false, waiting := s.waiting ++ [t] }

def plainScalar (s : Scan) : Option Scan := do
  let s ← s.saveKey
  let found ← plain s.inFlow (s.indent + 1) s.cursor [] {}
  return { s with
    cursor := found.after
    keyAllowed := found.broken
    waiting := s.waiting ++ [.scalar (String.ofList found.text) true] }

def quotedScalar (double : Bool) (s : Scan) : Option Scan :=
  s.begin fun p => (quoted double (p.advance 1) []).map fun found =>
    (.scalar (String.ofList found.text) false, found.after)

def blockScalar (literal : Bool) (s : Scan) : Option Scan := do
  let s ← s.dropKey
  let found ← block literal s.indent (s.cursor.advance 1)
  return { s with
    cursor := found.after
    keyAllowed := true
    waiting := s.waiting ++ [.scalar (String.ofList found.text) false] }

def endBlocks (s : Scan) : Option Scan := do
  let s ← (s.unroll (-1)).dropKey
  return { s with keyAllowed := false }

def documentMark (t : Token) (s : Scan) : Option Scan := do
  let s ← s.endBlocks
  return (s.advance 3).emit t

def directive (s : Scan) : Option Scan := do
  let s ← s.endBlocks
  let (t, p) ← directive? (s.cursor.advance 1)
  return { s with cursor := p, waiting := s.waiting ++ [t] }

def next (s : Scan) : Option Scan :=
  let p := s.cursor
  let blankAfter := p.gapAt 1
  if p.column = 0 ∧ p.holds 0 (· == '%') then s.directive
  else if p.documentMark '-' then s.documentMark .documentStart
  else if p.documentMark '.' then s.documentMark .documentEnd
  else match p.char? 0 with
    | some '[' => s.openFlow .openFlowSequence
    | some '{' => s.openFlow .openFlowMapping
    | some ']' => s.closeFlow .closeFlowSequence
    | some '}' => s.closeFlow .closeFlowMapping
    | some ',' => s.comma
    | some '*' => s.begin fun p => (anchorName? (p.advance 1)).map fun (n, q) => (.reference n, q)
    | some '&' => s.begin fun p => (anchorName? (p.advance 1)).map fun (n, q) => (.anchor n, q)
    | some '!' => s.begin (endedTag? s.inFlow)
    | some '\'' => s.quotedScalar false
    | some '"' => s.quotedScalar true
    | some c =>
      if c == '-' && blankAfter then s.item
      else if c == '?' && (s.inFlow || blankAfter) then s.key
      else if c == ':' && (s.inFlow || blankAfter) then s.value
      else if c == '|' && !s.inFlow then s.blockScalar true
      else if c == '>' && !s.inFlow then s.blockScalar false
      else if s.plainBegins then s.plainScalar
      else none
    | none => none

/-- How many tokens wait no longer: those before the first that may begin a key. -/
def settled (s : Scan) : Nat :=
  let total := s.released + s.waiting.length
  s.keys.foldl (fun n key => min n ((key.map (·.number)).getD total)) total - s.released

def finish (s : Scan) : Option Scan := do
  let s ← s.endBlocks
  return s.emit .streamEnd

/-- From one token to the next, after the settled tokens were taken away. At the end of the text
there is no next one. -/
def step (s : Scan) : Option (Scan × Bool) := do
  let (p, allowed) := skipBlank s.inFlow s.cursor s.keyAllowed
  let s ← { s with cursor := p, keyAllowed := allowed }.dropStale
  let s := s.unroll s.cursor.column
  if s.cursor.atEnd then return (← s.finish, true) else return (← s.next, false)

/-- Token after token of a text of `size` characters; each takes at least one of them. -/
def run (size : Nat) (s : Scan) : List Token :=
  match if s.waiting.isEmpty then some s else s.dropStale with
  | none => []
  | some t =>
    let k := t.settled
    let ready := t.waiting.take k
    match { t with released := t.released + k, waiting := t.waiting.drop k }.step with
    | none => ready
    | some (t, true) => ready ++ t.waiting
    | some (t, false) =>
      if _progress : s.cursor.index < t.cursor.index ∧ s.cursor.index < size then
        ready ++ run size t
      else ready
termination_by size - s.cursor.index
decreasing_by omega

end Scan

/-- The tokens of a text. Without `streamEnd` as the last of them, the text has a fault after
them. A byte order mark at the start takes a column. -/
def tokens (text : List Char) : List Token :=
  if text.all isAllowed then
    let start : Cursor := match text with
      | '\ufeff' :: rest => { rest := rest, index := 1, column := 1 }
      | _ => { rest := text }
    .streamStart :: Scan.run text.length { cursor := start, released := 1 }
  else [.streamStart]

end ProductTemplates.Yaml
