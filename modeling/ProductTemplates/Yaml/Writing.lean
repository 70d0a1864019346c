import ProductTemplates.Json
import ProductTemplates.Yaml.Style

/-! Writing values in YAML, in blocks that are indented by two; only empty collections stand in
brackets. -/
namespace ProductTemplates.Yaml

inductive Mark where
  | key
  | item
  /-- The mark of a key that is too large for one line, or of its value. -/
  | sign
deriving Repr, DecidableEq

def isTagCharacter (c : Char) : Bool :=
  isWordCharacter c || ";/?:@&=+$,.~*'()[]".toList.contains c

def writeTag (tag : String) : String :=
  let escaped (c : Char) : List Char :=
    if isTagCharacter c then [c]
    else c.toString.toUTF8.toList.flatMap fun b => '%' :: hexDigits 2 b.toNat
  "!" ++ String.ofList (((Value.tagText tag).toList.drop 1).flatMap escaped)

/-- The text of a scalar or of an empty collection. -/
def leaf? (indent : Nat) : Value → Option String
  | .null => some "null"
  | .bool b => some (if b then "true" else "false")
  | .number n => some n.text
  | .string s => some (scalarText indent s)
  | .sequence [] => some "[]"
  | .mapping [] => some "{}"
  | _ => none

/-- How much a key counts: its bytes, if it has one line. -/
def keySize? : Value → Option Nat
  | .string s => if s.toList.any isBreak then none else some s.utf8ByteSize
  | .sequence [] => some 0
  | .mapping [] => some 0
  | v => (leaf? 0 v).map String.utf8ByteSize

/-- A key on one line; none if it is too large. -/
def simpleKey? : Value → Option String
  | .tagged t v => do
    if 128 < (← keySize? v) + (Value.tagText t).utf8ByteSize then none
    return writeTag t ++ " " ++ (← leaf? 0 v)
  | v => do
    if 128 < (← keySize? v) then none
    leaf? 0 v

def newLine (indent : Nat) : String := "\n" ++ String.ofList (spaces indent)

/-- A collection begins on the line of its mark, unless that is a key or a tag follows. -/
def opening (mark : Mark) (tag : String) (indent : Nat) : String :=
  tag ++ (if mark = .key ∨ tag ≠ "" then newLine indent else " ")

/-- The items of a sequence under a key have the indentation of the key. -/
def itemIndent (mark : Mark) (tag : String) (indent : Nat) : Nat :=
  match mark with
  | .key => indent
  | .item => indent + 2
  | .sign => if tag = "" then indent + 2 else indent

mutual
/-- A node behind its mark and its tag, inside a collection with some indentation. -/
def write (mark : Mark) (tag : String) (indent : Nat) : Value → String
  | .tagged t v => write mark (" " ++ writeTag t) indent v
  | .sequence (x :: xs) =>
    let inner := itemIndent mark tag indent
    opening mark tag inner ++ writeItems inner (x :: xs)
  | .mapping (e :: es) => opening mark tag (indent + 2) ++ writeEntries (indent + 2) (e :: es)
  | .sequence [] => tag ++ " []"
  | .mapping [] => tag ++ " {}"
  | .null => tag ++ " null"
  | .bool b => tag ++ (if b then " true" else " false")
  | .number n => tag ++ " " ++ n.text
  | .string s => tag ++ " " ++ scalarText (indent + 2) s
def writeItems (indent : Nat) : List Value → String
  | [] => ""
  | [x] => "-" ++ write .item "" indent x
  | x :: xs => "-" ++ write .item "" indent x ++ newLine indent ++ writeItems indent xs
def writeEntry (indent : Nat) : Value × Value → String
  | (k, v) =>
    match simpleKey? k with
    | some key => key ++ ":" ++ write .key "" indent v
    | none =>
      "?" ++ write .sign "" indent k ++ newLine indent ++ ":" ++ write .sign "" indent v
def writeEntries (indent : Nat) : List (Value × Value) → String
  | [] => ""
  | [e] => writeEntry indent e
  | e :: es => writeEntry indent e ++ newLine indent ++ writeEntries indent es
end

mutual
/-- Whether the text that is written last keeps all its line feeds. -/
def endsOpen : Value → Bool
  | .string s => keepsBreaks s
  | .sequence xs => endsOpenItems xs
  | .mapping es => endsOpenEntries es
  | .tagged _ v => endsOpen v
  | _ => false
def endsOpenItems : List Value → Bool
  | [] => false
  | [x] => endsOpen x
  | _ :: xs => endsOpenItems xs
def endsOpenEntries : List (Value × Value) → Bool
  | [] => false
  | [(_, v)] => endsOpen v
  | _ :: es => endsOpenEntries es
end

/-- A mapping of one entry looks like a tag while its key is awaited, so its key can neither have
a tag nor be such a mapping itself. -/
def confuses : Value → Bool
  | .tagged _ _ => true
  | .mapping [_] => true
  | _ => false

mutual
def isWritable (bare : Bool) : Value → Bool
  | .sequence xs => areWritable xs
  | .mapping [(k, v)] => !(bare && confuses k) && isWritable true k && isWritable true v
  | .mapping es => entriesWritable es
  | .tagged _ v => isWritable false v
  | _ => true
def areWritable : List Value → Bool
  | [] => true
  | x :: xs => isWritable true x && areWritable xs
def entriesWritable : List (Value × Value) → Bool
  | [] => true
  | (k, v) :: es => isWritable true k && isWritable true v && entriesWritable es
end

inductive WriteError where
  | unbalanced
deriving Repr, DecidableEq

def WriteError.message : WriteError → String
  | unbalanced => "expected SCALAR, SEQUENCE-START, MAPPING-START, or ALIAS"

/-- A record as a document. If its last text keeps all line feeds, the end is marked. -/
def document (entries : List (Value × Value)) : Except WriteError String :=
  if entriesWritable entries then
    .ok (writeEntries 0 entries ++ "\n" ++
      (if endsOpenEntries entries then "...\n" else ""))
  else .error .unbalanced

end ProductTemplates.Yaml
