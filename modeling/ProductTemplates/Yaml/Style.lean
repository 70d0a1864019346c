import ProductTemplates.Document.Scalar
import ProductTemplates.Yaml.Cursor

/-! How a text is written as a scalar of YAML: plain if it stays the same text when it is read,
quoted if it must be, and as a literal block if it has several lines. -/
namespace ProductTemplates.Yaml

inductive Style where
  | plain
  | single
  | double
  | literal
deriving Repr, DecidableEq

def truthWords : List String := [
  "y", "Y", "yes", "Yes", "YES", "n", "N", "no", "No", "NO", "true", "True", "TRUE",
  "false", "False", "FALSE", "on", "On", "ON", "off", "Off", "OFF"]

/-- Whether plain text would not be read as itself, or looks like a number that it is not. -/
def isAmbiguous (s : String) : Bool :=
  truthWords.contains s || Document.Plain.atom? s != some (.string s) ||
    Document.Plain.isZeroPadded s.toList

def isSpecial (c : Char) : Bool :=
  let n := c.toNat
  !(n == 0x0A || (0x20 ≤ n && n ≤ 0x7E) || (0xA0 ≤ n && n ≤ 0xD7FF) ||
    (0xE000 ≤ n && n ≤ 0xFFFD && n != 0xFEFF))

def isBlank (c : Char) : Bool := isGap c || isBreak c || c == '\x00'

def beginsOther (cs : List Char) : Bool :=
  match cs with
  | '-' :: '-' :: '-' :: _ => true
  | '.' :: '.' :: '.' :: _ => true
  | c :: rest =>
    "#,[]{}&*!|>'\"%@`".toList.contains c ||
      ((c == '?' || c == ':' || c == '-') && rest.head?.all isBlank)
  | [] => false

def endsInside : List Char → Bool
  | a :: b :: rest =>
    (b == ':' && rest.head?.all isBlank) || (b == '#' && isBlank a) || endsInside (b :: rest)
  | _ => false

def hasPair (first second : Char → Bool) : List Char → Bool
  | a :: b :: rest => (first a && second b) || hasPair first second (b :: rest)
  | _ => false

def isSpace (c : Char) : Bool := c == ' '

def allowsSingle (cs : List Char) : Bool :=
  !cs.any isSpecial && !hasPair isSpace isBreak cs && !hasPair isBreak isSpace cs

def allowsPlain (cs : List Char) : Bool :=
  allowsSingle cs && !cs.any isBreak && !cs.head?.any isSpace && !cs.getLast?.any isSpace &&
    !beginsOther cs && !endsInside cs

def allowsLiteral (cs : List Char) : Bool :=
  !cs.any isSpecial && !hasPair isSpace isBreak cs && !cs.getLast?.any isSpace

def styleOf (s : String) : Style :=
  let cs := s.toList
  if cs.contains '\n' then
    if allowsLiteral cs then .literal else .double
  else if !isAmbiguous s && allowsPlain cs then .plain
  else if allowsSingle cs then .single
  else .double

def spaces (n : Nat) : List Char := List.replicate n ' '

def indentLines (indent : Nat) (begun : Bool) : List Char → List Char
  | [] => []
  | c :: rest =>
    if isBreak c then c :: indentLines indent true rest
    else (if begun then spaces indent else []) ++ c :: indentLines indent false rest

def hexDigits (width n : Nat) : List Char :=
  let digits := (Nat.toDigits 16 n).map Char.toUpper
  List.replicate (width - digits.length) '0' ++ digits

def escapeCode (c : Char) : List Char :=
  let n := c.toNat
  match n with
  | 0x00 => ['0']
  | 0x07 => ['a']
  | 0x08 => ['b']
  | 0x09 => ['t']
  | 0x0A => ['n']
  | 0x0B => ['v']
  | 0x0C => ['f']
  | 0x0D => ['r']
  | 0x1B => ['e']
  | 0x22 => ['"']
  | 0x5C => ['\\']
  | 0x85 => ['N']
  | 0x2028 => ['L']
  | 0x2029 => ['P']
  | _ =>
    if n ≤ 0xFF then 'x' :: hexDigits 2 n
    else if n ≤ 0xFFFF then 'u' :: hexDigits 4 n
    else 'U' :: hexDigits 8 n

def escape (c : Char) : List Char :=
  if isSpecial c || isBreak c || c == '"' || c == '\\' then '\\' :: escapeCode c else [c]

/-- What stands behind the bar of a literal block: the indentation if the text does not show it,
and how many line feeds at the end count. -/
def literalHint (cs : List Char) : List Char :=
  let indented := if cs.head?.any fun c => isSpace c || isBreak c then ['2'] else []
  let final := match cs.reverse with
    | last :: before =>
      if !isBreak last then ['-'] else if before.head?.all isBreak then ['+'] else []
    | [] => ['-']
  indented ++ final

/-- Whether all line feeds at the end of a text are written. -/
def keepsBreaks (s : String) : Bool := styleOf s == .literal && (literalHint s.toList).contains '+'

/-- A scalar whose further lines are indented. The line feed at the end of a block is left to what
follows. -/
def scalarChars (indent : Nat) (s : String) : List Char :=
  let cs := s.toList
  match styleOf s with
  | .plain => cs
  | .single =>
    let doubled := cs.flatMap fun c => if c == '\'' then ['\'', '\''] else [c]
    let closing := if cs.getLast?.any isBreak then spaces indent else []
    '\'' :: indentLines indent false doubled ++ closing ++ ['\'']
  | .double => '"' :: cs.flatMap escape ++ ['"']
  | .literal =>
    let body := indentLines indent true cs
    '|' :: literalHint cs ++ '\n' :: (if body.getLast? = some '\n' then body.dropLast else body)

def scalarText (indent : Nat) (s : String) : String := String.ofList (scalarChars indent s)

end ProductTemplates.Yaml
