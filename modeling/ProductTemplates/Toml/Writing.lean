import ProductTemplates.Toml.Cursor

/-! Strings as they are written in TOML: the first form that needs no escapes, and else one with
escapes. -/
namespace ProductTemplates.Toml

/-- The length of the longest run of a character, given that of the run that has just begun. -/
def longestRun (c : Char) (current : Nat) : List Char → Nat
  | [] => current
  | d :: rest =>
    if d = c then longestRun c (current + 1) rest else max current (longestRun c 0 rest)

/-- A control character other than a tab or a line feed: it can only be written as an escape. -/
def needsEscape (c : Char) : Bool := !isPrintable c && c != '\n'

def hexDigit (n : Nat) : Char := if n < 10 then Char.ofNat (48 + n) else Char.ofNat (55 + n)

def escape (block : Bool) (c : Char) : List Char :=
  match c with
  | '\x08' => ['\\', 'b']
  | '\t' => ['\\', 't']
  | '\n' => if block then ['\n'] else ['\\', 'n']
  | '\x0c' => ['\\', 'f']
  | '\r' => ['\\', 'r']
  | '\\' => ['\\', '\\']
  | c =>
    if isPrintable c then [c]
    else ['\\', 'u', '0', '0', hexDigit (c.toNat / 16), hexDigit (c.toNat % 16)]

/-- The text inside double quotes, after `quotes` quotes of it that stand in a row. Of those at
most `kept` are written as they are. -/
def escapeAll (block : Bool) (kept quotes : Nat) : List Char → List Char
  | [] => []
  | c :: rest =>
    if c = '"' then
      if quotes < kept then c :: escapeAll block kept (quotes + 1) rest
      else '\\' :: '"' :: escapeAll block kept 0 rest
    else escape block c ++ escapeAll block kept 0 rest

/-- A string in one of the four forms. In one of several lines the text begins on a new line if it
has a line feed. -/
def form (double block : Bool) (cs : List Char) : List Char :=
  let quotes := List.replicate (if block then 3 else 1) (if double then '"' else '\'')
  let start := if block && cs.contains '\n' then ['\n'] else []
  let body := if double then escapeAll block (if block then 2 else 0) 0 cs else cs
  quotes ++ start ++ body ++ quotes

def writeChars (cs : List Char) : List Char :=
  let controls := cs.any needsEscape
  let breaks := cs.contains '\n'
  let single := longestRun '\'' 0 cs
  let double := longestRun '"' 0 cs
  let escapes := controls || cs.contains '\\'
  if !escapes && double = 0 && !breaks then form true false cs
  else if !controls && single = 0 && !breaks then form false false cs
  else if !escapes && double ≤ 2 then form true true cs
  else if !controls && single ≤ 2 then form false true cs
  else form true breaks cs

def writeString (s : String) : String := String.ofList (writeChars s.toList)

end ProductTemplates.Toml
