/-! A place in a YAML text, with the line and column that indentation is measured by, and the
classes of characters that the grammar tells apart. -/
namespace ProductTemplates.Yaml

def isBreak (c : Char) : Bool :=
  c == '\n' || c == '\r' || c == '\x85' || c == '\u2028' || c == '\u2029'

def isGap (c : Char) : Bool := c == ' ' || c == '\t'

def isWordCharacter (c : Char) : Bool := c.isAlphanum || c == '_' || c == '-'

def isAllowed (c : Char) : Bool :=
  let n := c.toNat
  n == 0x09 || n == 0x0A || n == 0x0D || (0x20 ≤ n && n ≤ 0x7E) || n == 0x85 ||
    (0xA0 ≤ n && n ≤ 0xD7FF) || (0xE000 ≤ n && n ≤ 0xFFFD) || 0x10000 ≤ n

structure Cursor where
  rest : List Char
  index : Nat := 0
  line : Nat := 0
  column : Nat := 0
deriving Repr, Inhabited

namespace Cursor

def atEnd (p : Cursor) : Bool := p.rest.isEmpty

def char? (p : Cursor) (k : Nat) : Option Char := p.rest[k]?

def holds (p : Cursor) (k : Nat) (test : Char → Bool) : Bool := (p.char? k).any test

def gapAt (p : Cursor) (k : Nat) : Bool := (p.char? k).all fun c => isGap c || isBreak c

def lineEnds (p : Cursor) : Bool := (p.char? 0).all isBreak

def advance (p : Cursor) (k : Nat) : Cursor :=
  { p with rest := p.rest.drop k, index := p.index + k, column := p.column + k }

/-- Past all following characters of a kind that holds no line break. -/
def skipWhile (p : Cursor) (test : Char → Bool) : Cursor :=
  p.advance (p.rest.takeWhile test).length

/-- To the start of the next line, if this one ends here, and what its break stands for. -/
def takeBreak (p : Cursor) : List Char × Cursor :=
  let next (k : Nat) : Cursor :=
    { rest := p.rest.drop k, index := p.index + k, line := p.line + 1, column := 0 }
  match p.rest with
  | '\r' :: '\n' :: _ => (['\n'], next 2)
  | c :: _ =>
    if c == '\u2028' || c == '\u2029' then ([c], next 1)
    else if isBreak c then (['\n'], next 1)
    else ([], p)
  | [] => ([], p)

def skipBreak (p : Cursor) : Cursor := p.takeBreak.2

/-- Three dashes or three dots alone at the start of a line. -/
def documentMark (p : Cursor) (mark : Char) : Bool :=
  p.column == 0 && p.holds 0 (· == mark) && p.holds 1 (· == mark) && p.holds 2 (· == mark) &&
    p.gapAt 3

def anyDocumentMark (p : Cursor) : Bool := p.documentMark '-' || p.documentMark '.'

theorem length_advance (p : Cursor) (k : Nat) :
    (p.advance k).rest.length = p.rest.length - k := by simp [advance]

theorem length_skipWhile_le (p : Cursor) (test : Char → Bool) :
    (p.skipWhile test).rest.length ≤ p.rest.length := by
  simp [skipWhile, length_advance]

theorem length_takeBreak_le (p : Cursor) : p.takeBreak.2.rest.length ≤ p.rest.length := by
  unfold takeBreak
  split
  · simp
  · split
    · simp
    · split <;> simp
  · simp

theorem length_takeBreak_lt (p : Cursor) (h : p.holds 0 isBreak = true) :
    p.takeBreak.2.rest.length < p.rest.length := by
  unfold takeBreak
  split
  · next found => simp only [found, List.length_drop, List.length_cons]; omega
  · next c tail _ found =>
    have here : isBreak c = true := by simpa [holds, char?, found] using h
    split
    · simp [found]
    · simp [found]
  · next found => simp [holds, char?, found] at h

end Cursor
end ProductTemplates.Yaml
