/-! A place in a TOML text. All faults are told by the line on which they stand. -/
namespace ProductTemplates.Toml

structure Cursor where
  rest : List Char
  line : Nat := 1
deriving Repr, Inhabited

def isGap (c : Char) : Bool := c == ' ' || c == '\t'

/-- Characters that may stand in comments and strings: no controls but the tab. -/
def isPrintable (c : Char) : Bool := c == '\t' || (' ' ≤ c && c != '\x7f')

namespace Cursor

def advance (p : Cursor) (k : Nat) : Cursor := { p with rest := p.rest.drop k }

/-- Past all following characters of a kind that holds no line break. -/
def skipWhile (p : Cursor) (test : Char → Bool) : Cursor :=
  { p with rest := p.rest.dropWhile test }

def skipGaps (p : Cursor) : Cursor := p.skipWhile isGap

def takeBreak? (p : Cursor) : Option Cursor :=
  match p.rest with
  | '\n' :: rest => some ⟨rest, p.line + 1⟩
  | '\r' :: '\n' :: rest => some ⟨rest, p.line + 1⟩
  | _ => none

def skipComment (p : Cursor) : Cursor :=
  match p.rest with
  | '#' :: _ => p.skipWhile isPrintable
  | _ => p

theorem length_skipWhile_le (p : Cursor) (test : Char → Bool) :
    (p.skipWhile test).rest.length ≤ p.rest.length :=
  (List.dropWhile_sublist test).length_le

theorem length_skipComment_le (p : Cursor) : p.skipComment.rest.length ≤ p.rest.length := by
  unfold skipComment
  split
  · exact length_skipWhile_le p _
  · exact Nat.le_refl _

theorem length_takeBreak?_lt {p q : Cursor} (h : p.takeBreak? = some q) :
    q.rest.length < p.rest.length := by
  unfold takeBreak? at h
  grind

def skipBlank (p : Cursor) : Cursor :=
  let q := p.skipGaps.skipComment
  match _next : q.takeBreak? with
  | some r => r.skipBlank
  | none => q
termination_by p.rest.length
decreasing_by
  exact Nat.lt_of_lt_of_le (length_takeBreak?_lt _next)
    (Nat.le_trans (length_skipComment_le _) (length_skipWhile_le p _))

def endLine (p : Cursor) : Except Nat Cursor :=
  let q := p.skipGaps.skipComment
  match q.takeBreak? with
  | some r => .ok r
  | none => if q.rest.isEmpty then .ok q else .error q.line

end Cursor
end ProductTemplates.Toml
