import ProductTemplates.Decimal.Fraction
import ProductTemplates.Toml.Cursor

/-! Strings of TOML: between single or double quotes, and in one line or, with three quotes, in
several. Between double quotes a backslash escapes. -/
namespace ProductTemplates.Toml

def fault {α : Type} (p : Cursor) : Except Nat α := .error p.line

def quoteMark (double : Bool) : Char := if double then '"' else '\''

def isOrdinary (double : Bool) (c : Char) : Bool :=
  isPrintable c && c != quoteMark double && !(double && c == '\\')

def escaped? : Char → Option Char
  | 'b' => some '\x08'
  | 't' => some '\t'
  | 'n' => some '\n'
  | 'f' => some '\x0c'
  | 'r' => some '\r'
  | '"' => some '"'
  | '\\' => some '\\'
  | _ => none

def codePoint? (digits : List Char) : Option Char := do
  let n ← Decimal.natural? 16 digits
  if n.isValidChar then return Char.ofNat n else none

/-- What follows a backslash: the character that it stands for and the number of characters. -/
def escape? : List Char → Option (Char × Nat)
  | 'u' :: rest =>
    if rest.length < 4 then none else (codePoint? (rest.take 4)).map (·, 5)
  | 'U' :: rest =>
    if rest.length < 8 then none else (codePoint? (rest.take 8)).map (·, 9)
  | c :: _ => (escaped? c).map (·, 1)
  | [] => none

/-- The text up to the quote that ends the line's string, and the place behind it. A character
that cannot be escaped is taken before it is refused: if it ends the line, the next one is at
fault. -/
def lineText (double : Bool) (p : Cursor) : Except Nat (List Char × Cursor) :=
  match _found : p.rest with
  | [] => fault p
  | c :: rest =>
    if c = quoteMark double then .ok ([], p.advance 1)
    else if double ∧ c = '\\' then
      match escape? rest with
      | none => if rest.head? = some '\n' then .error (p.line + 1) else fault p
      | some (e, k) => do
        let (text, q) ← lineText double (p.advance (k + 1))
        return (e :: text, q)
    else if isOrdinary double c then do
      let (text, q) ← lineText double (p.advance 1)
      return (c :: text, q)
    else fault p
termination_by p.rest.length
decreasing_by all_goals (simp only [Cursor.advance, _found, List.length_drop, List.length_cons]; omega)

def Cursor.skipLines (p : Cursor) : Cursor :=
  match _next : p.skipGaps.takeBreak? with
  | some q => q.skipLines
  | none => p.skipGaps
termination_by p.rest.length
decreasing_by
  exact Nat.lt_of_lt_of_le (length_takeBreak?_lt _next) (length_skipWhile_le p _)

theorem Cursor.length_skipLines_le (p : Cursor) : p.skipLines.rest.length ≤ p.rest.length := by
  fun_induction skipLines p with
  | case1 p q next ih =>
    have := length_takeBreak?_lt next
    have : p.skipGaps.rest.length ≤ p.rest.length := length_skipWhile_le p _
    omega
  | case2 p => exact length_skipWhile_le p _

inductive Piece where
  | text (cs : List Char) (after : Cursor)
  | final (cs : List Char) (after : Cursor)
  | faulty

/-- What a backslash brings. At the end of a line it hides the break and the blanks behind it. -/
def escapePiece (p : Cursor) : Piece :=
  match (p.advance 1).skipGaps.takeBreak?, escape? (p.rest.drop 1) with
  | some q, _ => .text [] q.skipLines
  | none, some (e, k) => .text [e] (p.advance (k + 1))
  | none, none => .faulty

/-- What quotes bring: up to two of them belong to the text, also in front of the three that end
it. -/
def quotePiece (quote : Char) (count : Nat) (p : Cursor) : Piece :=
  if 3 ≤ count then
    let kept := min (count - 3) 2
    .final (List.replicate kept quote) (p.advance (kept + 3))
  else if count = p.rest.length then .faulty
  else .text (List.replicate count quote) (p.advance count)

def piece (double : Bool) (p : Cursor) : Piece :=
  match p.takeBreak? with
  | some q => .text ['\n'] q
  | none =>
    match p.rest with
    | [] => .faulty
    | c :: _ =>
      if c = quoteMark double then
        quotePiece c (p.rest.takeWhile (· == c)).length p
      else if double ∧ c = '\\' then escapePiece p
      else if isOrdinary double c then .text [c] (p.advance 1)
      else .faulty

theorem Cursor.length_advance_lt {p : Cursor} {k : Nat} (h : p.rest ≠ []) (pos : 0 < k) :
    (p.advance k).rest.length < p.rest.length := by
  have := List.length_pos_iff.mpr h
  simp [advance]
  omega

theorem length_escapePiece_lt {p q : Cursor} {cs : List Char} (nonempty : p.rest ≠ [])
    (h : escapePiece p = .text cs q) : q.rest.length < p.rest.length := by
  unfold escapePiece at h
  split at h
  · next r found =>
    simp only [Piece.text.injEq] at h
    obtain ⟨-, rfl⟩ := h
    have := Cursor.length_takeBreak?_lt found
    have := Cursor.length_skipLines_le r
    have : (p.advance 1).skipGaps.rest.length ≤ (p.advance 1).rest.length :=
      Cursor.length_skipWhile_le _ _
    have := Cursor.length_advance_lt nonempty Nat.zero_lt_one
    omega
  · simp only [Piece.text.injEq] at h
    obtain ⟨-, rfl⟩ := h
    exact Cursor.length_advance_lt nonempty (Nat.succ_pos _)
  · simp at h

theorem length_quotePiece_lt {quote : Char} {count : Nat} {p q : Cursor} {cs : List Char}
    (nonempty : p.rest ≠ []) (pos : 0 < count) (h : quotePiece quote count p = .text cs q) :
    q.rest.length < p.rest.length := by
  unfold quotePiece at h
  split at h
  · simp at h
  · split at h
    · simp at h
    · simp only [Piece.text.injEq] at h
      obtain ⟨-, rfl⟩ := h
      exact Cursor.length_advance_lt nonempty pos

theorem length_piece_lt {double : Bool} {p q : Cursor} {cs : List Char}
    (h : piece double p = .text cs q) : q.rest.length < p.rest.length := by
  unfold piece at h
  split at h
  · next found =>
    simp only [Piece.text.injEq] at h
    obtain ⟨-, rfl⟩ := h
    exact Cursor.length_takeBreak?_lt found
  · split at h
    · simp at h
    · next c rest found =>
      have nonempty : p.rest ≠ [] := by simp [found]
      split at h
      · exact length_quotePiece_lt nonempty (by simp [found]) h
      · split at h
        · exact length_escapePiece_lt nonempty h
        · split at h
          · simp only [Piece.text.injEq] at h
            obtain ⟨-, rfl⟩ := h
            exact Cursor.length_advance_lt nonempty Nat.zero_lt_one
          · simp at h

/-- The text of a string of several lines, after its opening quotes. -/
def blockText (double : Bool) (p : Cursor) : Except Nat (List Char × Cursor) :=
  match _next : piece double p with
  | .faulty => fault p
  | .final cs q => .ok (cs, q)
  | .text cs q => do
    let (text, after) ← blockText double q
    return (cs ++ text, after)
termination_by p.rest.length
decreasing_by exact length_piece_lt _next

/-- A string at its first quote. A break right behind three quotes is dropped. -/
def string (double : Bool) (p : Cursor) : Except Nat (String × Cursor) := do
  let quote := quoteMark double
  let (text, q) ←
    if p.rest.take 3 = [quote, quote, quote] then
      let start := p.advance 3
      blockText double (start.takeBreak?.getD start)
    else lineText double (p.advance 1)
  return (String.ofList text, q)

end ProductTemplates.Toml
