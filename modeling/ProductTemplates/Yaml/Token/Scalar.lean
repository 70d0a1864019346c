import ProductTemplates.Yaml.Cursor

/-! Scalars as they stand in a YAML text: plain, quoted and in blocks. Lines are folded: a single
line break becomes a space, and of several the first is dropped. -/
namespace ProductTemplates.Yaml

structure Gap where
  /-- Blanks on the line of the first word. -/
  blanks : List Char := []
  /-- The first line break, unless it was escaped. -/
  first : List Char := []
  later : List Char := []
  broken : Bool := false
deriving Repr, Inhabited

/-- What a gap contributes to the text. -/
def Gap.text (g : Gap) : List Char :=
  if !g.broken then g.blanks
  else if g.first = ['\n'] then (if g.later.isEmpty then [' '] else g.later)
  else g.first ++ g.later

/-- Takes blanks and breaks. Where indentation counts, a tab in front of column `indent` of a
later line is a fault. -/
def takeGap (indent : Int) (p : Cursor) (g : Gap) : Option (Gap × Cursor) :=
  match _found : p.rest with
  | [] => some (g, p)
  | c :: _ =>
    if _gap : isGap c then
      if g.broken then
        if (p.column : Int) < indent ∧ c = '\t' then none else takeGap indent (p.advance 1) g
      else takeGap indent (p.advance 1) { g with blanks := g.blanks ++ [c] }
    else if _break : isBreak c then
      if g.broken then takeGap indent p.takeBreak.2 { g with later := g.later ++ p.takeBreak.1 }
      else takeGap indent p.takeBreak.2 { g with blanks := [], first := p.takeBreak.1, broken := true }
    else some (g, p)
termination_by p.rest.length
decreasing_by
  · simp [Cursor.length_advance, _found]
  · simp [Cursor.length_advance, _found]
  · exact Cursor.length_takeBreak_lt p (by simp [Cursor.holds, Cursor.char?, _found, _break])
  · exact Cursor.length_takeBreak_lt p (by simp [Cursor.holds, Cursor.char?, _found, _break])

theorem length_takeGap_le {indent : Int} {p q : Cursor} {g h : Gap}
    (taken : takeGap indent p g = some (h, q)) : q.rest.length ≤ p.rest.length := by
  fun_induction takeGap indent p g with
  | case1 => simp_all
  | case2 => simp_all
  | case3 p g c tail found gap broken ok ih =>
    have := ih taken; simp only [Cursor.length_advance] at this; omega
  | case4 p g c tail found gap broken ih =>
    have := ih taken; simp only [Cursor.length_advance] at this; omega
  | case5 p g c tail found gap brk broken ih =>
    have := ih taken
    have := Cursor.length_takeBreak_le p; omega
  | case6 p g c tail found gap brk broken ih =>
    have := ih taken
    have := Cursor.length_takeBreak_le p; omega
  | case7 => simp_all

theorem length_takeGap_lt {indent : Int} {p q : Cursor} {g h : Gap} {c : Char} {tail : List Char}
    (found : p.rest = c :: tail) (kind : (isGap c || isBreak c) = true)
    (taken : takeGap indent p g = some (h, q)) : q.rest.length < p.rest.length := by
  have here : p.holds 0 isBreak = isBreak c := by simp [Cursor.holds, Cursor.char?, found]
  rw [takeGap] at taken
  split at taken
  · next none => simp [found] at none
  · next d _ same =>
    obtain ⟨rfl, -⟩ := List.cons.inj (found.symm.trans same)
    have shorter : (p.advance 1).rest.length < p.rest.length := by
      simp [Cursor.length_advance, found]
    split at taken
    · split at taken
      · split at taken
        · simp at taken
        · exact Nat.lt_of_le_of_lt (length_takeGap_le taken) shorter
      · exact Nat.lt_of_le_of_lt (length_takeGap_le taken) shorter
    · next gap =>
      have brk : isBreak c = true := by simpa [gap] using kind
      rw [dif_pos brk] at taken
      have shorter := Cursor.length_takeBreak_lt p (here.trans brk)
      split at taken <;> exact Nat.lt_of_le_of_lt (length_takeGap_le taken) shorter

def isFlowIndicator (c : Char) : Bool :=
  c == ',' || c == '[' || c == ']' || c == '{' || c == '}'

/-- A scalar that was read: its text, the place after it, and whether lines were broken there. -/
structure Scanned where
  text : List Char
  after : Cursor
  broken : Bool := false
deriving Repr, Inhabited

/-- A plain scalar. It ends before a comment, a mark of the document, a colon that a blank
follows, an indicator of a flow collection around it, or a line that is not indented enough. -/
def plain (inFlow : Bool) (indent : Int) (p : Cursor) (text : List Char) (g : Gap) :
    Option Scanned :=
  match _found : p.rest with
  | [] => some ⟨text, p, g.broken⟩
  | c :: _ =>
    if _blank : isGap c || isBreak c then
      match _taken : takeGap indent p g with
      | none => none
      | some (g, q) =>
        if (!inFlow && (q.column : Int) < indent) || q.anyDocumentMark || q.holds 0 (· == '#') then
          some ⟨text, q, g.broken⟩
        else plain inFlow indent q text g
    else if inFlow && c == ':' && p.holds 1 (fun d => isFlowIndicator d || d == '?') then none
    else if (c == ':' && p.gapAt 1) || (inFlow && isFlowIndicator c) then
      some ⟨text, p, g.broken⟩
    else plain inFlow indent (p.advance 1) (text ++ g.text ++ [c]) {}
termination_by p.rest.length
decreasing_by
  · exact length_takeGap_lt _found _blank _taken
  · simp [Cursor.length_advance, _found]

def escaped? (c : Char) : Option Char :=
  match c with
  | '0' => some '\x00'
  | 'a' => some '\x07'
  | 'b' => some '\x08'
  | 't' => some '\t'
  | '\t' => some '\t'
  | 'n' => some '\n'
  | 'v' => some '\x0b'
  | 'f' => some '\x0c'
  | 'r' => some '\r'
  | 'e' => some '\x1b'
  | ' ' => some ' '
  | '"' => some '"'
  | '/' => some '/'
  | '\\' => some '\\'
  | 'N' => some '\x85'
  | '_' => some '\xa0'
  | 'L' => some '\u2028'
  | 'P' => some '\u2029'
  | _ => none

def codeLength? (c : Char) : Option Nat :=
  match c with
  | 'x' => some 2
  | 'u' => some 4
  | 'U' => some 8
  | _ => none

def hexValue? (c : Char) : Option Nat :=
  if '0' ≤ c ∧ c ≤ '9' then some (c.toNat - '0'.toNat)
  else if 'a' ≤ c ∧ c ≤ 'f' then some (c.toNat - 'a'.toNat + 10)
  else if 'A' ≤ c ∧ c ≤ 'F' then some (c.toNat - 'A'.toNat + 10)
  else none

/-- The character with this code, given by exactly `count` hexadecimal digits. -/
def coded? (count : Nat) (digits : List Char) : Option Char :=
  if digits.length < count then none
  else do
    let n ← (digits.take count).foldlM (fun n c => (hexValue? c).map (n * 16 + ·)) 0
    if n < 0xD800 ∨ (0xDFFF < n ∧ n ≤ 0x10FFFF) then some (Char.ofNat n) else none

/-- A quoted scalar after its opening quote. In double quotes a backslash escapes. -/
def quoted (double : Bool) (p : Cursor) (text : List Char) : Option Scanned :=
  if p.anyDocumentMark then none
  else match _found : p.rest with
    | [] => none
    | c :: tail =>
      if _blank : isGap c || isBreak c then
        match _taken : takeGap 0 p {} with
        | none => none
        | some (g, q) => quoted double q (text ++ g.text)
      else if !double && c == '\'' then
        if tail.head? == some '\'' then quoted double (p.advance 2) (text ++ ['\''])
        else some ⟨text, p.advance 1, false⟩
      else if double && c == '"' then some ⟨text, p.advance 1, false⟩
      else if double && c == '\\' then
        match tail with
        | [] => none
        | d :: more =>
          if isBreak d then
            match _taken : takeGap 0 (p.advance 1).skipBreak { broken := true } with
            | none => none
            | some (g, q) => quoted double q (text ++ g.text)
          else match escaped? d, codeLength? d with
            | some e, _ => quoted double (p.advance 2) (text ++ [e])
            | none, some count =>
              match coded? count more with
              | some e => quoted double (p.advance (2 + count)) (text ++ [e])
              | none => none
            | none, none => none
      else quoted double (p.advance 1) (text ++ [c])
termination_by p.rest.length
decreasing_by
  · exact length_takeGap_lt _found _blank _taken
  · simp only [Cursor.length_advance, _found, List.length_cons]; omega
  · have := length_takeGap_le _taken
    have le := Cursor.length_takeBreak_le (p.advance 1)
    rw [Cursor.length_advance] at le
    simp only [Cursor.skipBreak] at this
    simp only [_found, List.length_cons] at le ⊢; omega
  · simp only [Cursor.length_advance, _found, List.length_cons]; omega
  · simp only [Cursor.length_advance, _found, List.length_cons]; omega
  · simp [Cursor.length_advance, _found]

/-- Past the indentation of a line: all its spaces while `indent` is unknown, that is zero. -/
def Cursor.skipIndent (p : Cursor) (indent : Nat) : Cursor :=
  if indent = 0 then p.skipWhile (· == ' ')
  else p.advance ((p.rest.take (indent - p.column)).takeWhile (· == ' ')).length

theorem Cursor.length_skipIndent_le (p : Cursor) (indent : Nat) :
    (p.skipIndent indent).rest.length ≤ p.rest.length := by
  unfold skipIndent
  split
  · exact length_skipWhile_le p _
  · simp [length_advance]

/-- Empty lines in front of a line of a block, with the indentation of the block, which is the
widest line's if it is unknown, and at least one more than that of `parent`. -/
def blockBreaks (parent : Int) (indent widest : Nat) (p : Cursor) (breaks : List Char) :
    Option (Nat × List Char × Cursor) :=
  let q := p.skipIndent indent
  let widest := max widest q.column
  if (indent = 0 ∨ q.column < indent) ∧ q.holds 0 (· == '\t') then none
  else if _break : q.holds 0 isBreak then
    blockBreaks parent indent widest q.takeBreak.2 (breaks ++ q.takeBreak.1)
  else
    some (if indent = 0 then max (max widest (parent + 1).toNat) 1 else indent, breaks, q)
termination_by p.rest.length
decreasing_by
  exact Nat.lt_of_lt_of_le (Cursor.length_takeBreak_lt _ _break) (p.length_skipIndent_le indent)

theorem length_blockBreaks_le {parent : Int} {indent widest n : Nat} {p q : Cursor}
    {breaks text : List Char} (h : blockBreaks parent indent widest p breaks = some (n, text, q)) :
    q.rest.length ≤ p.rest.length := by
  rw [blockBreaks] at h
  have le := p.length_skipIndent_le indent
  split at h
  · simp at h
  · split at h
    · next brk =>
      have lt := Cursor.length_takeBreak_lt _ brk
      have := length_blockBreaks_le h
      omega
    · simp only [Option.some.injEq, Prod.mk.injEq] at h
      rw [← h.2.2]; exact le
termination_by p.rest.length
decreasing_by omega

inductive Chomping where
  | strip
  | clip
  | keep
deriving Repr, DecidableEq

theorem length_skipLine_lt {p : Cursor} (h : ¬p.atEnd = true) :
    (p.skipWhile fun c => !isBreak c).takeBreak.2.rest.length < p.rest.length := by
  cases found : p.rest with
  | nil => simp [Cursor.atEnd, found] at h
  | cons c tail =>
    by_cases brk : isBreak c = true
    · have same : (p.skipWhile fun c => !isBreak c).rest = p.rest := by
        simp [Cursor.skipWhile, Cursor.advance, found, brk]
      have := Cursor.length_takeBreak_lt (p.skipWhile fun c => !isBreak c)
        (by simp [Cursor.holds, Cursor.char?, same, found, brk])
      rw [same, found] at this; exact this
    · have := Cursor.length_takeBreak_le (p.skipWhile fun c => !isBreak c)
      have : (p.skipWhile fun c => !isBreak c).rest.length < p.rest.length := by
        simp only [Cursor.skipWhile, Cursor.length_advance, found, List.takeWhile_cons, brk,
          Bool.not_false, if_true, List.length_cons]
        omega
      rw [found] at this; omega

/-- The lines of a block. `ended` is the break of the line before, `breaks` the empty lines after
it, and `indented` says whether that line began with a blank. -/
def blockLines (literal : Bool) (chomping : Chomping) (parent : Int) (indent : Nat) (p : Cursor)
    (text ended breaks : List Char) (indented : Bool) : Option Scanned :=
  if _line : p.column = indent ∧ ¬p.atEnd then
    let blank := p.holds 0 isGap
    let joint :=
      if !literal && ended == ['\n'] && !indented && !blank then
        (if breaks.isEmpty then [' '] else [])
      else ended
    let next := p.skipWhile (fun c => !isBreak c)
    match _taken : blockBreaks parent indent 0 next.takeBreak.2 [] with
    | none => none
    | some (_, later, q) =>
      blockLines literal chomping parent indent q
        (text ++ joint ++ breaks ++ p.rest.takeWhile fun c => !isBreak c) next.takeBreak.1 later blank
  else
    let tail := match chomping with
      | .strip => []
      | .clip => ended
      | .keep => ended ++ breaks
    some ⟨text ++ tail, p, false⟩
termination_by p.rest.length
decreasing_by exact Nat.lt_of_le_of_lt (length_blockBreaks_le _taken) (length_skipLine_lt _line.2)

def restOfLine? (p : Cursor) : Option Cursor :=
  let q := p.skipWhile isGap
  let q := if q.holds 0 (· == '#') then q.skipWhile (fun c => !isBreak c) else q
  if q.lineEnds then some q.skipBreak else none

/-- The signs after the mark of a block: chomping and an explicit indentation, in either order. -/
def blockHeader? (p : Cursor) : Option (Chomping × Nat × Cursor) :=
  let sign? (p : Cursor) : Option Chomping := match p.char? 0 with
    | some '+' => some .keep
    | some '-' => some .strip
    | _ => none
  let digit? (p : Cursor) : Option Nat := match p.char? 0 with
    | some c => if c.isDigit then some (c.toNat - '0'.toNat) else none
    | none => none
  let first := sign? p
  let p := if first.isSome then p.advance 1 else p
  let increment := digit? p
  let p := if increment.isSome then p.advance 1 else p
  let second := if first.isNone && increment.isSome then sign? p else none
  let p := if second.isSome then p.advance 1 else p
  if increment = some 0 then none
  else some ((first <|> second).getD .clip, increment.getD 0, p)

/-- A block scalar after its mark, inside a block of indentation `parent`. -/
def block (literal : Bool) (parent : Int) (p : Cursor) : Option Scanned := do
  let (chomping, increment, p) ← blockHeader? p
  let p ← restOfLine? p
  let indent := if increment = 0 then 0 else (max parent 0).toNat + increment
  let (indent, breaks, p) ← blockBreaks parent indent 0 p []
  blockLines literal chomping parent indent p [] [] breaks false

end ProductTemplates.Yaml
