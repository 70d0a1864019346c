import ProductTemplates.Proofs.Toml.Number
import ProductTemplates.Toml.Reader

/-! Reading goes on in the text, and counts the lines that it passes: wherever a reader gets and
wherever it finds fault, the line is told by the line feeds in front of that place. -/
namespace ProductTemplates.Toml

variable {α β : Type} {start p q r : Cursor} {c : Char} {rest : List Char} {k : Nat}
  {double : Bool}

/-- Whether a place is reached by reading on. -/
def Ahead (start q : Cursor) : Prop :=
  ∃ passed, start.rest = passed ++ q.rest ∧ q.line = start.line + passed.count '\n'

def LineAhead (start : Cursor) (line : Nat) : Prop := ∃ q, Ahead start q ∧ q.line = line

namespace Ahead

theorem refl (start : Cursor) : Ahead start start := ⟨[], rfl, rfl⟩

theorem trans (first : Ahead start p) (second : Ahead p q) : Ahead start q := by
  obtain ⟨here, cut, line⟩ := first
  obtain ⟨there, cut', line'⟩ := second
  exact ⟨here ++ there, by rw [cut, cut', List.append_assoc],
    by rw [line', line, List.count_append, Nat.add_assoc]⟩

theorem lineAhead (ahead : Ahead start p) : LineAhead start p.line := ⟨p, ahead, rfl⟩

theorem onLine (ahead : Ahead start p) (same : OnLine p.rest rest) :
    Ahead start { p with rest } := by
  obtain ⟨passed, cut, clean⟩ := same
  exact ahead.trans ⟨passed, cut, by rw [List.count_eq_zero.2 clean, Nat.add_zero]⟩

theorem advance (ahead : Ahead start p) (clean : '\n' ∉ p.rest.take k) :
    Ahead start (p.advance k) := ahead.onLine ((OnLine.refl _).drop clean)

theorem step (ahead : Ahead start p) (found : p.rest = c :: rest) (other : c ≠ '\n') :
    Ahead start (p.advance 1) := ahead.advance (by simpa [found] using Ne.symm other)

theorem behind (ahead : Ahead start p) (found : p.rest = c :: rest) (other : c ≠ '\n') :
    Ahead start { p with rest } := by
  have next := ahead.step found other
  rwa [Cursor.advance, found] at next

theorem skipWhile {test : Char → Bool} (ahead : Ahead start p) (other : test '\n' = false) :
    Ahead start (p.skipWhile test) := ahead.onLine ((OnLine.refl _).dropWhile other)

theorem skipGaps (ahead : Ahead start p) : Ahead start p.skipGaps := ahead.skipWhile rfl

theorem skipComment (ahead : Ahead start p) : Ahead start p.skipComment := by
  unfold Cursor.skipComment
  split
  · exact ahead.skipWhile rfl
  · exact ahead

theorem takeBreak? (ahead : Ahead start p) (h : p.takeBreak? = some q) : Ahead start q := by
  unfold Cursor.takeBreak? at h
  split at h
  · next rest cut =>
    obtain rfl := Option.some.inj h
    exact ahead.trans ⟨['\n'], cut, rfl⟩
  · next rest cut =>
    obtain rfl := Option.some.inj h
    exact ahead.trans ⟨['\r', '\n'], cut, rfl⟩
  · contradiction

theorem skipBlank (ahead : Ahead start p) : Ahead start p.skipBlank := by
  fun_induction Cursor.skipBlank p with
  | case1 p q r next ih => exact ih (ahead.skipGaps.skipComment.takeBreak? next)
  | case2 p q next => exact ahead.skipGaps.skipComment

theorem skipLines (ahead : Ahead start p) : Ahead start p.skipLines := by
  fun_induction Cursor.skipLines p with
  | case1 p q next ih => exact ih (ahead.skipGaps.takeBreak? next)
  | case2 p next => exact ahead.skipGaps

end Ahead

/-- Whether an outcome is good, or a fault on a line ahead. -/
inductive Tells (start : Cursor) (good : α → Prop) : Except Nat α → Prop
  | ok {x : α} (found : good x) : Tells start good (.ok x)
  | error {line : Nat} (ahead : LineAhead start line) : Tells start good (.error line)

namespace Tells

variable {good : α → Prop} {good' : β → Prop} {x : Except Nat α} {f : α → Except Nat β}

theorem fault (ahead : Ahead start p) : Tells start good (fault p) := .error ahead.lineAhead

theorem bind (first : Tells start good x) (next : ∀ a, good a → Tells start good' (f a)) :
    Tells start good' (x >>= f) := by
  cases first with
  | ok found => exact next _ found
  | error ahead => exact .error ahead

theorem map {g : α → β} (first : Tells start good x) (next : ∀ a, good a → good' (g a)) :
    Tells start good' (x.map g) := by
  cases first with
  | ok found => exact .ok (next _ found)
  | error ahead => exact .error ahead

end Tells

theorem tells_endLine (ahead : Ahead start p) : Tells start (Ahead start) p.endLine := by
  have gone := ahead.skipGaps.skipComment
  unfold Cursor.endLine
  dsimp only
  split
  · next r next => exact .ok (gone.takeBreak? next)
  · split
    · exact .ok gone
    · exact .error gone.lineAhead

theorem feed_not_mem_codePoint? {digits : List Char} {e : Char} (h : codePoint? digits = some e) :
    '\n' ∉ digits := by
  obtain ⟨n, number, -⟩ := Option.bind_eq_some_iff.1 h
  exact feed_not_mem_of_natural? number

theorem feed_not_mem_escape? {e : Char} (h : escape? rest = some (e, k)) :
    '\n' ∉ rest.take k := by
  unfold escape? at h
  split at h
  · split at h
    · contradiction
    · obtain ⟨e', point, same⟩ := Option.map_eq_some_iff.1 h
      obtain ⟨rfl, rfl⟩ := Prod.mk.inj same
      simpa using feed_not_mem_codePoint? point
  · split at h
    · contradiction
    · obtain ⟨e', point, same⟩ := Option.map_eq_some_iff.1 h
      obtain ⟨rfl, rfl⟩ := Prod.mk.inj same
      simpa using feed_not_mem_codePoint? point
  · obtain ⟨e', point, same⟩ := Option.map_eq_some_iff.1 h
    obtain ⟨rfl, rfl⟩ := Prod.mk.inj same
    rw [List.take_succ_cons, List.take_zero, List.mem_singleton]
    rintro rfl
    contradiction
  · contradiction

theorem quoteMark_ne (double : Bool) : quoteMark double ≠ '\n' := by
  cases double <;> decide

theorem ne_of_isOrdinary (ordinary : isOrdinary double c = true) : c ≠ '\n' := by
  rintro rfl
  cases double <;> contradiction

theorem tells_lineText (ahead : Ahead start p) :
    Tells start (fun found => Ahead start found.2) (lineText double p) := by
  fun_induction lineText double p with
  | case1 p found => exact .fault ahead
  | case2 p rest found => exact .ok (ahead.step found (quoteMark_ne double))
  | case3 p c rest found quote slash unknown feed =>
    obtain ⟨more, rfl⟩ := List.head?_eq_some_iff.1 feed
    have gone := ahead.step found (by simp [slash.2])
    refine .error ⟨⟨more, p.line + 1⟩, gone.takeBreak? ?_, rfl⟩
    simp [Cursor.takeBreak?, Cursor.advance, found]
  | case4 p c rest found quote slash unknown other => exact .fault ahead
  | case5 p c rest found quote slash e k escape ih =>
    have clean : '\n' ∉ p.rest.take (k + 1) := by
      simpa [found, slash.2] using feed_not_mem_escape? escape
    exact (ih (ahead.advance clean)).bind fun _ gone => .ok gone
  | case6 p c rest found quote slash ordinary ih =>
    exact (ih (ahead.step found (ne_of_isOrdinary ordinary))).bind fun _ gone => .ok gone
  | case7 p c rest found quote slash strange => exact .fault ahead

/-- Whether a piece of a string, if it is none of a fault, ends at a place ahead. -/
def Piece.EndsAhead (start : Cursor) : Piece → Prop
  | text _ after => Ahead start after
  | final _ after => Ahead start after
  | faulty => True

theorem endsAhead_escapePiece (ahead : Ahead start p) (found : p.rest = '\\' :: rest) :
    (escapePiece p).EndsAhead start := by
  unfold escapePiece
  split
  · next q next => exact ((ahead.step found (by decide)).skipGaps.takeBreak? next).skipLines
  · next e k none escape =>
    have clean : '\n' ∉ p.rest.take (k + 1) := by
      simpa [found] using feed_not_mem_escape? escape
    exact ahead.advance clean
  · exact trivial

theorem feed_not_mem_take (test : Char → Bool) {cs : List Char} (other : test '\n' = false)
    (within : k ≤ (cs.takeWhile test).length) : '\n' ∉ cs.take k := by
  intro member
  rw [← List.takeWhile_append_dropWhile (p := test) (l := cs),
    List.take_append_of_le_length within] at member
  rw [List.mem_takeWhile_imp (List.mem_of_mem_take member)] at other
  contradiction

theorem endsAhead_quotePiece (ahead : Ahead start p) (other : c ≠ '\n') :
    (quotePiece c (p.rest.takeWhile (· == c)).length p).EndsAhead start := by
  have dark : ('\n' == c) = false := by simpa using Ne.symm other
  unfold quotePiece
  split
  · next three =>
    refine ahead.advance (feed_not_mem_take (· == c) dark ?_)
    omega
  · split
    · exact trivial
    · exact ahead.advance (feed_not_mem_take (· == c) dark (Nat.le_refl _))

theorem endsAhead_piece (ahead : Ahead start p) : (piece double p).EndsAhead start := by
  unfold piece
  split
  · next q next => exact ahead.takeBreak? next
  · split
    · exact trivial
    · next c rest found =>
      split
      · next quote => exact endsAhead_quotePiece ahead (quote ▸ quoteMark_ne double)
      · split
        · next slash => exact endsAhead_escapePiece ahead (slash.2 ▸ found)
        · split
          · next ordinary => exact ahead.step found (ne_of_isOrdinary ordinary)
          · exact trivial

theorem tells_blockText (ahead : Ahead start p) :
    Tells start (fun found => Ahead start found.2) (blockText double p) := by
  fun_induction blockText double p with
  | case1 p next => exact .fault ahead
  | case2 p cs q next =>
    have gone : (piece double p).EndsAhead start := endsAhead_piece ahead
    rw [next] at gone
    exact .ok gone
  | case3 p cs q next ih =>
    have gone : (piece double p).EndsAhead start := endsAhead_piece ahead
    rw [next] at gone
    exact (ih gone).bind fun _ there => .ok there

theorem tells_string (ahead : Ahead start p) (found : p.rest = quoteMark double :: rest) :
    Tells start (fun found => Ahead start found.2) (string double p) := by
  unfold string
  dsimp only
  split
  · next three =>
    have clean : '\n' ∉ p.rest.take 3 := by simpa [three] using Ne.symm (quoteMark_ne double)
    have inside := ahead.advance clean
    have text : Ahead start ((p.advance 3).takeBreak?.getD (p.advance 3)) := by
      cases next : (p.advance 3).takeBreak? with
      | none => exact inside
      | some q => exact inside.takeBreak? next
    refine (tells_blockText text).bind fun _ gone => ?_
    exact .ok gone
  · refine (tells_lineText (ahead.step found (quoteMark_ne double))).bind fun _ gone => ?_
    exact .ok gone

end ProductTemplates.Toml
