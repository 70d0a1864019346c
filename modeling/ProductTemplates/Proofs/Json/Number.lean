import Mathlib.Algebra.Group.Int.Defs
import Mathlib.Algebra.Group.Nat.Defs
import ProductTemplates.Json
import ProductTemplates.Json.Token
import ProductTemplates.Proofs.Decimal.Notation

/-! The token of a number as it is written. Every number is one token, whatever the text goes on
with: an integer of 64 bits comes back as it was, a float as what its digits are read as. -/
namespace ProductTemplates.Json

open Document Decimal

variable {cs rest : List Char} {t : Token} {power : Option Int} {part : Option (List Char)}

/-- What may stand behind a value: nothing, or a mark that ends it. -/
def Ends (cs : List Char) : Prop := ∀ c ∈ cs.head?, c = ',' ∨ c = ']' ∨ c = '}'

theorem ends_nil : Ends [] := by simp [Ends]

theorem ends_cons {c : Char} (mark : c = ',' ∨ c = ']' ∨ c = '}') (rest : List Char) :
    Ends (c :: rest) := by
  intro d isHead
  obtain rfl : c = d := by simpa using isHead
  exact mark

def atomToken : Option Atom → Token
  | some a => .scalar a
  | none => .refused

theorem span_digits (digits : ∀ c ∈ cs, c.isDigit = true)
    (stops : ∀ c ∈ rest.head?, c.isDigit = false) :
    (cs ++ rest).takeWhile Char.isDigit = cs ∧ (cs ++ rest).dropWhile Char.isDigit = rest := by
  rw [List.takeWhile_append_of_pos digits, List.dropWhile_append_of_pos digits]
  cases rest with
  | nil => simp
  | cons c more =>
    have other : ¬ c.isDigit = true := by simp [stops c rfl]
    rw [List.takeWhile_cons_of_neg other, List.dropWhile_cons_of_neg other, List.append_nil]
    exact ⟨rfl, rfl⟩

theorem Ends.not_digit (ends : Ends rest) : ∀ c ∈ rest.head?, c.isDigit = false := by
  intro c isHead
  rcases ends c isHead with rfl | rfl | rfl <;> decide

theorem power?_integerText (n : Int) (ends : Ends rest) :
    Token.power? ((integerText n).toList ++ rest) = some (n, rest) := by
  obtain ⟨taken, left⟩ := span_digits (isDigits_toDigits n.natAbs).2 ends.not_digit
  rw [integerText_eq, Numeral.text_ofNat, List.append_assoc]
  by_cases negative : n < 0
  · have value : -(n.natAbs : Int) = n := by omega
    rw [if_pos (by simpa using negative), List.singleton_append, Token.power?]
    simp only [taken, left, natural?_toDigits, Option.pure_def, Option.bind_eq_bind, Option.bind_some,
      Option.map_some, if_true, value]
  · have value : (n.natAbs : Int) = n := by omega
    obtain ⟨c, more, letters, digit⟩ := (Numeral.ofNat n.natAbs).exists_digit rest
    rw [Numeral.text_ofNat] at letters
    rw [if_neg (by simpa using negative), List.nil_append, Token.power?]
    · simp [taken, left, natural?_toDigits, value]
    all_goals
      intro behind same
      obtain ⟨rfl, -⟩ := List.cons.inj (letters.symm.trans same)
      exact absurd digit (by decide)

theorem exponent?_eq (power : Option Int) (ends : Ends rest) :
    Token.exponent? ((power.elim [] fun p => 'e' :: (integerText p).toList) ++ rest) =
      some (power, rest) := by
  cases power with
  | some p =>
    rw [Option.elim_some, List.cons_append, Token.exponent?, power?_integerText p ends]
    rfl
  | none =>
    rw [Option.elim_none, List.nil_append]
    unfold Token.exponent?
    split
    · next more => rcases ends 'e' rfl with same | same | same <;> contradiction
    · next more => rcases ends 'E' rfl with same | same | same <;> contradiction
    · rfl

theorem head_of_power (power : Option Int) (ends : Ends rest) :
    ∀ c ∈ ((power.elim [] fun p => 'e' :: (integerText p).toList) ++ rest).head?,
      c.isDigit = false ∧ c ≠ '.' := by
  intro c isHead
  cases power with
  | some p =>
    obtain rfl : 'e' = c := by simpa using isHead
    decide
  | none =>
    rcases ends c isHead with rfl | rfl | rfl <;> decide

theorem fraction?_eq (isDigits : ∀ ds ∈ part, IsDigits ds)
    (behind : ∀ c ∈ rest.head?, c.isDigit = false ∧ c ≠ '.') :
    Token.fraction? (part.elim [] ('.' :: ·) ++ rest) = some (part, rest) := by
  cases part with
  | some ds =>
    obtain ⟨nonempty, digits⟩ := isDigits ds rfl
    obtain ⟨taken, left⟩ := span_digits digits fun c isHead => (behind c isHead).1
    rw [Option.elim_some, List.cons_append, Token.fraction?, taken, left,
      if_neg (by simpa using nonempty)]
  | none =>
    rw [Option.elim_none, List.nil_append]
    unfold Token.fraction?
    split
    · next more => exact absurd rfl (behind '.' rfl).2
    · rfl

theorem number?_text (m : Numeral) (negative : Bool) (ends : Ends rest) :
    Token.number? negative (m.text ++ rest) =
      some (atomToken (Token.Written.mk negative m.whole m.part m.power).atom?, rest) := by
  have behind := head_of_power m.power ends
  have first : ∀ c ∈ (m.part.elim [] ('.' :: ·) ++ ((m.power.elim [] fun p =>
      'e' :: (integerText p).toList) ++ rest)).head?, c.isDigit = false := by
    intro c isHead
    cases point : m.part with
    | some ds =>
      obtain rfl : '.' = c := by simpa [point] using isHead
      decide
    | none => exact (behind c (by simpa [point] using isHead)).1
  obtain ⟨taken, left⟩ := span_digits m.isDigits.2 first
  rw [Numeral.text, List.append_assoc, List.append_assoc, Token.number?, taken, left]
  dsimp only
  split
  · next empty => exact absurd empty m.isDigits.1
  · next padded => simpa [padded] using m.unpadded (by rw [padded]; rfl)
  · rw [fraction?_eq m.part_isDigits behind, Option.bind_eq_bind, Option.bind_some]
    dsimp only
    rw [exponent?_eq m.power ends]
    rfl

/-- A numeral is one token, whatever it stands for. -/
theorem next?_text (m : Numeral) (negative : Bool) (ends : Ends rest) :
    Token.next? ((if negative then ['-'] else []) ++ m.text ++ rest) =
      some (atomToken (Token.Written.mk negative m.whole m.part m.power).atom?, rest) := by
  rw [List.append_assoc]
  cases negative with
  | true => exact number?_text m true ends
  | false =>
    rw [← number?_text m false ends]
    obtain ⟨c, more, letters, digit⟩ := m.exists_digit rest
    rw [if_neg (by decide), List.nil_append, letters, Token.next?.eq_def]
    split
    all_goals first
      | rfl
      | (next same =>
          obtain ⟨rfl, -⟩ := List.cons.inj same
          exact absurd digit (by decide))

/-- What a number is read as once it is written; none if that is no number any more. -/
def numberAtom? (n : Number) : Option Atom :=
  match Token.next? (numberText n) with
  | some (.scalar a, _) => some a
  | _ => none

theorem exists_next?_numberText (n : Number) : ∃ outcome : Option Atom, ∀ rest, Ends rest →
    Token.next? (numberText n ++ rest) = some (atomToken outcome, rest) := by
  cases n with
  | integer n =>
    rw [numberText, integerText_eq]
    exact ⟨_, fun rest ends => next?_text (Numeral.ofNat n.natAbs) (decide (n < 0)) ends⟩
  | float x =>
    rw [numberText]
    split
    · obtain ⟨negative, m, letters⟩ := exists_numeral_of_finiteText x
      rw [letters]
      exact ⟨_, fun rest ends => next?_text m negative ends⟩
    · exact ⟨some .null, fun rest _ => rfl⟩

theorem next?_numberText (n : Number) (ends : Ends rest) :
    Token.next? (numberText n ++ rest) = some (atomToken (numberAtom? n), rest) := by
  obtain ⟨outcome, token⟩ := exists_next?_numberText n
  have alone : numberAtom? n = outcome := by
    have whole := token [] ends_nil
    rw [List.append_nil] at whole
    rw [numberAtom?, whole]
    cases outcome <;> rfl
  rw [token rest ends, alone]

theorem le_ofDigitChars (cs : List Char) (n : Nat) : n ≤ Nat.ofDigitChars 10 cs n := by
  induction cs generalizing n with
  | nil => simp
  | cons c rest ih =>
    rw [Nat.ofDigitChars_cons]
    have := ih (10 * n + (c.toNat - '0'.toNat))
    omega

theorem keepDigits_eq {n : Nat} (fits : Nat.ofDigitChars 10 cs n < 2 ^ 64) :
    Token.keepDigits n cs = (Nat.ofDigitChars 10 cs n, 0) := by
  induction cs generalizing n with
  | nil => simp [Token.keepDigits]
  | cons c rest ih =>
    rw [Nat.ofDigitChars_cons] at fits ⊢
    have small := Nat.lt_of_le_of_lt (le_ofDigitChars rest _) fits
    rw [Nat.mul_comm] at fits small ⊢
    rw [Token.keepDigits]
    simp only [Nat.pow_eq]
    rw [if_pos small, ih fits]

theorem keepDigits_toDigits {n : Nat} (fits : n < 2 ^ 64) :
    Token.keepDigits 0 (Nat.toDigits 10 n) = (n, 0) := by
  have value : Nat.ofDigitChars 10 (Nat.toDigits 10 n) 0 = n := Nat.ofDigitChars_ten_toDigits
  rw [keepDigits_eq (by rwa [value]), value]

/-- An integer of 64 bits is read as itself. -/
theorem numberAtom?_integer {n : Int} (low : -2 ^ 63 ≤ n) (high : n < 2 ^ 64) :
    numberAtom? (.integer n) = some (.number (.integer n)) := by
  have token := next?_text (Numeral.ofNat n.natAbs) (decide (n < 0)) ends_nil
  have kept : Token.keepDigits 0 (Numeral.ofNat n.natAbs).whole = (n.natAbs, 0) :=
    keepDigits_toDigits (by omega)
  have value : (Token.Written.mk (decide (n < 0)) (Numeral.ofNat n.natAbs).whole none none).atom? =
      some (.number (.integer n)) := by
    simp only [Token.Written.atom?, kept, true_and, Bool.not_eq_true', decide_eq_false_iff_not]
    by_cases negative : n < 0
    · have own : -(n.natAbs : Int) = n := by omega
      have inside : 0 < n.natAbs ∧ n.natAbs ≤ Nat.pow 2 63 := by
        simp only [Nat.pow_eq]
        omega
      rw [if_neg (not_not_intro negative), if_pos inside, own]
    · have own : (n.natAbs : Int) = n := by omega
      rw [if_pos negative, own]
  rw [List.append_nil] at token
  rw [show (Numeral.ofNat n.natAbs).part = none from rfl,
    show (Numeral.ofNat n.natAbs).power = none from rfl, value] at token
  rw [numberAtom?, numberText, integerText_eq, token]
  rfl

end ProductTemplates.Json
