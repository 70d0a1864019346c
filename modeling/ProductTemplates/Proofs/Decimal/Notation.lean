import ProductTemplates.Decimal.Fraction
import ProductTemplates.Decimal.Notation

/-! The text of a number is a numeral: digits that no needless zero begins, and perhaps a point with
digits behind it and a power of ten. -/
namespace ProductTemplates.Decimal

variable {n : Nat} {k : Int} {d : Digits} {b : Binary} {cs : List Char}

/-- Whether there are digits and nothing else. -/
def IsDigits (cs : List Char) : Prop := cs ≠ [] ∧ ∀ c ∈ cs, c.isDigit = true

structure Numeral where
  whole : List Char
  part : Option (List Char) := none
  power : Option Int := none
  isDigits : IsDigits whole
  /-- A zero stands alone before the point. -/
  unpadded : whole.head? = some '0' → whole = ['0']
  part_isDigits : ∀ ds ∈ part, IsDigits ds

namespace Numeral

def text (m : Numeral) : List Char :=
  m.whole ++ m.part.elim [] ('.' :: ·) ++ m.power.elim [] fun p => 'e' :: (integerText p).toList

theorem exists_digit (m : Numeral) (rest : List Char) :
    ∃ c more, m.text ++ rest = c :: more ∧ c.isDigit = true := by
  obtain ⟨c, more, letters⟩ := List.exists_cons_of_ne_nil m.isDigits.1
  refine ⟨c, _, by rw [text, letters]; rfl, ?_⟩
  exact m.isDigits.2 c (by simp [letters])

end Numeral

theorem isDigits_toDigits (n : Nat) : IsDigits (Nat.toDigits 10 n) :=
  ⟨Nat.toDigits_ne_nil, fun _ member => Nat.isDigit_of_mem_toDigits (by decide) (by decide) member⟩

theorem head?_toDigits_ne_zero (positive : 0 < n) : (Nat.toDigits 10 n).head? ≠ some '0' := by
  induction n using Nat.strongRecOn with
  | ind n ih =>
    rw [Nat.toDigits_eq_if (by decide)]
    split
    · simp only [List.head?_cons, ne_eq, Option.some.injEq, Nat.digitChar_eq_zero]
      omega
    · have more := ih (n / 10) (by omega) (by omega)
      obtain ⟨c, front, letters⟩ := List.exists_cons_of_ne_nil (@Nat.toDigits_ne_nil (n / 10) 10)
      rw [letters] at more ⊢
      simpa using more

def Numeral.ofNat (n : Nat) : Numeral where
  whole := Nat.toDigits 10 n
  isDigits := isDigits_toDigits n
  unpadded padded := by
    rcases Nat.eq_zero_or_pos n with rfl | positive
    · exact Nat.toDigits_zero 10
    · exact absurd padded (head?_toDigits_ne_zero positive)
  part_isDigits := by simp

theorem Numeral.text_ofNat (n : Nat) : (ofNat n).text = Nat.toDigits 10 n := by
  simp [text, ofNat]

theorem digitValue?_of_isDigit {c : Char} (digit : c.isDigit = true) :
    digitValue? 10 c = some (c.toNat - '0'.toNat) := by
  have range : '0' ≤ c ∧ c ≤ '9' := by simpa [Char.isDigit, Char.le_def] using digit
  have low : c.toNat ≤ '9'.toNat := range.2
  have small : c.toNat - '0'.toNat < 10 := by
    have nine : '9'.toNat = 57 := rfl
    have zero : '0'.toNat = 48 := rfl
    omega
  simp only [digitValue?, if_pos range, if_pos small]

theorem natural?_of_isDigits (digits : IsDigits cs) :
    natural? 10 cs = some (Nat.ofDigitChars 10 cs 0) := by
  have fold (cs : List Char) (all : ∀ c ∈ cs, c.isDigit = true) (n : Nat) :
      cs.foldlM (fun n c => (digitValue? 10 c).map (n * 10 + ·)) n =
        some (Nat.ofDigitChars 10 cs n) := by
    induction cs generalizing n with
    | nil => simp
    | cons c rest ih =>
      rw [List.forall_mem_cons] at all
      rw [List.foldlM_cons, digitValue?_of_isDigit all.1, Nat.ofDigitChars_cons, Nat.mul_comm]
      exact ih all.2 _
  rw [natural?, if_neg (by simpa using digits.1)]
  exact fold cs digits.2 0

theorem natural?_toDigits (n : Nat) : natural? 10 (Nat.toDigits 10 n) = some n := by
  rw [natural?_of_isDigits (isDigits_toDigits n), Nat.ofDigitChars_ten_toDigits]

theorem integerText_eq (n : Int) : (integerText n).toList =
    (if decide (n < 0) then ['-'] else []) ++ (Numeral.ofNat n.natAbs).text := by
  rw [integerText, Numeral.text_ofNat]
  by_cases negative : n < 0
  · simp [negative, naturalText]
  · simp [negative, naturalText]

theorem not_accepts_zero (positive : 0 < b.significand) (k : Int) : b.accepts 0 k = false := by
  have low (less : Nat) (few : less ≤ 2) : ¬ (proportion (4 * b.significand - less)
      (b.exponent - 2) k).1 ≤ 0 := by
    have left : 0 < 4 * b.significand - less := by omega
    exact Nat.not_le.2
      (Nat.mul_pos (Nat.mul_pos left (Nat.pow_pos (by decide))) (Nat.pow_pos (by decide)))
  have both := low (if b.significand = Nat.pow 2 52 ∧ -1074 < b.exponent then 1 else 2)
    (by split <;> decide)
  simp only [Binary.accepts, Nat.zero_mul, both, false_and, decide_false, Nat.not_lt_zero]
  simp

theorem digits_pos_of_onGrid (positive : 0 < b.significand) (h : b.onGrid k = some d) :
    0 < d.digits := by
  have below {c : Nat} (accepted : b.accepts c k = true) : 0 < c := by
    rcases Nat.eq_zero_or_pos c with rfl | more
    · simp [not_accepts_zero positive] at accepted
    · exact more
  unfold Binary.onGrid at h
  dsimp only at h
  split at h
  · contradiction
  · next accepted _ =>
    obtain rfl := Option.some.inj h
    exact below accepted
  · obtain rfl := Option.some.inj h
    exact Nat.succ_pos _
  · next accepted _ =>
    split at h
    · obtain rfl := Option.some.inj h
      exact below accepted
    · obtain rfl := Option.some.inj h
      exact Nat.succ_pos _

theorem digits_pos_trim (positive : 0 < d.digits) (n : Nat) : 0 < (d.trim n).digits := by
  induction n generalizing d with
  | zero => exact positive
  | succ n ih =>
    rw [Digits.trim]
    split
    · next zeros =>
      apply ih
      simp only
      omega
    · exact positive

/-- Whether a zero has no zeros behind it. -/
def Digits.IsReduced (d : Digits) : Prop := d.digits = 0 → d.exponent = 0

theorem isReduced_shortest (positive : 0 < b.significand) : b.shortest.IsReduced := by
  unfold Binary.shortest
  dsimp only
  cases found : (List.range 17).findSome? fun n : Nat => b.onGrid (b.leadingPlace - (n : Int)) with
  | none =>
    intro _
    simp [Digits.trim]
  | some d =>
    obtain ⟨n, -, here⟩ := List.exists_of_findSome?_eq_some found
    have trimmed := digits_pos_trim (digits_pos_of_onGrid positive here) 18
    intro zero
    rw [Option.getD_some] at zero
    omega

theorem isDigit_of_mem_zeros : ∀ c ∈ List.replicate n '0', c.isDigit = true := by
  intro c member
  rw [List.eq_of_mem_replicate member]
  decide

theorem isDigits_append {more : List Char} (digits : IsDigits cs)
    (others : ∀ c ∈ more, c.isDigit = true) : IsDigits (cs ++ more) :=
  ⟨by simp [digits.1], List.forall_mem_append.2 ⟨digits.2, others⟩⟩

theorem eq_zero_of_padded (padded : (Nat.toDigits 10 n).head? = some '0') : n = 0 := by
  rcases Nat.eq_zero_or_pos n with zero | positive
  · exact zero
  · exact absurd padded (head?_toDigits_ne_zero positive)

theorem exists_numeral_of_positional (reduced : d.IsReduced) :
    ∃ m : Numeral, d.positional.toList = m.text := by
  have digits := isDigits_toDigits d.digits
  unfold Digits.positional
  dsimp only
  split
  · refine ⟨⟨Nat.toDigits 10 d.digits ++ List.replicate d.exponent.toNat '0', some ['0'], none,
      isDigits_append digits isDigit_of_mem_zeros, fun padded => ?_, ?_⟩, ?_⟩
    · obtain ⟨c, more, letters⟩ := List.exists_cons_of_ne_nil digits.1
      have zero := @eq_zero_of_padded d.digits (by simpa [letters] using padded)
      simp [zero, reduced zero]
    · simp [IsDigits]
    · simp [Numeral.text, zeros]
  · next fraction =>
    split
    · next inside =>
      have place : d.point = (Nat.toDigits 10 d.digits).length + d.exponent := rfl
      have few : d.point.toNat < (Nat.toDigits 10 d.digits).length := by omega
      have most : d.point.toNat ≠ 0 := by omega
      refine ⟨⟨(Nat.toDigits 10 d.digits).take d.point.toNat,
        some ((Nat.toDigits 10 d.digits).drop d.point.toNat), none, ⟨?_, fun c member => ?_⟩,
        fun padded => ?_, ?_⟩, ?_⟩
      · simp [most, digits.1]
      · exact digits.2 c (List.mem_of_mem_take member)
      · rw [List.head?_take, if_neg most] at padded
        have short := reduced (eq_zero_of_padded padded)
        omega
      · rintro ds ⟨⟩
        exact ⟨by simpa using few, fun c member => digits.2 c (List.mem_of_mem_drop member)⟩
      · simp [Numeral.text]
    · refine ⟨⟨['0'], some (List.replicate (-d.point).toNat '0' ++ Nat.toDigits 10 d.digits), none,
        by simp [IsDigits], fun _ => rfl, ?_⟩, ?_⟩
      · rintro ds ⟨⟩
        exact ⟨by simp [digits.1], List.forall_mem_append.2 ⟨isDigit_of_mem_zeros, digits.2⟩⟩
      · simp [Numeral.text, zeros]

theorem exists_numeral_of_text (reduced : d.IsReduced) : ∃ m : Numeral, d.text.toList = m.text := by
  have digits := isDigits_toDigits d.digits
  unfold Digits.text
  split
  · exact exists_numeral_of_positional reduced
  · dsimp only
    split
    · next only same =>
      rw [same] at digits
      refine ⟨⟨[only], none, some (d.point - 1), digits, fun padded => ?_, by simp⟩, ?_⟩
      · simpa using padded
      · simp [Numeral.text]
    · next first rest other same =>
      rw [same] at digits
      have front : first.isDigit = true := digits.2 _ List.mem_cons_self
      refine ⟨⟨[first], some rest, some (d.point - 1), ⟨by simp, by simpa using front⟩,
        fun padded => ?_, ?_⟩, ?_⟩
      · simpa using padded
      · rintro ds ⟨⟩
        refine ⟨fun empty => ?_, fun c member => digits.2 c (List.mem_cons_of_mem _ member)⟩
        exact other empty
      · simp [Numeral.text]
    · next same => exact absurd same digits.1

/-- A finite number is written as a numeral, perhaps behind a sign. -/
theorem exists_numeral_of_finiteText (x : Float) : ∃ (negative : Bool) (m : Numeral),
    (finiteText x).toList = (if negative then ['-'] else []) ++ m.text := by
  have magnitude : ∃ m : Numeral, (if (Binary.ofBits x.toBits).significand = 0 then "0.0"
      else (Binary.ofBits x.toBits).shortest.text).toList = m.text := by
    split
    · exact ⟨⟨['0'], some ['0'], none, by simp [IsDigits], fun _ => rfl, by simp [IsDigits]⟩, rfl⟩
    · next positive =>
      exact exists_numeral_of_text (isReduced_shortest (Nat.pos_of_ne_zero positive))
  obtain ⟨m, same⟩ := magnitude
  refine ⟨!(x.toBits.toNat < Nat.pow 2 63), m, ?_⟩
  rw [finiteText, signedText, String.toList_append, same]
  by_cases positive : x.toBits.toNat < Nat.pow 2 63
  · simp [positive]
  · simp [positive]

end ProductTemplates.Decimal
