import ProductTemplates.Document.Scalar

/-! The tokens of a JSON text. Each lexer takes its token off the front and leaves a shorter rest;
the first character that begins no token ends the list with `faulty`. -/
namespace ProductTemplates.Json

open Document

/-- `refused` is a string or a number that is well-formed but stands for nothing. -/
inductive Token where
  | openObject
  | closeObject
  | openArray
  | closeArray
  | comma
  | colon
  | scalar (a : Atom)
  | refused
  | faulty
deriving Repr, DecidableEq

namespace Token

def isBlank (c : Char) : Bool := c == ' ' || c == '\t' || c == '\n' || c == '\r'

/-- Four hexadecimal digits. -/
def codeUnit? (a b c d : Char) : Option Nat := Decimal.natural? 16 [a, b, c, d]

def escaped? : Char → Option Char
  | '"' => some '"'
  | '\\' => some '\\'
  | '/' => some '/'
  | 'b' => some '\x08'
  | 'f' => some '\x0c'
  | 'n' => some '\n'
  | 'r' => some '\r'
  | 't' => some '\t'
  | _ => none

/-- The code points and escaped code units up to the closing quote, and what follows it. Control
characters must be escaped. -/
def stringUnits? : List Char → Option (List Nat × List Char)
  | '"' :: rest => some ([], rest)
  | '\\' :: 'u' :: a :: b :: c :: d :: rest => do
    let unit ← codeUnit? a b c d
    let (units, after) ← stringUnits? rest
    return (unit :: units, after)
  | '\\' :: e :: rest => do
    let c ← escaped? e
    let (units, after) ← stringUnits? rest
    return (c.toNat :: units, after)
  | c :: rest =>
    if c == '\\' || c.toNat < 0x20 then none
    else do
      let (units, after) ← stringUnits? rest
      return (c.toNat :: units, after)
  | [] => none

theorem length_of_stringUnits? {cs rest : List Char} {us : List Nat}
    (h : stringUnits? cs = some (us, rest)) : rest.length < cs.length := by
  fun_induction stringUnits? cs generalizing us rest with
  | case1 => simp_all
  | case2 a b c d r ih =>
    simp only [Option.bind_eq_bind, Option.bind_eq_some_iff, Option.pure_def, Option.some.injEq,
      Prod.mk.injEq, Prod.exists] at h
    obtain ⟨_, -, _, _, found, -, rfl⟩ := h
    have := ih found; simp only [List.length_cons]; omega
  | case3 e r _ ih =>
    simp only [Option.bind_eq_bind, Option.bind_eq_some_iff, Option.pure_def, Option.some.injEq,
      Prod.mk.injEq, Prod.exists] at h
    obtain ⟨_, -, _, _, found, -, rfl⟩ := h
    have := ih found; simp only [List.length_cons]; omega
  | case4 => simp at h
  | case5 c r =>
    rename_i ih
    simp only [Option.bind_eq_bind, Option.bind_eq_some_iff, Option.pure_def, Option.some.injEq,
      Prod.mk.injEq, Prod.exists] at h
    obtain ⟨_, _, found, -, rfl⟩ := h
    have := ih found; simp only [List.length_cons]; omega
  | case6 => simp at h

/-- Joins escaped surrogates; none if one is alone. -/
def characters? : List Nat → Option (List Char)
  | [] => some []
  | u :: rest =>
    if 0xD800 ≤ u ∧ u < 0xDC00 then
      match rest with
      | l :: rest =>
        if 0xDC00 ≤ l ∧ l < 0xE000 then
          (characters? rest).map (Char.ofNat (0x10000 + (u - 0xD800) * 0x400 + (l - 0xDC00)) :: ·)
        else none
      | [] => none
    else if 0xDC00 ≤ u ∧ u < 0xE000 then none
    else (characters? rest).map (Char.ofNat u :: ·)

def string? (cs : List Char) : Option (Token × List Char) :=
  (stringUnits? cs).map fun (units, rest) =>
    match characters? units with
    | some text => (scalar (.string (String.ofList text)), rest)
    | none => (refused, rest)

/-- A number as it is written: digits before and after the point, and a power of ten. -/
structure Written where
  negative : Bool
  whole : List Char
  part : Option (List Char)
  power : Option Int
deriving Repr, DecidableEq

/-- Digits are kept as long as the number they make has 64 bits; how many follow is counted. -/
def keepDigits (n : Nat) : List Char → Nat × Nat
  | [] => (n, 0)
  | c :: rest =>
    let next := n * 10 + (c.toNat - '0'.toNat)
    if next < Nat.pow 2 64 then keepDigits next rest else (n, rest.length + 1)

def powerOfTen (n : Nat) : Float := Float.ofScientific 1 false n

/-- Divides by `10 ^ n`, by at most `10 ^ 308` at a time. -/
def divideByPower (x : Float) (n : Nat) : Float :=
  if n ≤ 308 then x / powerOfTen n
  else if x == 0.0 then x
  else divideByPower (x / powerOfTen 308) (n - 308)
termination_by n

/-- The nearest float of the digits kept, multiplied or divided by the nearest float of a power of
ten; none if that is infinite. -/
def scaled? (digits : Nat) (power : Int) : Option Float :=
  let x := (UInt64.ofNat digits).toFloat
  if power < 0 then some (divideByPower x power.natAbs)
  else if power ≤ 308 then
    let y := x * powerOfTen power.natAbs
    if y.isInf then none else some y
  else if x == 0.0 then some x
  else none

namespace Written

def signed (w : Written) (x : Float) : Float := if w.negative then -x else x

/-- Integers of 64 bits are exact. A negative zero is a float. -/
def atom? (w : Written) : Option Atom :=
  let (kept, dropped) := keepDigits 0 w.whole
  match w.part, w.power with
  | none, none =>
    if dropped = 0 ∧ !w.negative then some (.number (.integer kept))
    else if dropped = 0 ∧ 0 < kept ∧ kept ≤ Nat.pow 2 63 then some (.number (.integer (-(kept : Int))))
    else (scaled? kept dropped).map fun x => .number (.float (w.signed x))
  | part, power =>
    let digits := part.getD []
    let (all, lost) := keepDigits kept digits
    let exponent : Int := dropped - (digits.length - lost : Nat) + power.getD 0
    (scaled? all exponent).map fun x => .number (.float (w.signed x))

end Written

def power? (cs : List Char) : Option (Int × List Char) :=
  let (negative, digits) := match cs with
    | '-' :: rest => (true, rest)
    | '+' :: rest => (false, rest)
    | _ => (false, cs)
  (Decimal.natural? 10 (digits.takeWhile Char.isDigit)).map fun n =>
    (if negative then -(n : Int) else n, digits.dropWhile Char.isDigit)

def fraction? (cs : List Char) : Option (Option (List Char) × List Char) :=
  match cs with
  | '.' :: rest =>
    if (rest.takeWhile Char.isDigit).isEmpty then none
    else some (some (rest.takeWhile Char.isDigit), rest.dropWhile Char.isDigit)
  | _ => some (none, cs)

def exponent? (cs : List Char) : Option (Option Int × List Char) :=
  match cs with
  | 'e' :: rest => (power? rest).map fun (n, after) => (some n, after)
  | 'E' :: rest => (power? rest).map fun (n, after) => (some n, after)
  | _ => some (none, cs)

/-- A number after its sign, if any. A zero stands alone before the point. -/
def number? (negative : Bool) (cs : List Char) : Option (Token × List Char) := do
  let whole := cs.takeWhile Char.isDigit
  match whole with
  | [] => none
  | '0' :: _ :: _ => none
  | _ =>
    let (part, rest) ← fraction? (cs.dropWhile Char.isDigit)
    let (power, rest) ← exponent? rest
    let token := match (Written.mk negative whole part power).atom? with
      | some a => scalar a
      | none => refused
    return (token, rest)

theorem length_dropWhile_le (p : Char → Bool) (cs : List Char) :
    (cs.dropWhile p).length ≤ cs.length :=
  (List.dropWhile_suffix p).length_le

theorem length_of_fraction? {cs rest : List Char} {part : Option (List Char)}
    (h : fraction? cs = some (part, rest)) : rest.length ≤ cs.length := by
  unfold fraction? at h
  split at h
  · next r =>
    split at h
    · simp at h
    · simp only [Option.some.injEq, Prod.mk.injEq] at h
      rw [← h.2]
      have := length_dropWhile_le Char.isDigit r
      simp only [List.length_cons]; omega
  · simp only [Option.some.injEq, Prod.mk.injEq] at h
    exact Nat.le_of_eq (congrArg List.length h.2.symm)

theorem length_of_power? {cs rest : List Char} {n : Int}
    (h : power? cs = some (n, rest)) : rest.length ≤ cs.length := by
  unfold power? at h
  obtain ⟨_, -, same⟩ := Option.map_eq_some_iff.1 h
  simp only [Prod.mk.injEq] at same
  rw [← same.2]
  refine Nat.le_trans (length_dropWhile_le _ _) ?_
  split <;> simp

theorem length_of_exponent? {cs rest : List Char} {n : Option Int}
    (h : exponent? cs = some (n, rest)) : rest.length ≤ cs.length := by
  unfold exponent? at h
  split at h
  · next r =>
    obtain ⟨⟨_, after⟩, found, same⟩ := Option.map_eq_some_iff.1 h
    simp only [Prod.mk.injEq] at same
    have := length_of_power? found
    rw [← same.2]; simp only [List.length_cons]; omega
  · next r =>
    obtain ⟨⟨_, after⟩, found, same⟩ := Option.map_eq_some_iff.1 h
    simp only [Prod.mk.injEq] at same
    have := length_of_power? found
    rw [← same.2]; simp only [List.length_cons]; omega
  · simp only [Option.some.injEq, Prod.mk.injEq] at h
    exact Nat.le_of_eq (congrArg List.length h.2.symm)

theorem length_of_number? {negative : Bool} {cs rest : List Char} {t : Token}
    (h : number? negative cs = some (t, rest)) : rest.length < cs.length := by
  have split := congrArg List.length
    (List.takeWhile_append_dropWhile (p := Char.isDigit) (l := cs))
  rw [List.length_append] at split
  simp only [number?] at h
  split at h
  · simp at h
  · simp at h
  · next nonempty _ =>
    have positive := List.length_pos_iff.2 nonempty
    simp only [Option.bind_eq_bind, Option.bind_eq_some_iff, Option.pure_def, Option.some.injEq,
      Prod.mk.injEq, Prod.exists] at h
    obtain ⟨_, _, first, _, _, second, -, rfl⟩ := h
    have := length_of_fraction? first
    have := length_of_exponent? second
    omega

def next? : List Char → Option (Token × List Char)
  | '{' :: rest => some (openObject, rest)
  | '}' :: rest => some (closeObject, rest)
  | '[' :: rest => some (openArray, rest)
  | ']' :: rest => some (closeArray, rest)
  | ',' :: rest => some (comma, rest)
  | ':' :: rest => some (colon, rest)
  | '"' :: rest => string? rest
  | '-' :: rest => number? true rest
  | 'n' :: 'u' :: 'l' :: 'l' :: rest => some (scalar .null, rest)
  | 't' :: 'r' :: 'u' :: 'e' :: rest => some (scalar (.bool true), rest)
  | 'f' :: 'a' :: 'l' :: 's' :: 'e' :: rest => some (scalar (.bool false), rest)
  | cs => number? false cs

theorem length_of_next? {cs rest : List Char} {t : Token}
    (h : next? cs = some (t, rest)) : rest.length < cs.length := by
  unfold next? at h
  split at h
  all_goals try (simp only [Option.some.injEq, Prod.mk.injEq] at h; rw [← h.2]; simp; done)
  · next r =>
    unfold string? at h
    obtain ⟨⟨us, after⟩, found, same⟩ := Option.map_eq_some_iff.1 h
    have := length_of_stringUnits? found
    simp only at same
    split at same <;> (simp only [Prod.mk.injEq] at same; rw [← same.2]; simp only [List.length_cons]; omega)
  · have := length_of_number? h; simp only [List.length_cons]; omega
  all_goals try (simp only [Option.some.injEq, Prod.mk.injEq] at h; rw [← h.2]; simp only [List.length_cons]; omega)
  · exact length_of_number? h

/-- All tokens of a text, up to the first fault. -/
def ofChars : List Char → List Token
  | [] => []
  | c :: rest =>
    if isBlank c then ofChars rest
    else match _h : next? (c :: rest) with
      | none => [faulty]
      | some (t, after) => t :: ofChars after
termination_by cs => cs.length
decreasing_by
  · simp
  · exact length_of_next? _h

end Token
end ProductTemplates.Json
