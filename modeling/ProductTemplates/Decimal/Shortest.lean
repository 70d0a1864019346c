/-! The fewest decimal digits that read back as a given binary64 number. Everything is exact
`Nat` arithmetic on the significand and the exponent: a decimal is acceptable when it lies in
the interval of reals that round to the number. -/
namespace ProductTemplates.Decimal

/-- A decimal `digits · 10 ^ exponent`. -/
structure Digits where
  digits : Nat
  exponent : Int
deriving Repr, DecidableEq

/-- A positive finite binary64 number, `significand · 2 ^ exponent`. -/
structure Binary where
  significand : Nat
  exponent : Int
deriving Repr, DecidableEq

def Binary.ofBits (bits : UInt64) : Binary :=
  let field : Nat := bits.toNat / Nat.pow 2 52 % Nat.pow 2 11
  let low : Nat := bits.toNat % Nat.pow 2 52
  if field = 0 then ⟨low, -1074⟩ else ⟨Nat.pow 2 52 + low, (field : Int) - 1075⟩

/-- Two integers in the proportion `a · 2 ^ e` to `10 ^ k`. -/
def proportion (a : Nat) (e k : Int) : Nat × Nat :=
  (a * Nat.pow 2 e.toNat * Nat.pow 10 (-k).toNat, Nat.pow 2 (-e).toNat * Nat.pow 10 k.toNat)

/-- Whether `c · 10 ^ k` rounds to `b`: the ends of the interval belong to it when the
significand is even, and below a power of two the interval is half as wide. -/
def Binary.accepts (b : Binary) (c : Nat) (k : Int) : Bool :=
  let q := b.exponent - 2
  let narrow := b.significand = Nat.pow 2 52 ∧ -1074 < b.exponent
  let low := proportion (4 * b.significand - if narrow then 1 else 2) q k
  let high := proportion (4 * b.significand + 2) q k
  if b.significand % 2 = 0 then low.1 ≤ c * low.2 ∧ c * high.2 ≤ high.1
  else low.1 < c * low.2 ∧ c * high.2 < high.1

/-- The acceptable one of the two grid points around the number on the grid of `10 ^ k`. Of two
the nearer is taken, and the even one of two equally near. -/
def Binary.onGrid (b : Binary) (k : Int) : Option Digits :=
  let (num, den) := proportion b.significand b.exponent k
  let below := num / den
  let twice := 2 * (num % den)
  match b.accepts below k, b.accepts (below + 1) k with
  | false, false => none
  | true, false => some ⟨below, k⟩
  | false, true => some ⟨below + 1, k⟩
  | true, true =>
    if twice < den ∨ twice = den ∧ below % 2 = 0 then some ⟨below, k⟩ else some ⟨below + 1, k⟩

def digitCount (n : Nat) : Nat := (Nat.toDigits 10 n).length

/-- The place of the first digit: the `p` with `10 ^ p ≤ b < 10 ^ (p + 1)`. -/
def Binary.leadingPlace (b : Binary) : Int :=
  let (num, den) := proportion b.significand b.exponent 0
  if den ≤ num then (digitCount (num / den) : Int) - 1
  else -(digitCount ((den - 1) / num) : Int)

def Digits.trim : Nat → Digits → Digits
  | 0, d => d
  | n + 1, d =>
    if d.digits % 10 = 0 ∧ d.digits ≠ 0 then trim n ⟨d.digits / 10, d.exponent + 1⟩ else d

/-- The shortest decimal that reads back as `b`; seventeen digits always do. -/
def Binary.shortest (b : Binary) : Digits :=
  let place := b.leadingPlace
  let found := (List.range 17).findSome? fun n : Nat => b.onGrid (place - (n : Int))
  (found.getD ⟨0, 0⟩).trim 18

end ProductTemplates.Decimal
