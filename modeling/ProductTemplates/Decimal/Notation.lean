import ProductTemplates.Decimal.Shortest

/-! How a binary64 number is written: positional between `1e-5` and `1e16`, where a whole number
keeps `.0`, and with an exponent outside. Messages write every number positionally. -/
namespace ProductTemplates.Decimal

def naturalText (n : Nat) : String := String.ofList (Nat.toDigits 10 n)

def integerText (n : Int) : String :=
  if n < 0 then "-" ++ naturalText n.natAbs else naturalText n.natAbs

def zeros (n : Nat) : String := String.ofList (List.replicate n '0')

def Digits.point (d : Digits) : Int := (Nat.toDigits 10 d.digits).length + d.exponent

def Digits.positional (d : Digits) : String :=
  let ds := Nat.toDigits 10 d.digits
  let whole := String.ofList ds
  if 0 ≤ d.exponent then whole ++ zeros d.exponent.toNat ++ ".0"
  else if 0 < d.point then
    String.ofList (ds.take d.point.toNat) ++ "." ++ String.ofList (ds.drop d.point.toNat)
  else "0." ++ zeros (-d.point).toNat ++ whole

def Digits.text (d : Digits) : String :=
  if -5 < d.point ∧ d.point ≤ 16 then d.positional
  else
    let ds := Nat.toDigits 10 d.digits
    let mantissa := match ds with
      | [only] => String.ofList [only]
      | first :: rest => String.ofList (first :: '.' :: rest)
      | [] => ""
    mantissa ++ "e" ++ integerText (d.point - 1)

def signedText (layout : Digits → String) (x : Float) : String :=
  let sign := if x.toBits.toNat < Nat.pow 2 63 then "" else "-"
  let b := Binary.ofBits x.toBits
  sign ++ (if b.significand = 0 then "0.0" else layout b.shortest)

def finiteText (x : Float) : String := signedText Digits.text x

def positionalText (x : Float) : String :=
  if x.isNaN then "NaN"
  else if x.isInf then (if x < 0 then "-inf" else "inf")
  else signedText Digits.positional x

end ProductTemplates.Decimal
