/-! The characters that stand for blank space in Unicode: its property `White_Space`.
They end an identifier. -/
namespace ProductTemplates.Text

/-- The property `White_Space` as closed ranges of code points, in increasing order. -/
def blankRanges : List (Nat × Nat) := [
  (0x0009, 0x000D), (0x0020, 0x0020), (0x0085, 0x0085), (0x00A0, 0x00A0), (0x1680, 0x1680),
  (0x2000, 0x200A), (0x2028, 0x2029), (0x202F, 0x202F), (0x205F, 0x205F), (0x3000, 0x3000)]

def isBlank (c : Char) : Bool :=
  blankRanges.any fun r => r.1 ≤ c.toNat && c.toNat ≤ r.2

example : blankRanges.length = 10 ∧ isBlank '\u2003' = true ∧ isBlank '\u200b' = false := by decide

end ProductTemplates.Text
