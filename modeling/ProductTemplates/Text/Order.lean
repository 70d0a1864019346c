/-! Sorting by a text. Texts are ordered by code points, which is also the order of their bytes. -/
namespace ProductTemplates.Text

/-- Equal ones stay in order. -/
def sortOn {α : Type} (key : α → String) (xs : List α) : List α :=
  xs.mergeSort fun a b => decide (key a ≤ key b)

end ProductTemplates.Text
