import ProductTemplates.Decimal.Notation
import ProductTemplates.Proofs.Decimal.Notation
import ProductTemplates.Proofs.Toml.Quoting
import ProductTemplates.Toml.Reader

/-! Values are read back as they were written, up to the end of their line. -/
namespace ProductTemplates.Toml

open Decimal

variable {ds rest more : List Char} {k n v : Nat}

theorem isSome_digitValue?_of_natural? {radix : Nat} {cs : List Char}
    (h : natural? radix cs = some n) : ∀ c ∈ cs, (digitValue? radix c).isSome = true := by
  have fold (cs : List Char) (start : Nat)
      (h : cs.foldlM (fun n c => (digitValue? radix c).map (n * radix + ·)) start = some n) :
      ∀ c ∈ cs, (digitValue? radix c).isSome = true := by
    induction cs generalizing start with
    | nil => simp
    | cons c more ih =>
      rw [List.foldlM_cons, Option.bind_eq_bind, Option.bind_eq_some_iff] at h
      obtain ⟨next, here, there⟩ := h
      rw [List.forall_mem_cons]
      refine ⟨?_, ih next there⟩
      cases found : digitValue? radix c with
      | none => simp [found] at here
      | some v => rfl
  rw [natural?] at h
  split at h
  · contradiction
  · exact fold cs 0 h

variable {c : Char}

end ProductTemplates.Toml
