import ProductTemplates.Application
import ProductTemplates.Placeholder

/-! The values fixed so far on the way from an application to its furthest ancestor. Who fixes an
id first keeps it: `insert` and `merge` never change what is there. -/
namespace ProductTemplates

/-- Fixed variables in the order in which they were offered, one for each id. -/
structure OverrideSet where
  entries : List FixedVariable := []
  distinct : entries.Pairwise (fun a b => a.id ≠ b.id) := by exact List.Pairwise.nil
deriving Repr

namespace OverrideSet

def empty : OverrideSet := {}

instance : Inhabited OverrideSet := ⟨empty⟩

def size (s : OverrideSet) : Nat := s.entries.length

def isEmpty (s : OverrideSet) : Bool := s.entries.isEmpty

def contains (s : OverrideSet) (id : String) : Bool := s.entries.any (·.id == id)

def get? (s : OverrideSet) (id : String) : Option String :=
  (s.entries.find? (·.id == id)).map (·.value)

theorem contains_iff {s : OverrideSet} {id : String} :
    s.contains id = true ↔ ∃ e ∈ s.entries, e.id = id := by
  simp [contains]

def insert (s : OverrideSet) (entry : FixedVariable) : OverrideSet :=
  if h : s.contains entry.id then s
  else
    { entries := s.entries ++ [entry]
      distinct := by
        refine List.pairwise_append.2 ⟨s.distinct, List.pairwise_singleton _ _, ?_⟩
        intro a ha b hb
        rw [List.mem_singleton] at hb
        subst hb
        exact fun same => h (contains_iff.2 ⟨a, ha, same⟩) }

/-- Offers an entry: whether its id was free, and the set with it. -/
def offer (s : OverrideSet) (entry : FixedVariable) : Bool × OverrideSet :=
  if s.contains entry.id then (false, s) else (true, s.insert entry)

def ofList (entries : List FixedVariable) : OverrideSet := entries.foldl insert empty

/-- The set extended by what a template fixes itself. -/
def merge (s : OverrideSet) (fixed : List FixedVariable) : OverrideSet := fixed.foldl insert s

def apply (s : OverrideSet) (text : String) : String :=
  if s.isEmpty then text else Id.run (Placeholder.substitute text s.get?)

end OverrideSet
end ProductTemplates
