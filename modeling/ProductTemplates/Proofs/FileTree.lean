import ProductTemplates.FileTree

/-! What a file system promises of its files: names hold no slash and no NUL, no folder has a name
twice, and the length of a file fits a machine word. -/
namespace ProductTemplates

structure IsFileName (name : String) : Prop where
  nonempty : name ≠ ""
  no_slash : '/' ∉ name.toList
  no_nul : '\x00' ∉ name.toList

structure IsSegment (name : String) : Prop where
  nonempty : name ≠ ""
  no_slash : '/' ∉ name.toList

theorem IsFileName.isSegment {name : String} (clean : IsFileName name) : IsSegment name :=
  ⟨clean.nonempty, clean.no_slash⟩

theorem mem_of_lookup {α : Type} {entries : List (String × α)} {name : String} {a : α}
    (h : entries.lookup name = some a) : (name, a) ∈ entries := by
  obtain ⟨before, after, rfl, -⟩ := List.lookup_eq_some_iff.1 h
  simp

/-- In a folder without repeated names every entry is found. -/
theorem lookup_eq_some_iff {α : Type} {entries : List (String × α)} {name : String} {a : α}
    (distinct : (entries.map (·.1)).Nodup) :
    entries.lookup name = some a ↔ (name, a) ∈ entries := by
  refine ⟨mem_of_lookup, fun member => ?_⟩
  induction entries with
  | nil => simp at member
  | cons e rest ih =>
    obtain ⟨other, b⟩ := e
    rw [List.map_cons, List.nodup_cons] at distinct
    rcases List.mem_cons.1 member with same | later
    · obtain ⟨rfl, rfl⟩ := Prod.mk.inj same
      simp
    · have differ : name ≠ other := by
        rintro rfl
        exact distinct.1 (List.mem_map.2 ⟨_, later, rfl⟩)
      rw [List.lookup_cons, beq_false_of_ne differ]
      exact ih distinct.2 later

namespace FileTree

inductive Sound : FileTree → Prop where
  | folder {entries : List (String × FileTree)} : (entries.map (·.1)).Nodup →
      (∀ e ∈ entries, IsFileName e.1) → (∀ e ∈ entries, Sound e.2) → Sound (.folder entries)
  | file {bytes : Bytes} : bytes.length < UInt64.size → Sound (.file bytes)
  | link {target : String} : Sound (.link target)
  | pipe : Sound .pipe

theorem get?_append {t node : FileTree} {names more : List String}
    (found : t.get? names = some node) : t.get? (names ++ more) = node.get? more := by
  induction names generalizing t with
  | nil =>
    obtain rfl := Option.some.inj found
    rfl
  | cons name rest ih =>
    obtain ⟨child, here, below⟩ := Option.bind_eq_some_iff.1 found
    rw [List.cons_append, get?, here, Option.bind_some, ih below]

theorem Sound.get? {t node : FileTree} {names : List String} (sound : t.Sound)
    (found : t.get? names = some node) : node.Sound := by
  induction names generalizing t with
  | nil =>
    obtain rfl := Option.some.inj found
    exact sound
  | cons name rest ih =>
    obtain ⟨child, here, below⟩ := Option.bind_eq_some_iff.1 found
    cases sound with
    | folder _ _ entries => exact ih (entries _ (mem_of_lookup here)) below
    | file | link | pipe => simp [child?] at here

end FileTree
end ProductTemplates
