/-! Finite maps with text keys, kept in increasing order of the keys. Strings compare by
code point, which is the order of their UTF-8 bytes. `fill` completes one map from another. -/
namespace ProductTemplates

/-- Entries in strictly increasing order of their keys, so equal maps have equal entries. -/
structure Dictionary (α : Type) where
  entries : List (String × α) := []
  increasing : entries.Pairwise (fun a b => a.1 < b.1) := by exact List.Pairwise.nil
deriving Repr

namespace Dictionary

variable {α : Type}

/-- Puts `key` in its place; `settle` decides between the value there and the new one. -/
def place (settle : α → α → α) (key : String) (value : α) :
    List (String × α) → List (String × α)
  | [] => [(key, value)]
  | (k, v) :: rest =>
    if key < k then (key, value) :: (k, v) :: rest
    else if k = key then (k, settle v value) :: rest
    else (k, v) :: place settle key value rest

theorem mem_place {settle : α → α → α} {key : String} {value : α} {es : List (String × α)}
    {e : String × α} (h : e ∈ place settle key value es) :
    e.1 = key ∨ ∃ d ∈ es, d.1 = e.1 := by
  induction es with
  | nil => simp_all [place]
  | cons d rest ih =>
    obtain ⟨k, v⟩ := d
    simp only [place] at h
    split at h
    · rcases List.mem_cons.1 h with rfl | h
      · exact .inl rfl
      · exact .inr ⟨e, h, rfl⟩
    · split at h
      · rcases List.mem_cons.1 h with rfl | h
        · exact .inr ⟨(k, v), by simp, rfl⟩
        · exact .inr ⟨e, by simp [h], rfl⟩
      · rcases List.mem_cons.1 h with rfl | h
        · exact .inr ⟨(k, v), by simp, rfl⟩
        · rcases ih h with h | ⟨d, hd, he⟩
          · exact .inl h
          · exact .inr ⟨d, by simp [hd], he⟩

theorem place_increasing (settle : α → α → α) (key : String) (value : α)
    (es : List (String × α)) (h : es.Pairwise fun a b => a.1 < b.1) :
    (place settle key value es).Pairwise fun a b => a.1 < b.1 := by
  induction es with
  | nil => simp [place]
  | cons d rest ih =>
    obtain ⟨k, v⟩ := d
    rw [List.pairwise_cons] at h
    simp only [place]
    split
    · next lt =>
      refine List.pairwise_cons.2 ⟨fun e he => ?_, List.pairwise_cons.2 h⟩
      rcases List.mem_cons.1 he with rfl | he
      · exact lt
      · exact String.lt_trans lt (h.1 e he)
    · split
      · exact List.pairwise_cons.2 ⟨h.1, h.2⟩
      · next ge ne =>
        refine List.pairwise_cons.2 ⟨fun e he => ?_, ih h.2⟩
        rcases mem_place he with he | ⟨d, hd, he⟩
        · rw [he]
          exact Std.lt_of_le_of_ne (Std.not_lt.1 ge) ne
        · rw [← he]
          exact h.1 d hd

def put (settle : α → α → α) (d : Dictionary α) (key : String) (value : α) : Dictionary α :=
  ⟨place settle key value d.entries, place_increasing settle key value d.entries d.increasing⟩

def insert (d : Dictionary α) (key : String) (value : α) : Dictionary α :=
  d.put (fun _ new => new) key value

def insertIfAbsent (d : Dictionary α) (key : String) (value : α) : Dictionary α :=
  d.put (fun old _ => old) key value

def empty : Dictionary α := {}

instance : Inhabited (Dictionary α) := ⟨empty⟩

/-- Of several values for one key the last counts. -/
def ofList (es : List (String × α)) : Dictionary α :=
  es.foldl (fun d e => d.insert e.1 e.2) empty

def get? (d : Dictionary α) (key : String) : Option α :=
  (d.entries.find? fun e => e.1 == key).map (·.2)

def isEmpty (d : Dictionary α) : Bool := d.entries.isEmpty

/-- Every gap of `ours` filled from `theirs`. -/
def fill (ours theirs : Dictionary α) : Dictionary α :=
  theirs.entries.foldl (fun d e => d.insertIfAbsent e.1 e.2) ours

end Dictionary
end ProductTemplates
