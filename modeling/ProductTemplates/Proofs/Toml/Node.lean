import ProductTemplates.Toml.Node

/-! The lines that a table knows are those of what was put into it: adding a value or opening a
table brings in no others. -/
namespace ProductTemplates.Toml

variable {told : Nat → Prop} {es inner : Entries} {n : Node} {k : Key} {path steps : List Key}
  {listed : Bool} {line : Nat} {name : String}

/-- Whether all lines in a node are told of. -/
inductive Node.Knows (told : Nat → Prop) : Node → Prop
  | scalar {line : Nat} {s : Scalar} (own : told line) : Knows told (.scalar line s)
  | array {line : Nat} {items : List Node} (own : told line)
    (each : ∀ n ∈ items, Knows told n) : Knows told (.array line items)
  | table {line : Option Nat} {origin : Origin} {entries : List (Key × Node)}
    (own : ∀ l ∈ line, told l) (keys : ∀ e ∈ entries, told e.1.line)
    (each : ∀ e ∈ entries, Knows told e.2) : Knows told (.table line origin entries)
  | tables {items : List Node} (each : ∀ n ∈ items, Knows told n) : Knows told (.tables items)

namespace Entries

def Knows (told : Nat → Prop) (es : Entries) : Prop :=
  ∀ e ∈ es, told e.1.line ∧ e.2.Knows told

theorem Knows.table {own : Option Nat} {origin : Origin} (known : es.Knows told)
    (here : ∀ l ∈ own, told l) : Node.Knows told (.table own origin es) :=
  .table here (fun e member => (known e member).1) fun e member => (known e member).2

theorem knows_of_table {own : Option Nat} {origin : Origin}
    (known : Node.Knows told (.table own origin es)) : es.Knows told ∧ ∀ l ∈ own, told l := by
  cases known with
  | table here keys each => exact ⟨fun e member => ⟨keys e member, each e member⟩, here⟩

theorem knows_nil : Knows told [] := by simp [Knows]

theorem Knows.concat (known : es.Knows told) (key : told k.line) (value : n.Knows told) :
    Knows told (es ++ [(k, n)]) := by
  intro e member
  rcases List.mem_append.1 member with old | new
  · exact known e old
  · obtain rfl := List.mem_singleton.1 new
    exact ⟨key, value⟩

theorem Knows.replace (known : es.Knows told) (value : n.Knows told) :
    Knows told (es.replace name n) := by
  intro e member
  obtain ⟨old, there, rfl⟩ := List.mem_map.1 member
  split
  · exact ⟨(known old there).1, value⟩
  · exact known old there

theorem Knows.find? (known : es.Knows told) (h : es.find? name = some (k, n)) : n.Knows told :=
  (known _ (List.mem_of_find?_eq_some h)).2

theorem Knows.refill {own : Option Nat} {origin : Origin} (known : es.Knows told)
    (there : es.find? name = some (k, .table own origin inner)) :
    inner.Knows told ∧ ∀ more, Knows told more →
      Knows told (es.replace name (.table own origin more)) := by
  obtain ⟨inside, here⟩ := knows_of_table (known.find? there)
  exact ⟨inside, fun more filled => known.replace (filled.table here)⟩

theorem Knows.refill_latest {own : Option Nat} {origin : Origin} {earlier : List Node}
    (known : es.Knows told)
    (there : es.find? name = some (k, .tables (.table own origin inner :: earlier))) :
    inner.Knows told ∧ ∀ more, Knows told more →
      Knows told (es.replace name (.tables (.table own origin more :: earlier))) := by
  cases known.find? there with
  | tables all =>
    rw [List.forall_mem_cons] at all
    obtain ⟨inside, here⟩ := knows_of_table all.1
    exact ⟨inside, fun more filled =>
      known.replace (.tables (List.forall_mem_cons.2 ⟨filled.table here, all.2⟩))⟩

theorem knows_map {x : Option Entries} {f : Entries → Entries}
    (inside : ∀ inner ∈ x, Knows told inner)
    (filled : ∀ inner, Knows told inner → Knows told (f inner)) :
    ∀ found ∈ x.map f, Knows told found := by
  intro found same
  obtain ⟨inner, there, rfl⟩ := Option.map_eq_some_iff.1 same
  exact filled inner (inside inner there)

theorem knows_insert? (keys : ∀ k ∈ path, told k.line) (key : told k.line)
    (value : n.Knows told) (known : es.Knows told) :
    ∀ found ∈ insert? path k n es, Knows told found := by
  induction path generalizing es with
  | nil =>
    rw [insert?]
    split
    · simp
    · rintro found ⟨⟩
      exact known.concat key value
  | cons step path ih =>
    rw [List.forall_mem_cons] at keys
    rw [insert?]
    split
    · exact knows_map (ih keys.2 knows_nil) fun _ put => known.concat keys.1 (put.table (by simp))
    · next there =>
      obtain ⟨old, filled⟩ := known.refill there
      split
      · exact knows_map (ih keys.2 old) filled
      · simp
    · next there =>
      obtain ⟨old, filled⟩ := known.refill_latest there
      split
      · simp
      · exact knows_map (ih keys.2 old) filled
    · simp

theorem knows_openHere? (own : told line) (key : told k.line) (known : es.Knows told) :
    ∀ found ∈ openHere? listed line k es, Knows told found := by
  have table {inner : Entries} (inside : inner.Knows told) :
      Node.Knows told (.table (some line) .header inner) := inside.table (by simpa using own)
  unfold openHere?
  dsimp only
  split
  · rintro found ⟨⟩
    apply known.concat key
    split
    · exact .tables (by simpa using table knows_nil)
    · exact table knows_nil
  · next there =>
    split
    · simp
    · rintro found ⟨⟩
      have others : Knows told (es.filter (·.1.name != k.name)) :=
        fun e member => known e (List.mem_filter.1 member).1
      exact others.concat key (table (known.refill there).1)
  · next there =>
    split
    · rintro found ⟨⟩
      cases known.find? there with
      | tables each =>
        exact known.replace (.tables (List.forall_mem_cons.2 ⟨table knows_nil, each⟩))
    · simp
  · simp

theorem knows_open? (own : told line) (keys : ∀ k ∈ path, told k.line) (key : told k.line)
    (known : es.Knows told) : ∀ found ∈ open? listed line path k es, Knows told found := by
  induction path generalizing es with
  | nil => exact knows_openHere? own key known
  | cons step path ih =>
    rw [List.forall_mem_cons] at keys
    rw [open?]
    split
    · exact knows_map (ih keys.2 knows_nil) fun _ put => known.concat keys.1 (put.table (by simp))
    · next there =>
      obtain ⟨old, filled⟩ := known.refill there
      split
      · simp
      · exact knows_map (ih keys.2 old) filled
    · next there =>
      obtain ⟨old, filled⟩ := known.refill_latest there
      exact knows_map (ih keys.2 old) filled
    · simp

theorem knows_insertBelow? (keys : ∀ k ∈ path, told k.line) (key : told k.line)
    (value : n.Knows told) (known : es.Knows told) :
    ∀ found ∈ insertBelow? steps path k n es, Knows told found := by
  induction steps generalizing es with
  | nil => exact knows_insert? keys key value known
  | cons step steps ih =>
    rw [insertBelow?]
    split
    · next there =>
      obtain ⟨old, filled⟩ := known.refill there
      exact knows_map (ih old) filled
    · next there =>
      obtain ⟨old, filled⟩ := known.refill_latest there
      exact knows_map (ih old) filled
    · simp

end Entries
end ProductTemplates.Toml
