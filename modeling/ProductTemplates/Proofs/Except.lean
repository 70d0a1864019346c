/-! Results that may be errors, taken apart: a sequence of steps ends well iff each of them does. -/
namespace ProductTemplates

variable {ε α β γ : Type}

theorem bind_eq_ok_iff {x : Except ε β} {f : β → Except ε γ} {c : γ} :
    x >>= f = .ok c ↔ ∃ b, x = .ok b ∧ f b = .ok c := by
  cases x with
  | error e =>
    constructor
    · intro h
      contradiction
    · rintro ⟨b, same, -⟩
      contradiction
  | ok b =>
    constructor
    · intro h
      exact ⟨b, rfl, h⟩
    · rintro ⟨b', same, h⟩
      exact Except.ok.inj same ▸ h

theorem bind_eq_error_iff {x : Except ε β} {f : β → Except ε γ} {e : ε} :
    x >>= f = .error e ↔ x = .error e ∨ ∃ b, x = .ok b ∧ f b = .error e := by
  cases x with
  | error e' => simp [bind, Except.bind]
  | ok b => simp [bind, Except.bind]

theorem map_eq_ok_iff {x : Except ε α} {f : α → β} {b : β} :
    x.map f = .ok b ↔ ∃ a, x = .ok a ∧ f a = b := by
  cases x with
  | error e => simp [Except.map]
  | ok a => simp [Except.map]

theorem map_eq_error_iff {x : Except ε α} {f : α → β} {e : ε} :
    x.map f = .error e ↔ x = .error e := by
  cases x with
  | error e' => simp [Except.map]
  | ok a => simp [Except.map]

theorem mapError_eq_error_iff {ε' : Type} {x : Except ε α} {f : ε → ε'} {e' : ε'} :
    x.mapError f = .error e' ↔ ∃ e, x = .error e ∧ f e = e' := by
  cases x with
  | error e =>
    constructor
    · intro h
      exact ⟨e, rfl, Except.error.inj h⟩
    · rintro ⟨e, ⟨⟩, rfl⟩
      rfl
  | ok a =>
    constructor
    · intro h
      contradiction
    · rintro ⟨e, same, -⟩
      contradiction

theorem mapError_eq_ok_iff {ε' : Type} {x : Except ε α} {f : ε → ε'} {a : α} :
    x.mapError f = .ok a ↔ x = .ok a := by
  cases x with
  | error e =>
    constructor
    · intro h
      contradiction
    · intro h
      contradiction
  | ok a' =>
    constructor
    · intro h
      exact congrArg Except.ok (Except.ok.inj h)
    · rintro ⟨⟩
      rfl

theorem toOption_eq_some_iff {x : Except ε α} {a : α} : x.toOption = some a ↔ x = .ok a := by
  cases x <;> simp [Except.toOption]

theorem mapM_cons_eq_ok_iff {f : α → Except ε β} {a : α} {rest : List α} {bs : List β} :
    (a :: rest).mapM f = .ok bs ↔
      ∃ b more, f a = .ok b ∧ rest.mapM f = .ok more ∧ bs = b :: more := by
  rw [List.mapM_cons, bind_eq_ok_iff]
  constructor
  · rintro ⟨b, here, h⟩
    obtain ⟨more, there, same⟩ := bind_eq_ok_iff.1 h
    exact ⟨b, more, here, there, (Except.ok.inj same).symm⟩
  · rintro ⟨b, more, here, there, rfl⟩
    exact ⟨b, here, bind_eq_ok_iff.2 ⟨more, there, rfl⟩⟩

theorem mapM_self_iff {f : α → Except ε α} {xs : List α} :
    xs.mapM f = .ok xs ↔ ∀ x ∈ xs, f x = .ok x := by
  induction xs with
  | nil => simp [pure, Except.pure]
  | cons x rest ih =>
    rw [mapM_cons_eq_ok_iff, List.forall_mem_cons, ← ih]
    constructor
    · rintro ⟨y, more, here, there, same⟩
      obtain ⟨rfl, rfl⟩ := List.cons.inj same
      exact ⟨here, there⟩
    · rintro ⟨here, there⟩
      exact ⟨x, rest, here, there, rfl⟩

/-- What each step keeps is kept of all. -/
theorem map_eq_of_mapM {f : α → Except ε β} {g : α → γ} {h : β → γ} {xs : List α} {ys : List β}
    (step : ∀ x y, f x = .ok y → h y = g x) (all : xs.mapM f = .ok ys) : ys.map h = xs.map g := by
  induction xs generalizing ys with
  | nil =>
    obtain rfl : [] = ys := Except.ok.inj all
    rfl
  | cons x rest ih =>
    obtain ⟨y, more, here, there, rfl⟩ := mapM_cons_eq_ok_iff.1 all
    rw [List.map_cons, List.map_cons, step x y here, ih there]

theorem forall_mem_of_mapM {f : α → Except ε β} {P : β → Prop} {xs : List α} {ys : List β}
    (step : ∀ x ∈ xs, ∀ y, f x = .ok y → P y) (h : xs.mapM f = .ok ys) : ∀ y ∈ ys, P y := by
  induction xs generalizing ys with
  | nil =>
    obtain rfl : [] = ys := Except.ok.inj h
    simp
  | cons x rest ih =>
    obtain ⟨y, more, here, there, rfl⟩ := mapM_cons_eq_ok_iff.1 h
    rw [List.forall_mem_cons] at step ⊢
    exact ⟨step.1 y here, ih step.2 there⟩

theorem exists_mem_of_mapM {f : α → Except ε β} {x : α} {xs : List α} {ys : List β}
    (h : xs.mapM f = .ok ys) (member : x ∈ xs) : ∃ y ∈ ys, f x = .ok y := by
  induction xs generalizing ys with
  | nil => contradiction
  | cons x' rest ih =>
    obtain ⟨y, more, here, there, rfl⟩ := mapM_cons_eq_ok_iff.1 h
    rcases List.mem_cons.1 member with rfl | later
    · exact ⟨y, List.mem_cons_self, here⟩
    · obtain ⟨y', inside, step⟩ := ih there later
      exact ⟨y', List.mem_cons_of_mem y inside, step⟩

theorem exists_of_foldlM_eq_error {f : β → α → Except ε β} {xs : List α} {b : β} {e : ε}
    (h : xs.foldlM f b = .error e) : ∃ x ∈ xs, ∃ b, f b x = .error e := by
  induction xs generalizing b with
  | nil => contradiction
  | cons x rest ih =>
    rw [List.foldlM_cons] at h
    cases here : f b x with
    | error e' =>
      rw [here] at h
      obtain rfl := Except.error.inj h
      exact ⟨x, List.mem_cons_self, b, here⟩
    | ok b' =>
      rw [here] at h
      obtain ⟨y, member, there⟩ := ih h
      exact ⟨y, List.mem_cons_of_mem x member, there⟩

end ProductTemplates
