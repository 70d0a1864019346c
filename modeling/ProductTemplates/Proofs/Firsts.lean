/-! The first entry of each key in a list, without the keys that are taken already. Lists that grow
by what is not there yet grow by these. -/
namespace ProductTemplates

variable {α : Type} {key : α → String} {taken more : List String} {xs ys : List α} {x : α}

/-- Keeps the first entry of every key that is not taken. -/
def firsts (key : α → String) : List String → List α → List α
  | _, [] => []
  | taken, x :: rest =>
    if key x ∈ taken then firsts key taken rest else x :: firsts key (key x :: taken) rest

@[simp] theorem firsts_nil : firsts key taken [] = [] := rfl

theorem firsts_cons_taken (h : key x ∈ taken) :
    firsts key taken (x :: xs) = firsts key taken xs := by
  rw [firsts, if_pos h]

theorem firsts_cons_fresh (h : key x ∉ taken) :
    firsts key taken (x :: xs) = x :: firsts key (key x :: taken) xs := by
  rw [firsts, if_neg h]

theorem firsts_congr_of_mem (same : ∀ x ∈ xs, key x ∈ taken ↔ key x ∈ more) :
    firsts key taken xs = firsts key more xs := by
  induction xs generalizing taken more with
  | nil => rfl
  | cons x rest ih =>
    rw [List.forall_mem_cons] at same
    by_cases h : key x ∈ taken
    · rw [firsts_cons_taken h, firsts_cons_taken (same.1.1 h), ih same.2]
    · rw [firsts_cons_fresh h, firsts_cons_fresh (mt same.1.2 h)]
      congr 1
      apply ih
      intro y member
      simp only [List.mem_cons, same.2 y member]

theorem firsts_congr (same : ∀ k, k ∈ taken ↔ k ∈ more) :
    firsts key taken xs = firsts key more xs := firsts_congr_of_mem fun x _ => same (key x)

theorem firsts_append :
    firsts key taken (xs ++ ys) = firsts key taken xs ++ firsts key (taken ++ xs.map key) ys := by
  induction xs generalizing taken with
  | nil => simp
  | cons x rest ih =>
    rw [List.cons_append]
    by_cases h : key x ∈ taken
    · rw [firsts_cons_taken h, firsts_cons_taken h, ih]
      congr 1
      apply firsts_congr
      intro k
      simp only [List.map_cons, List.mem_append, List.mem_cons]
      constructor
      · rintro (old | new)
        · exact .inl old
        · exact .inr (.inr new)
      · rintro (old | rfl | new)
        · exact .inl old
        · exact .inl h
        · exact .inr new
    · rw [firsts_cons_fresh h, firsts_cons_fresh h, ih, List.cons_append]
      congr 2
      apply firsts_congr
      intro k
      simp only [List.map_cons, List.mem_append, List.mem_cons]
      exact or_left_comm

/-- What is kept is the first of its key, and its key was not taken. -/
theorem mem_firsts :
    x ∈ firsts key taken xs ↔ key x ∉ taken ∧ xs.find? (key · == key x) = some x := by
  induction xs generalizing taken with
  | nil => simp
  | cons y rest ih =>
    by_cases h : key y ∈ taken
    · rw [firsts_cons_taken h, ih]
      refine and_congr_right fun fresh => ?_
      have other : (key y == key x) = false := by
        simp only [beq_eq_false_iff_ne]
        exact fun same => fresh (same ▸ h)
      simp [other]
    · rw [firsts_cons_fresh h, List.mem_cons, ih]
      by_cases same : key y = key x
      · simp only [same, beq_self_eq_true, List.find?_cons_of_pos, List.mem_cons, true_or,
          not_true_eq_false, false_and, or_false, Option.some.injEq]
        exact ⟨fun e => ⟨e ▸ (same ▸ h), e.symm⟩, fun e => e.2.symm⟩
      · have differ : x ≠ y := fun e => same (e ▸ rfl)
        have other : (key y == key x) = false := by simpa using same
        simp only [differ, false_or, List.mem_cons, List.find?_cons, other, not_or, and_assoc]
        exact ⟨fun h => h.2, fun h => ⟨Ne.symm same, h⟩⟩

theorem key_of_mem_firsts (h : x ∈ firsts key taken xs) : key x ∉ taken := (mem_firsts.1 h).1

theorem firsts_sublist : (firsts key taken xs).Sublist xs := by
  induction xs generalizing taken with
  | nil => exact List.Sublist.refl _
  | cons x rest ih =>
    by_cases h : key x ∈ taken
    · rw [firsts_cons_taken h]
      exact .cons _ ih
    · rw [firsts_cons_fresh h]
      exact .cons_cons _ ih

theorem firsts_of_nodup (distinct : (xs.map key).Nodup) (fresh : ∀ x ∈ xs, key x ∉ taken) :
    firsts key taken xs = xs := by
  induction xs generalizing taken with
  | nil => rfl
  | cons x rest ih =>
    rw [List.forall_mem_cons] at fresh
    rw [List.map_cons, List.nodup_cons] at distinct
    rw [firsts_cons_fresh fresh.1, ih distinct.2]
    intro y member taken'
    rcases List.mem_cons.1 taken' with same | old
    · exact distinct.1 (same ▸ List.mem_map_of_mem member)
    · exact fresh.2 y member old

theorem firsts_of_taken (known : ∀ x ∈ xs, key x ∈ taken) : firsts key taken xs = [] := by
  rw [List.eq_nil_iff_forall_not_mem]
  intro x kept
  exact key_of_mem_firsts kept (known x (firsts_sublist.subset kept))

theorem nodup_firsts : ((firsts key taken xs).map key).Nodup := by
  induction xs generalizing taken with
  | nil => simp
  | cons x rest ih =>
    by_cases h : key x ∈ taken
    · rw [firsts_cons_taken h]
      exact ih
    · rw [firsts_cons_fresh h, List.map_cons, List.nodup_cons]
      refine ⟨fun again => ?_, ih⟩
      obtain ⟨y, kept, same⟩ := List.mem_map.1 again
      exact key_of_mem_firsts kept (same ▸ List.mem_cons_self)

theorem key_mem_firsts_iff {k : String} :
    (∃ x ∈ firsts key taken xs, key x = k) ↔ k ∉ taken ∧ ∃ x ∈ xs, key x = k := by
  constructor
  · rintro ⟨x, kept, rfl⟩
    exact ⟨key_of_mem_firsts kept, x, firsts_sublist.subset kept, rfl⟩
  · rintro ⟨fresh, x, member, rfl⟩
    obtain ⟨y, found⟩ : ∃ y, xs.find? (key · == key x) = some y :=
      Option.isSome_iff_exists.1 (List.find?_isSome.2 ⟨x, member, by simp⟩)
    have same : key y = key x := by simpa using List.find?_some found
    exact ⟨y, mem_firsts.2 ⟨same ▸ fresh, same ▸ found⟩, same⟩

theorem find?_firsts {k : String} (fresh : k ∉ taken) :
    (firsts key taken xs).find? (key · == k) = xs.find? (key · == k) := by
  induction xs generalizing taken with
  | nil => rfl
  | cons x rest ih =>
    by_cases same : key x = k
    · rw [firsts_cons_fresh (same ▸ fresh)]
      simp [same]
    · by_cases h : key x ∈ taken
      · rw [firsts_cons_taken h, ih fresh]
        simp [same]
      · have still : k ∉ key x :: taken := by simp [fresh, Ne.symm same]
        rw [firsts_cons_fresh h, List.find?_cons, List.find?_cons, ih still]

/-- Of the entries kept, the first of a key that is not taken is one and the others are kept without it. -/
theorem perm_firsts (fresh : key x ∉ taken) (first : xs.find? (key · == key x) = some x) :
    (firsts key taken xs).Perm (x :: firsts key (key x :: taken) xs) := by
  induction xs generalizing taken with
  | nil => contradiction
  | cons y rest ih =>
    by_cases same : key y = key x
    · obtain rfl : y = x := by simpa [same] using first
      rw [firsts_cons_fresh fresh, firsts_cons_taken List.mem_cons_self]
    · rw [List.find?_cons_of_neg (by simpa using same)] at first
      by_cases h : key y ∈ taken
      · rw [firsts_cons_taken h, firsts_cons_taken (List.mem_cons_of_mem _ h)]
        exact ih fresh first
      · have still : key x ∉ key y :: taken := by simp [fresh, Ne.symm same]
        have other : key y ∉ key x :: taken := by simp [h, same]
        have swapped : firsts key (key x :: key y :: taken) rest =
            firsts key (key y :: key x :: taken) rest := by
          apply firsts_congr
          intro k
          simp only [List.mem_cons, or_left_comm]
        rw [firsts_cons_fresh h, firsts_cons_fresh other, ← swapped]
        exact ((ih still first).cons y).trans (.swap x y _)

/-- A first selection changes nothing if all it drops is taken anyway. -/
theorem firsts_firsts (covered : ∀ x ∈ xs, key x ∈ more → key x ∈ taken) :
    firsts key taken (firsts key more xs) = firsts key taken xs := by
  induction xs generalizing taken more with
  | nil => rfl
  | cons x rest ih =>
    have rest_covered : ∀ y ∈ rest, key y ∈ more → key y ∈ taken :=
      fun y hy => covered y (List.mem_cons_of_mem _ hy)
    by_cases dropped : key x ∈ more
    · rw [firsts_cons_taken dropped, firsts_cons_taken (covered x List.mem_cons_self dropped),
        ih rest_covered]
    · rw [firsts_cons_fresh dropped]
      by_cases h : key x ∈ taken
      · rw [firsts_cons_taken h, firsts_cons_taken h]
        apply ih
        intro y hy again
        rcases List.mem_cons.1 again with same | old
        · exact same ▸ h
        · exact rest_covered y hy old
      · rw [firsts_cons_fresh h, firsts_cons_fresh h]
        congr 1
        apply ih
        intro y hy again
        rcases List.mem_cons.1 again with same | old
        · exact same ▸ List.mem_cons_self
        · exact List.mem_cons_of_mem _ (rest_covered y hy old)

theorem filter_firsts (p : String → Bool) :
    (firsts key taken xs).filter (fun x => p (key x)) =
      firsts key taken (xs.filter fun x => p (key x)) := by
  induction xs generalizing taken with
  | nil => rfl
  | cons x rest ih =>
    cases keep : p (key x) with
    | true =>
      rw [List.filter_cons, if_pos keep]
      by_cases h : key x ∈ taken
      · rw [firsts_cons_taken h, firsts_cons_taken h, ih]
      · rw [firsts_cons_fresh h, firsts_cons_fresh h, List.filter_cons, if_pos keep, ih]
    | false =>
      rw [List.filter_cons, if_neg (by simp [keep])]
      by_cases h : key x ∈ taken
      · rw [firsts_cons_taken h, ih]
      · rw [firsts_cons_fresh h, List.filter_cons, if_neg (by simp [keep]), ih]
        apply firsts_congr_of_mem
        intro y member
        have kept : p (key y) = true := (List.mem_filter.1 member).2
        have other : key y ≠ key x := by
          intro same
          rw [same, keep] at kept
          contradiction
        simp [other]

theorem find?_of_nodup (distinct : (xs.map key).Nodup) (member : x ∈ xs) :
    xs.find? (key · == key x) = some x := by
  induction xs with
  | nil => contradiction
  | cons first rest ih =>
    rw [List.map_cons, List.nodup_cons] at distinct
    rcases List.mem_cons.1 member with rfl | later
    · simp
    · have other : key first ≠ key x := fun same => distinct.1 (same ▸ List.mem_map_of_mem later)
      rw [List.find?_cons_of_neg (by simpa using other)]
      exact ih distinct.2 later

theorem find?_eq_of_perm (perm : xs.Perm ys) (distinct : (xs.map key).Nodup) (k : String) :
    xs.find? (key · == k) = ys.find? (key · == k) := by
  have distinct' : (ys.map key).Nodup := (perm.map key).nodup_iff.1 distinct
  have found {zs : List α} (distinct : (zs.map key).Nodup) (x : α) :
      zs.find? (key · == k) = some x ↔ x ∈ zs ∧ key x = k := by
    constructor
    · intro h
      exact ⟨List.mem_of_find?_eq_some h, by simpa using List.find?_some h⟩
    · rintro ⟨member, rfl⟩
      exact find?_of_nodup distinct member
  apply Option.ext
  intro x
  rw [found distinct, found distinct', perm.mem_iff]

theorem foldl_append_fresh :
    xs.foldl (fun ys x => if ys.any (key · == key x) then ys else ys ++ [x]) ys =
      ys ++ firsts key (ys.map key) xs := by
  induction xs generalizing ys with
  | nil => simp
  | cons x rest ih =>
    have known : ys.any (key · == key x) = true ↔ key x ∈ ys.map key := by simp
    rw [List.foldl_cons]
    by_cases h : key x ∈ ys.map key
    · rw [if_pos (known.2 h), ih, firsts_cons_taken h]
    · rw [if_neg (mt known.1 h), ih, firsts_cons_fresh h, List.append_assoc, List.singleton_append]
      congr 2
      apply firsts_congr
      intro k
      simp [or_comm]

/-- Growing by what is not there yet twice is growing by all of it. -/
theorem append_firsts_append (zs xs ys : List α) :
    (zs ++ firsts key (zs.map key) xs) ++
        firsts key ((zs ++ firsts key (zs.map key) xs).map key) ys =
      zs ++ firsts key (zs.map key) (xs ++ ys) := by
  rw [← foldl_append_fresh, ← foldl_append_fresh, ← foldl_append_fresh, List.foldl_append]

end ProductTemplates
