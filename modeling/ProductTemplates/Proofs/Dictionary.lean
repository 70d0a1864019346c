import ProductTemplates.Dictionary

/-! A dictionary read key by key: filling one from another keeps every value that is there, and it
makes no difference how several are grouped. -/
namespace ProductTemplates.Dictionary

variable {α : Type} {settle : α → α → α} {key k : String} {value : α}

def lookup (k : String) (es : List (String × α)) : Option α := (es.find? (·.1 == k)).map (·.2)

theorem lookup_cons (k : String) (e : String × α) (es : List (String × α)) :
    lookup k (e :: es) = if e.1 = k then some e.2 else lookup k es := by
  by_cases h : e.1 = k <;> simp [lookup, h]

theorem lookup_eq_none {es : List (String × α)} (h : ∀ e ∈ es, e.1 ≠ k) : lookup k es = none := by
  simpa [lookup] using fun a b member => h (a, b) member

theorem lookup_place {es : List (String × α)} (increasing : es.Pairwise (fun a b => a.1 < b.1)) :
    lookup k (place settle key value es) =
      if k = key then some ((lookup key es).elim value (settle · value)) else lookup k es := by
  induction es with
  | nil =>
    simp only [place, lookup_cons]
    by_cases h : k = key
    · simp [h, lookup]
    · simp [h, Ne.symm h]
  | cons d rest ih =>
    obtain ⟨j, v⟩ := d
    rw [List.pairwise_cons] at increasing
    simp only [place]
    split
    · next before =>
      have absent : lookup key ((j, v) :: rest) = none := by
        apply lookup_eq_none
        intro e member
        rcases List.mem_cons.1 member with rfl | member
        · exact (Std.ne_of_lt before).symm
        · exact (Std.ne_of_lt (String.lt_trans before (increasing.1 e member))).symm
      rw [lookup_cons]
      by_cases h : k = key
      · simp [h, absent]
      · simp [h, Ne.symm h]
    · split
      · next same =>
        subst same
        simp only [lookup_cons]
        by_cases h : k = j
        · simp [h]
        · simp [h, Ne.symm h]
      · next differ =>
        rw [lookup_cons, ih increasing.2]
        simp only [lookup_cons, if_neg differ]
        by_cases h : k = key
        · simp [h, differ]
        · simp [h]

theorem get?_insertIfAbsent (d : Dictionary α) (key k : String) (value : α) :
    (d.insertIfAbsent key value).get? k = (d.get? k <|> if key = k then some value else none) := by
  change lookup k (place _ key value d.entries) = (lookup k d.entries <|> _)
  rw [lookup_place d.increasing]
  by_cases h : k = key
  · subst h
    cases lookup k d.entries <;> simp
  · simp [h, Ne.symm h]

theorem get?_fill (ours theirs : Dictionary α) (k : String) :
    (ours.fill theirs).get? k = (ours.get? k <|> theirs.get? k) := by
  change (theirs.entries.foldl (fun d e => d.insertIfAbsent e.1 e.2) ours).get? k =
    (ours.get? k <|> lookup k theirs.entries)
  induction theirs.entries generalizing ours with
  | nil => simp [lookup]
  | cons e rest ih =>
    rw [List.foldl_cons, ih, get?_insertIfAbsent, lookup_cons]
    by_cases h : e.1 = k
    · cases ours.get? k <;> simp [h]
    · simp [h]

theorem eq_of_entries_eq {d e : Dictionary α} (same : d.entries = e.entries) : d = e := by
  cases d
  cases e
  cases same
  rfl

theorem lookup_below {e : String × α} {rest : List (String × α)}
    (increasing : (e :: rest).Pairwise fun a b => a.1 < b.1) (below : k < e.1) :
    lookup k (e :: rest) = none := by
  apply lookup_eq_none
  intro d member
  rcases List.mem_cons.1 member with rfl | later
  · exact (Std.ne_of_lt below).symm
  · exact (Std.ne_of_lt (String.lt_trans below ((List.pairwise_cons.1 increasing).1 d later))).symm

theorem eq_of_lookup {es fs : List (String × α)} (increasing : es.Pairwise fun a b => a.1 < b.1)
    (increasing' : fs.Pairwise fun a b => a.1 < b.1) (same : ∀ k, lookup k es = lookup k fs) :
    es = fs := by
  induction es generalizing fs with
  | nil =>
    cases fs with
    | nil => rfl
    | cons f rest' => simpa [lookup] using same f.1
  | cons e rest ih =>
    cases fs with
    | nil => simpa [lookup] using same e.1
    | cons f rest' =>
      have key : e.1 = f.1 := by
        rcases Std.lt_trichotomy e.1 f.1 with below | key | below
        · have missing := lookup_below increasing' below
          rw [← same, lookup_cons, if_pos rfl] at missing
          contradiction
        · exact key
        · have missing := lookup_below increasing below
          rw [same, lookup_cons, if_pos rfl] at missing
          contradiction
      have value := same e.1
      rw [lookup_cons, lookup_cons, if_pos rfl, if_pos key.symm] at value
      have head : e = f := Prod.ext key (Option.some.inj value)
      subst head
      rw [List.pairwise_cons] at increasing increasing'
      congr 1
      apply ih increasing.2 increasing'.2
      intro k
      by_cases h : e.1 = k
      · have absent {xs : List (String × α)} (after : ∀ d ∈ xs, e.1 < d.1) : lookup k xs = none :=
          lookup_eq_none fun d member => h ▸ (Std.ne_of_lt (after d member)).symm
        rw [absent increasing.1, absent increasing'.1]
      · have tail := same k
        rwa [lookup_cons, lookup_cons, if_neg h, if_neg h] at tail

/-- A dictionary is known by the values of its keys. -/
theorem eq_of_get? {d e : Dictionary α} (same : ∀ k, d.get? k = e.get? k) : d = e :=
  eq_of_entries_eq (eq_of_lookup d.increasing e.increasing same)

/-- It makes no difference which gaps are filled first. -/
theorem fill_assoc (a b c : Dictionary α) : a.fill (b.fill c) = (a.fill b).fill c := by
  apply eq_of_get?
  intro k
  simp only [get?_fill]
  cases a.get? k <;> rfl

theorem fill_fill_self (a b : Dictionary α) : (a.fill b).fill b = a.fill b := by
  apply eq_of_get?
  intro k
  simp only [get?_fill]
  cases a.get? k <;> cases b.get? k <;> rfl

theorem place_last {es : List (String × α)} (above : ∀ e ∈ es, e.1 < key) :
    place settle key value es = es ++ [(key, value)] := by
  induction es with
  | nil => rfl
  | cons e rest ih =>
    obtain ⟨j, v⟩ := e
    rw [List.forall_mem_cons] at above
    have after : ¬ key < j := Std.not_lt.2 (Std.le_of_lt above.1)
    rw [place, if_neg after, if_neg (Std.ne_of_lt above.1), ih above.2, List.cons_append]

theorem entries_ofList {es : List (String × α)} (increasing : es.Pairwise fun a b => a.1 < b.1) :
    (ofList es).entries = es := by
  have extend (es : List (String × α)) (start : Dictionary α)
      (increasing : (start.entries ++ es).Pairwise fun a b => a.1 < b.1) :
      (es.foldl (fun d e => d.insert e.1 e.2) start).entries = start.entries ++ es := by
    induction es generalizing start with
    | nil => simp
    | cons e rest ih =>
      have above : ∀ old ∈ start.entries, old.1 < e.1 := fun old member =>
        (List.pairwise_append.1 increasing).2.2 old member e List.mem_cons_self
      have next : (start.insert e.1 e.2).entries = start.entries ++ [e] := place_last above
      rw [List.foldl_cons, ih, next, List.append_assoc, List.singleton_append]
      rwa [next, List.append_assoc, List.singleton_append]
  exact extend es empty increasing

/-- A dictionary is made again from its entries, and from no others under the same keys. -/
theorem ofList_eq_iff {d : Dictionary α} {es : List (String × α)}
    (keys : es.map (·.1) = d.entries.map (·.1)) : ofList es = d ↔ es = d.entries := by
  have increasing : es.Pairwise fun a b => a.1 < b.1 := by
    have sorted : (d.entries.map (·.1)).Pairwise (· < ·) := List.pairwise_map.2 d.increasing
    rw [← keys] at sorted
    exact List.pairwise_map.1 sorted
  have entries := entries_ofList increasing
  constructor
  · rintro rfl
    exact entries.symm
  · exact fun same => eq_of_entries_eq (entries.trans same)

theorem forall_mem_place {P : String × α → Prop} {es : List (String × α)} (old : ∀ e ∈ es, P e)
    (new : P (key, value)) (settled : ∀ v, P (key, v) → P (key, settle v value)) :
    ∀ e ∈ place settle key value es, P e := by
  induction es with
  | nil => simpa [place] using new
  | cons e rest ih =>
    obtain ⟨j, v⟩ := e
    rw [List.forall_mem_cons] at old
    rw [place]
    split
    · exact List.forall_mem_cons.2 ⟨new, List.forall_mem_cons.2 old⟩
    · split
      · next same =>
        subst same
        exact List.forall_mem_cons.2 ⟨settled v old.1, old.2⟩
      · exact List.forall_mem_cons.2 ⟨old.1, ih old.2⟩

theorem forall_mem_fill {P : String × α → Prop} {ours theirs : Dictionary α}
    (own : ∀ e ∈ ours.entries, P e) (their : ∀ e ∈ theirs.entries, P e) :
    ∀ e ∈ (ours.fill theirs).entries, P e := by
  rw [fill]
  revert their
  induction theirs.entries generalizing ours with
  | nil => exact fun _ => own
  | cons e rest ih =>
    intro their
    rw [List.forall_mem_cons] at their
    exact ih (forall_mem_place own their.1 fun _ old => old) their.2

theorem forall_mem_ofList {P : String × α → Prop} {es : List (String × α)} (each : ∀ e ∈ es, P e) :
    ∀ e ∈ (ofList es).entries, P e := by
  have extend (start : Dictionary α) (old : ∀ e ∈ start.entries, P e) :
      ∀ e ∈ (es.foldl (fun d e => d.insert e.1 e.2) start).entries, P e := by
    induction es generalizing start with
    | nil => exact old
    | cons e rest ih =>
      rw [List.forall_mem_cons] at each
      exact ih each.2 _ (forall_mem_place old each.1 fun _ _ => each.1)
  exact extend empty (by simp [empty])

end ProductTemplates.Dictionary
