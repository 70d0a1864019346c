import Mathlib.Data.Bool.Basic
import ProductTemplates.Proofs.Placeholder

/-! Where tokens stand in a text. No two of them overlap, and substitution asks once for each of
them, from left to right, and writes the answers in their places. -/
namespace ProductTemplates.Placeholder

variable {m : Type → Type} {cs xs ys rest : List Char} {place other start : Nat} {id own : String}
  {ps : List Piece}

def width (id : String) : Nat := (Piece.token id).text.length

/-- Whether a token with this id stands at a place of a text. -/
def TokenAt (cs : List Char) (place : Nat) (id : String) : Prop :=
  id ≠ "" ∧
  (∀ c ∈ id.toList, Text.isBlank c = false ∧ c ≠ '$' ∧ c ≠ '{' ∧ c ≠ '}') ∧
  (Piece.token id).text <+: cs.drop place

/-- The text from a place on, with an answer in the place of each token that got one. -/
def replaced (cs : List Char) (start : Nat) : List ((Nat × String) × Option String) → List Char
  | [] => cs.drop start
  | ((place, id), answer) :: later =>
    (cs.drop start).take (place - start) ++ (answer.map String.toList).getD (Piece.token id).text ++
      replaced cs (place + width id) later

/-- Whether nothing that is asked for gets an answer, whatever was asked before. -/
def NeverAnswers [Functor m] (resolve : String → m (Option String)) : Prop :=
  ∀ id, (fun _ => none) <$> resolve id = resolve id

theorem isIdentifier_iff {c : Char} : isIdentifier c = true ↔
    Text.isBlank c = false ∧ c ≠ '$' ∧ c ≠ '{' ∧ c ≠ '}' := by
  grind [isIdentifier]

theorem tokenAt_zero_iff : TokenAt cs 0 id ↔
    ∃ rest after, cs = '$' :: '{' :: rest ∧ identifier? rest = some (id, after) := by
  simp only [TokenAt, ← isIdentifier_iff, identifier?_eq_some_iff, Piece.text]
  constructor
  · rintro ⟨nonempty, all, after, same⟩
    exact ⟨id.toList ++ '}' :: after, after, by simpa using same.symm, by simpa using nonempty,
      all, rfl⟩
  · rintro ⟨rest, after, rfl, nonempty, all, rfl⟩
    exact ⟨by simpa using nonempty, all, after, by simp⟩

theorem tokenAt_opening_iff :
    TokenAt ('$' :: '{' :: rest) 0 id ↔ ∃ after, identifier? rest = some (id, after) := by
  rw [tokenAt_zero_iff]
  constructor
  · rintro ⟨_, after, same, found⟩
    obtain rfl := (List.cons.inj (List.cons.inj same).2).2
    exact ⟨after, found⟩
  · rintro ⟨after, found⟩
    exact ⟨rest, after, rfl, found⟩

theorem not_tokenAt_nil : ¬ TokenAt [] place id := by
  rintro ⟨-, -, starts⟩
  simp [Piece.text] at starts

theorem tokenAt_cons_iff {c : Char} : TokenAt (c :: cs) place id ↔
    place = 0 ∧ TokenAt (c :: cs) 0 id ∨ ∃ k, place = k + 1 ∧ TokenAt cs k id := by
  cases place with
  | zero => simp
  | succ k =>
    have same : TokenAt (c :: cs) (k + 1) id ↔ TokenAt cs k id := Iff.rfl
    simp [same]

theorem tokenAt_cons_of_not {c : Char} (untokened : ¬ TokenAt (c :: cs) 0 id) :
    TokenAt (c :: cs) place id ↔ ∃ k, place = k + 1 ∧ TokenAt cs k id := by
  rw [tokenAt_cons_iff, or_iff_right (mt And.right untokened)]

theorem tokenAt_append_iff (plain : '$' ∉ xs) :
    TokenAt (xs ++ ys) place id ↔ ∃ k, place = xs.length + k ∧ TokenAt ys k id := by
  induction xs generalizing place with
  | nil => simp
  | cons c more ih =>
    rw [List.mem_cons, not_or] at plain
    have untokened : ¬ TokenAt (c :: (more ++ ys)) 0 id := by
      rw [tokenAt_zero_iff]
      rintro ⟨rest, after, same, -⟩
      exact plain.1 (List.cons.inj same).1.symm
    rw [List.cons_append, tokenAt_cons_of_not untokened]
    constructor
    · rintro ⟨_, rfl, behind⟩
      obtain ⟨k, rfl, there⟩ := (ih plain.2).1 behind
      exact ⟨k, by rw [List.length_cons]; omega, there⟩
    · rintro ⟨k, rfl, there⟩
      exact ⟨more.length + k, by rw [List.length_cons]; omega, (ih plain.2).2 ⟨k, rfl, there⟩⟩

/-- Behind a token the text goes on, and no token begins within another. -/
theorem tokenAt_token_append_iff (found : identifier? rest = some (own, ys)) :
    TokenAt ('$' :: '{' :: rest) place id ↔
      place = 0 ∧ id = own ∨ ∃ k, place = width own + k ∧ TokenAt ys k id := by
  obtain ⟨-, all, rfl⟩ := identifier?_eq_some_iff.1 found
  have plain : '$' ∉ '{' :: own.toList ++ ['}'] := by
    have other : '$' ∉ own.toList := fun member => (isIdentifier_iff.1 (all _ member)).2.1 rfl
    simpa using other
  have here : TokenAt ('$' :: '{' :: (own.toList ++ '}' :: ys)) 0 id ↔ id = own := by
    rw [tokenAt_opening_iff, found]
    simp [eq_comm]
  have later {k : Nat} : TokenAt ('{' :: (own.toList ++ '}' :: ys)) k id ↔
      ∃ j, k = width own - 1 + j ∧ TokenAt ys j id := by
    have behind : '{' :: (own.toList ++ '}' :: ys) =
        '{' :: own.toList ++ ['}'] ++ ys := by
      simp
    have wide : width own - 1 = ('{' :: own.toList ++ ['}']).length := rfl
    rw [behind, wide]
    exact tokenAt_append_iff plain
  have wide : 1 ≤ width own := by simp [width, Piece.text]
  rw [tokenAt_cons_iff, here]
  refine or_congr_right ⟨?_, ?_⟩
  · rintro ⟨_, rfl, behind⟩
    obtain ⟨k, rfl, there⟩ := later.1 behind
    exact ⟨k, by omega, there⟩
  · rintro ⟨k, rfl, there⟩
    exact ⟨width own - 1 + k, by omega, later.2 ⟨k, rfl, there⟩⟩

theorem TokenAt.apart_of_le (h : TokenAt cs place id) (h' : TokenAt cs other own)
    (le : place ≤ other) : place = other ∧ id = own ∨ place + width id ≤ other := by
  obtain ⟨k, rfl⟩ := Nat.exists_eq_add_of_le le
  have first : TokenAt (cs.drop place) 0 id := by simpa [TokenAt] using h
  have second : TokenAt (cs.drop place) k own := by simpa [TokenAt] using h'
  obtain ⟨rest, after, opening, found⟩ := tokenAt_zero_iff.1 first
  rw [opening, tokenAt_token_append_iff found] at second
  rcases second with ⟨rfl, rfl⟩ | ⟨j, rfl, -⟩
  · exact .inl ⟨rfl, rfl⟩
  · exact .inr (by omega)

/-- Two tokens of a text are one and the same or do not overlap. -/
theorem TokenAt.apart (h : TokenAt cs place id) (h' : TokenAt cs other own) :
    place = other ∧ id = own ∨ place + width id ≤ other ∨ other + width own ≤ place := by
  rcases Nat.le_total place other with le | le
  · exact (h.apart_of_le h' le).imp_right .inl
  · rcases h'.apart_of_le h le with ⟨same, same'⟩ | before
    · exact .inl ⟨same.symm, same'.symm⟩
    · exact .inr (.inr before)

/-- The places of the tokens among some pieces, if the first piece stands at a place. -/
def places : Nat → List Piece → List (Nat × String)
  | _, [] => []
  | n, .character _ :: rest => places (n + 1) rest
  | n, .token id :: rest => (n, id) :: places (n + width id) rest

theorem mem_places_iff :
    (place, id) ∈ places start (pieces cs) ↔ ∃ k, place = start + k ∧ TokenAt cs k id := by
  fun_induction pieces cs generalizing start with
  | case1 rest own after found ih =>
    simp only [places, List.mem_cons, ih, tokenAt_token_append_iff found, Prod.mk.injEq]
    constructor
    · rintro (⟨rfl, rfl⟩ | ⟨k, rfl, there⟩)
      · exact ⟨0, rfl, .inl ⟨rfl, rfl⟩⟩
      · exact ⟨width own + k, by omega, .inr ⟨k, rfl, there⟩⟩
    · rintro ⟨_, rfl, ⟨rfl, rfl⟩ | ⟨k, rfl, there⟩⟩
      · exact .inl ⟨rfl, rfl⟩
      · exact .inr ⟨k, by omega, there⟩
  | case2 rest unread ih =>
    have untokened : ¬ TokenAt ('$' :: '{' :: rest) 0 id := by
      rw [tokenAt_opening_iff, unread]
      simp
    have brace : '$' ∉ ['{'] := by decide
    have later {k : Nat} : TokenAt ('{' :: rest) k id ↔ ∃ j, k = 1 + j ∧ TokenAt rest j id :=
      tokenAt_append_iff brace
    simp only [places, ih, tokenAt_cons_of_not untokened, later]
    constructor
    · rintro ⟨k, rfl, there⟩
      exact ⟨1 + k + 1, by omega, 1 + k, rfl, k, rfl, there⟩
    · rintro ⟨_, rfl, _, rfl, k, rfl, there⟩
      exact ⟨k, by omega, there⟩
  | case3 c rest other ih =>
    have untokened : ¬ TokenAt (c :: rest) 0 id := by
      rw [tokenAt_zero_iff]
      rintro ⟨more, after, same, -⟩
      exact other more (List.cons.inj same).1 (List.cons.inj same).2
    simp only [places, ih, tokenAt_cons_of_not untokened]
    constructor
    · rintro ⟨k, rfl, there⟩
      exact ⟨k + 1, by omega, k, rfl, there⟩
    · rintro ⟨_, rfl, k, rfl, there⟩
      exact ⟨k, by omega, there⟩
  | case4 => simp [places, not_tokenAt_nil]

/-- Reading the pieces of a text decides where its tokens stand. -/
instance (cs : List Char) (place : Nat) (id : String) : Decidable (TokenAt cs place id) :=
  decidable_of_iff ((place, id) ∈ places 0 (pieces cs)) (by rw [mem_places_iff]; simp)

theorem le_of_mem_places (h : (place, id) ∈ places start ps) : start ≤ place := by
  induction ps generalizing start with
  | nil => simp [places] at h
  | cons p rest ih =>
    cases p with
    | character c =>
      have := ih h
      omega
    | token own =>
      rcases List.mem_cons.1 h with same | later
      · obtain ⟨rfl, -⟩ := Prod.mk.inj same
        exact Nat.le_refl _
      · have := ih later
        omega

theorem pairwise_places (start : Nat) (ps : List Piece) :
    (places start ps).Pairwise fun a b => a.1 + width a.2 ≤ b.1 := by
  induction ps generalizing start with
  | nil => exact .nil
  | cons p rest ih =>
    cases p with
    | character c => exact ih (start + 1)
    | token own => exact .cons (fun b member => le_of_mem_places member) (ih (start + width own))

theorem replaced_character {c : Char} {answers : List ((Nat × String) × Option String)}
    (here : cs.drop start = c :: rest) (later : ∀ a ∈ answers, start + 1 ≤ a.1.1) :
    replaced cs start answers = c :: replaced cs (start + 1) answers := by
  have behind : cs.drop (start + 1) = rest := by
    rw [← List.drop_drop, here, List.drop_succ_cons, List.drop_zero]
  cases answers with
  | nil => rw [replaced, replaced, here, behind]
  | cons a more =>
    obtain ⟨⟨place, id⟩, answer⟩ := a
    obtain ⟨k, rfl⟩ : ∃ k, place = start + 1 + k := ⟨place - (start + 1), by
      have := later _ List.mem_cons_self
      simp only at this
      omega⟩
    rw [replaced, replaced, here, behind, show start + 1 + k - start = k + 1 by omega,
      Nat.add_sub_cancel_left, List.take_succ_cons, List.cons_append, List.cons_append]

theorem replaced_token {answer : Option String} {answers : List ((Nat × String) × Option String)} :
    replaced cs start (((start, id), answer) :: answers) =
      (answer.map String.toList).getD (Piece.token id).text ++
        replaced cs (start + width id) answers := by
  rw [replaced, Nat.sub_self, List.take_zero, List.nil_append]

variable [Monad m] [LawfulMonad m] {resolve : String → m (Option String)}

/-- Filling in the pieces of a text asks for its tokens one after another. -/
theorem fillPieces_eq_replaced (whole : cs.drop start = ps.flatMap Piece.text) :
    fillPieces resolve ps = do
      let answers ← (places start ps).mapM fun t => resolve t.2
      return replaced cs start ((places start ps).zip answers) := by
  induction ps generalizing start with
  | nil => simp [fillPieces, places, replaced, whole]
  | cons p rest ih =>
    cases p with
    | character c =>
      have here : cs.drop start = c :: rest.flatMap Piece.text := whole
      have behind : cs.drop (start + 1) = rest.flatMap Piece.text := by
        rw [← List.drop_drop, here, List.drop_succ_cons, List.drop_zero]
      have step (answers : List (Option String)) :
          replaced cs start ((places (start + 1) rest).zip answers) =
            c :: replaced cs (start + 1) ((places (start + 1) rest).zip answers) :=
        replaced_character here fun a member => le_of_mem_places (List.of_mem_zip member).1
      simp [fillPieces, places, ih behind, step]
    | token own =>
      have behind : cs.drop (start + width own) = rest.flatMap Piece.text := by
        rw [← List.drop_drop, whole, List.flatMap_cons]
        exact List.drop_left
      simp only [fillPieces, places, List.mapM_cons, ih behind, bind_pure_comp, map_bind,
        Functor.map_map, List.zip_cons_cons, replaced_token]
      congr 1
      funext answer
      cases answer <;> rfl

theorem fillPieces_of_neverAnswers (never : NeverAnswers resolve) (ps : List Piece) :
    (fun _ => ps.flatMap Piece.text) <$> fillPieces resolve ps = fillPieces resolve ps := by
  induction ps with
  | nil => simp [fillPieces]
  | cons p rest ih =>
    cases p with
    | character c =>
      simp only [fillPieces]
      rw [← ih]
      simp [Piece.text]
    | token own =>
      simp only [fillPieces]
      rw [← never own, ← ih]
      simp

theorem substitute_of_neverAnswers (never : NeverAnswers resolve) (text : String) :
    (fun _ => text) <$> substitute text resolve = substitute text resolve := by
  have filled := fillPieces_of_neverAnswers never (pieces text.toList)
  rw [text_pieces] at filled
  rw [substitute, ← filled]
  simp

/-- Substitution asks for the tokens of a text, none of which overlap, once each and from left to
right, and writes each answer in the place of its token and nothing else. Without answers it
changes nothing, so that a set that fixes nothing needs no substitution. -/
theorem substitute_eq_replaced (text : String) (resolve : String → m (Option String)) :
    (∀ place other id own, TokenAt text.toList place id → TokenAt text.toList other own →
      place = other ∧ id = own ∨ place + width id ≤ other ∨ other + width own ≤ place) ∧
    (∃ tokens : List (Nat × String),
      (∀ place id, (place, id) ∈ tokens ↔ TokenAt text.toList place id) ∧
      tokens.Pairwise (fun a b => a.1 + width a.2 ≤ b.1) ∧
      substitute text resolve = do
        let answers ← tokens.mapM fun t => resolve t.2
        return String.ofList (replaced text.toList 0 (tokens.zip answers))) ∧
    (NeverAnswers resolve → (fun _ => text) <$> substitute text resolve = substitute text resolve) ∧
    ∀ s : OverrideSet, s.apply text = Id.run (substitute text s.get?) := by
  refine ⟨fun _ _ _ _ => TokenAt.apart,
    ⟨places 0 (pieces text.toList), ?members, pairwise_places 0 _, ?asked⟩,
    fun never => substitute_of_neverAnswers never text, ?apply⟩
  case members =>
    intro place id
    rw [mem_places_iff]
    simp
  case asked =>
    have whole : text.toList.drop 0 = (pieces text.toList).flatMap Piece.text :=
      (text_pieces text.toList).symm
    rw [substitute, fillPieces_eq_replaced whole]
    simp
  case apply =>
    intro s
    apply String.toList_inj.1
    rw [OverrideSet.apply_eq]
    change _ = (String.ofList (Id.run (fillPieces (m := Id) s.get? _))).toList
    rw [fillPieces_eq, String.toList_ofList]

/-- A token within an opening, one whose answer looks like a token, and an opening without an id. -/
def nested : String := "${${a}} ä${b}${}$"

/-- Notes what it is asked for, and knows one answer at most. -/
def noted (answer : Option String) (id : String) : StateM (List String) (Option String) := do
  modify (· ++ [id])
  return if id == "a" then answer else none

theorem substitute_nested :
    LawfulMonad (StateM (List String)) ∧
    (∃ tokens : List (Nat × String), (2, "a") ∈ tokens ∧ (9, "b") ∈ tokens ∧
      tokens.Pairwise (fun a b => a.1 + width a.2 ≤ b.1) ∧
      substitute nested (noted (some "${b}")) = do
        let answers ← tokens.mapM fun t => noted (some "${b}") t.2
        return String.ofList (replaced nested.toList 0 (tokens.zip answers))) ∧
    (substitute nested (noted (some "${b}"))).run [] =
      ("${${b}} ä${b}${}$", ["a", "b"]) ∧
    (fun _ => nested) <$> substitute nested (noted none) = substitute nested (noted none) := by
  obtain ⟨-, ⟨tokens, members, apart, asked⟩, -, -⟩ :=
    substitute_eq_replaced nested (noted (some "${b}"))
  have first : decide (TokenAt nested.toList 2 "a") = true := by decide +kernel
  have second : decide (TokenAt nested.toList 9 "b") = true := by decide +kernel
  have ran : Id.run ((substitute nested (noted (some "${b}"))).run []) =
      ("${${b}} ä${b}${}$", ["a", "b"]) := by decide +kernel
  have never : NeverAnswers (noted none) := by
    intro id
    simp [noted]
  exact ⟨inferInstance,
    ⟨tokens, (members _ _).2 (of_decide_eq_true first), (members _ _).2 (of_decide_eq_true second),
      apart, asked⟩,
    ran, (substitute_eq_replaced nested (noted none)).2.2.1 never⟩

end ProductTemplates.Placeholder
