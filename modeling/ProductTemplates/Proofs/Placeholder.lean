import ProductTemplates.Proofs.OverrideSet

/-! Substitution in texts whose dollar signs all begin tokens, by values without dollar signs: what
is left over are tokens again, so that substituting once more is substituting both at once. -/
namespace ProductTemplates

namespace Placeholder

variable {cs rest : List Char} {id : String} {f g : String → Option String} {ps : List Piece}

/-- Whether every dollar sign begins a token. -/
def IsTidy (cs : List Char) : Prop :=
  ∀ front rest, cs = front ++ '$' :: rest → ∃ id after, id ≠ [] ∧ (∀ c ∈ id, isIdentifier c = true) ∧
    rest = '{' :: id ++ '}' :: after

/-- What stands for a piece if some ids have a value. -/
def filling (f : String → Option String) : Piece → List Char
  | .character c => [c]
  | .token id => ((f id).map String.toList).getD (Piece.token id).text

/-- The text that the pieces make if some ids have a value. -/
def filled (f : String → Option String) (ps : List Piece) : List Char := ps.flatMap (filling f)

theorem identifier?_eq_some_iff : identifier? cs = some (id, rest) ↔
    id.toList ≠ [] ∧ (∀ c ∈ id.toList, isIdentifier c = true) ∧
      cs = id.toList ++ '}' :: rest := by
  have ends : ¬ isIdentifier '}' = true := by decide
  constructor
  · intro h
    have whole := List.takeWhile_append_dropWhile (p := isIdentifier) (l := cs)
    have all := List.all_takeWhile (p := isIdentifier) (l := cs)
    unfold identifier? at h
    split at h
    · contradiction
    · next after nonempty =>
      obtain ⟨rfl, rfl⟩ := Prod.mk.inj (Option.some.inj h)
      rw [after] at whole
      rw [String.toList_ofList]
      exact ⟨nonempty, List.all_eq_true.1 all, whole.symm⟩
    · contradiction
  · rintro ⟨nonempty, all, rfl⟩
    have taken : (id.toList ++ '}' :: rest).takeWhile isIdentifier = id.toList := by
      rw [List.takeWhile_append_of_pos all, List.takeWhile_cons_of_neg ends, List.append_nil]
    have left : (id.toList ++ '}' :: rest).dropWhile isIdentifier = '}' :: rest := by
      rw [List.dropWhile_append_of_pos all, List.dropWhile_cons_of_neg ends]
    unfold identifier?
    rw [taken, left]
    split
    · next empty => exact absurd empty nonempty
    · next same _ =>
      obtain rfl := (List.cons.inj same).2
      rw [String.ofList_toList]
    · next other => exact absurd rfl (other _)

theorem pieces_token (nonempty : id.toList ≠ []) (all : ∀ c ∈ id.toList, isIdentifier c = true)
    (rest : List Char) : pieces ((Piece.token id).text ++ rest) = .token id :: pieces rest := by
  have found : identifier? (id.toList ++ '}' :: rest) = some (id, rest) :=
    identifier?_eq_some_iff.2 ⟨nonempty, all, rfl⟩
  have letters : (Piece.token id).text ++ rest = '$' :: '{' :: (id.toList ++ '}' :: rest) := by
    simp [Piece.text]
  rw [letters, pieces]
  split
  · next same =>
    obtain ⟨rfl, rfl⟩ := Prod.mk.inj (Option.some.inj (found.symm.trans same))
    rfl
  · next missing => simp [found] at missing

theorem pieces_character {c : Char} (plain : c ≠ '$') (rest : List Char) :
    pieces (c :: rest) = .character c :: pieces rest := by
  rw [pieces]
  rintro _ same
  exact absurd same plain

theorem pieces_append (plain : '$' ∉ cs) (rest : List Char) :
    pieces (cs ++ rest) = cs.map .character ++ pieces rest := by
  induction cs with
  | nil => rfl
  | cons c more ih =>
    rw [List.mem_cons, not_or] at plain
    rw [List.cons_append, pieces_character (Ne.symm plain.1), ih plain.2]
    rfl

theorem text_pieces (cs : List Char) : (pieces cs).flatMap Piece.text = cs := by
  fun_induction pieces cs with
  | case1 rest id after found ih =>
    obtain ⟨-, -, rfl⟩ := identifier?_eq_some_iff.1 found
    simp [Piece.text, ih]
  | case2 rest _ ih => simp [Piece.text, ih]
  | case3 c rest _ ih => simp [Piece.text, ih]
  | case4 => rfl

/-- A tidy text is made of tokens and of characters other than the dollar sign. -/
theorem IsTidy.pieces_induction {motive : List Char → Prop} (tidy : IsTidy cs) (nil : motive [])
    (character : ∀ c rest, c ≠ '$' → motive rest → motive (c :: rest))
    (token : ∀ id rest, id.toList ≠ [] → (∀ c ∈ id.toList, isIdentifier c = true) → motive rest →
      motive ((Piece.token id).text ++ rest)) : motive cs := by
  induction size : cs.length using Nat.strongRecOn generalizing cs with
  | ind n ih =>
    cases cs with
    | nil => exact nil
    | cons c rest =>
      have later {front after : List Char} (same : c :: rest = front ++ after) : IsTidy after := by
        intro before behind split
        apply tidy (front ++ before) behind
        rw [same, split, List.append_assoc]
      by_cases dollar : c = '$'
      · obtain ⟨id, after, nonempty, all, same⟩ := tidy [] rest (by rw [dollar]; rfl)
        have letters : c :: rest = (Piece.token (String.ofList id)).text ++ after := by
          simp [Piece.text, dollar, same]
        have shorter : after.length < n := by
          rw [← size, letters, List.length_append, Nat.lt_add_left_iff_pos]
          simp [Piece.text]
        rw [letters]
        apply token
        · simpa using nonempty
        · simpa using all
        · exact ih _ shorter (later letters) rfl
      · exact character c rest dollar (ih _ (by simp [← size]) (@later [c] rest rfl) rfl)

theorem isTidy_iff : IsTidy cs ↔ Piece.character '$' ∉ pieces cs := by
  constructor
  · intro tidy
    refine tidy.pieces_induction (motive := fun cs => Piece.character '$' ∉ pieces cs)
      ?nil ?character ?token
    case nil => simp [pieces]
    case character =>
      intro c rest other ih
      rw [pieces_character other, List.mem_cons, not_or]
      exact ⟨by simpa using Ne.symm other, ih⟩
    case token =>
      intro id rest nonempty all ih
      rw [pieces_token nonempty all, List.mem_cons, not_or]
      exact ⟨by simp, ih⟩
  · intro absent
    fun_induction pieces cs with
    | case1 rest id after found ih =>
      obtain ⟨nonempty, all, rfl⟩ := identifier?_eq_some_iff.1 found
      have inner : '$' ∉ '{' :: id.toList ++ ['}'] := by
        have mark : isIdentifier '$' = false := by decide
        have other : '$' ∉ id.toList := by
          intro member
          rw [all _ member] at mark
          contradiction
        simpa using other
      rw [List.mem_cons, not_or] at absent
      intro front later same
      cases front with
      | nil =>
        rw [List.nil_append, List.cons.injEq] at same
        exact ⟨id.toList, after, nonempty, all, by rw [← same.2, List.cons_append]⟩
      | cons c front =>
        have text : '{' :: id.toList ++ ['}'] ++ after = front ++ '$' :: later := by
          simpa using (List.cons.inj same).2
        rcases List.append_eq_append_iff.1 text with ⟨gap, -, behind⟩ | ⟨gap, within, behind⟩
        · exact ih absent.2 gap later behind
        · cases gap with
          | nil => exact ih absent.2 [] later behind.symm
          | cons d gap =>
            obtain rfl := (List.cons.inj behind).1
            exact absurd (within ▸ by simp) inner
    | case2 => simp at absent
    | case3 c rest _ ih =>
      rw [List.mem_cons, not_or] at absent
      intro front later same
      cases front with
      | nil => simp [(List.cons.inj same).1] at absent
      | cons d front => exact ih absent.2 front later (List.cons.inj same).2
    | case4 => simp [IsTidy]

instance (cs : List Char) : Decidable (IsTidy cs) := decidable_of_iff _ isTidy_iff.symm

@[simp] theorem filled_nil : filled f [] = [] := rfl

@[simp] theorem filled_cons (p : Piece) (ps : List Piece) :
    filled f (p :: ps) = filling f p ++ filled f ps := rfl

theorem filled_append (ps qs : List Piece) : filled f (ps ++ qs) = filled f ps ++ filled f qs :=
  List.flatMap_append

theorem filled_characters (cs : List Char) : filled f (cs.map .character) = cs := by
  induction cs with
  | nil => rfl
  | cons c rest ih => rw [List.map_cons, filled_cons, ih]; rfl

theorem filled_none (cs : List Char) : filled (fun _ => none) (pieces cs) = cs := by
  have same : filling (fun _ => none) = Piece.text := by
    funext p
    cases p <;> rfl
  rw [filled, same, text_pieces]

theorem fillPieces_eq (f : String → Option String) (ps : List Piece) :
    Id.run (fillPieces (m := Id) f ps) = filled f ps := by
  induction ps with
  | nil => rfl
  | cons p rest ih =>
    cases p with
    | character c => exact congrArg (c :: ·) ih
    | token id =>
      refine Eq.trans ?_ (congrArg (filling f (.token id) ++ ·) ih)
      rw [filling, fillPieces]
      cases f id <;> rfl

/-- Filling in what was filled once fills both in at once. -/
theorem filled_filled (tidy : IsTidy cs) (plain : ∀ id value, f id = some value → '$' ∉ value.toList) :
    filled g (pieces (filled f (pieces cs))) =
      filled (fun id => (f id).or (g id)) (pieces cs) := by
  refine tidy.pieces_induction (motive := fun cs => filled g (pieces (filled f (pieces cs))) =
    filled (fun id => (f id).or (g id)) (pieces cs)) ?nil ?character ?token
  case nil => rw [pieces, filled_nil, filled_nil, pieces, filled_nil]
  case character =>
    intro c rest other ih
    simp only [pieces_character other, filled_cons, filling, List.singleton_append, ih]
  case token =>
    intro id rest nonempty all ih
    rw [pieces_token nonempty all, filled_cons, filled_cons]
    cases known : f id with
    | some value =>
      have written : filling f (.token id) = value.toList := by simp [filling, known]
      rw [written, pieces_append (plain id value known), filled_append, filled_characters, ih]
      simp [filling, known]
    | none =>
      have written : filling f (.token id) = (Piece.token id).text := by simp [filling, known]
      rw [written, pieces_token nonempty all, filled_cons, ih]
      simp [filling, known]

/-- The tokens left over are those of the text that have no value. -/
theorem token_mem_pieces_filled_iff (tidy : IsTidy cs)
    (plain : ∀ id value, f id = some value → '$' ∉ value.toList) :
    Piece.token id ∈ pieces (filled f (pieces cs)) ↔ Piece.token id ∈ pieces cs ∧ f id = none := by
  refine tidy.pieces_induction (motive := fun cs => Piece.token id ∈ pieces (filled f (pieces cs)) ↔
    Piece.token id ∈ pieces cs ∧ f id = none) ?nil ?character ?token
  case nil => simp [pieces]
  case character =>
    intro c rest other ih
    rw [pieces_character other, filled_cons, filling, List.singleton_append, pieces_character other,
      List.mem_cons, List.mem_cons, ih]
    simp
  case token =>
    intro own rest nonempty all ih
    rw [pieces_token nonempty all, filled_cons]
    cases known : f own with
    | some value =>
      have written : filling f (.token own) = value.toList := by simp [filling, known]
      have plainly : Piece.token id ∉ value.toList.map .character := by simp
      rw [written, pieces_append (plain own value known), List.mem_append, or_iff_right plainly, ih]
      constructor
      · rintro ⟨later, unfixed⟩
        exact ⟨List.mem_cons_of_mem _ later, unfixed⟩
      · rintro ⟨member, unfixed⟩
        rcases List.mem_cons.1 member with same | later
        · obtain rfl := Piece.token.inj same
          simp [known] at unfixed
        · exact ⟨later, unfixed⟩
    | none =>
      have written : filling f (.token own) = (Piece.token own).text := by simp [filling, known]
      rw [written, pieces_token nonempty all, List.mem_cons, List.mem_cons, ih, or_and_right]
      refine or_congr_left ⟨fun same => ⟨same, ?_⟩, fun h => h.1⟩
      obtain rfl := Piece.token.inj same
      exact known

/-- Whether a token for an id stands in a text. -/
def Mentions (text id : String) : Prop := Piece.token id ∈ pieces text.toList

instance (text id : String) : Decidable (Mentions text id) :=
  inferInstanceAs (Decidable (Piece.token id ∈ pieces text.toList))

end Placeholder

namespace OverrideSet

open Placeholder

variable {s t u : OverrideSet} {text id : String}

theorem apply_eq (s : OverrideSet) (text : String) :
    (s.apply text).toList = filled s.get? (pieces text.toList) := by
  unfold apply
  split
  · next empty =>
    have unanswered : s.get? = fun _ => none := by
      funext id
      simp [get?, List.isEmpty_iff.1 empty]
    rw [unanswered, filled_none]
  · change (String.ofList (Id.run (fillPieces (m := Id) s.get? _))).toList = _
    rw [fillPieces_eq, String.toList_ofList]

theorem get?_plain (plain : ∀ e ∈ s.entries, '$' ∉ e.value.toList) (id value : String)
    (fixed : s.get? id = some value) : '$' ∉ value.toList := by
  obtain ⟨e, found, rfl⟩ := Option.map_eq_some_iff.1 fixed
  exact plain e (List.mem_of_find?_eq_some found)

theorem mentions_apply_iff (tidy : IsTidy text.toList)
    (plain : ∀ e ∈ s.entries, '$' ∉ e.value.toList) :
    Mentions (s.apply text) id ↔ Mentions text id ∧ s.contains id = false := by
  rw [Mentions, apply_eq, token_mem_pieces_filled_iff tidy (get?_plain plain), get?_eq_none_iff,
    Mentions]

/-- One set after another is a third, if the third fixes what either fixes, the first one first. -/
theorem apply_apply (tidy : IsTidy text.toList) (plain : ∀ e ∈ s.entries, '$' ∉ e.value.toList)
    (both : ∀ id, (s.get? id).or (t.get? id) = u.get? id) :
    t.apply (s.apply text) = u.apply text := by
  apply String.toList_inj.1
  rw [apply_eq, apply_eq, apply_eq, filled_filled tidy (get?_plain plain)]
  congr 1
  funext id
  exact both id

end OverrideSet
end ProductTemplates
