import Mathlib.Data.List.Intervals
import ProductTemplates.Text.Excerpt

/-! The lines of a text, told by what ends them, and the excerpt around a place of the text. The
line of a place is counted by the line feeds in front of it; it is a line of the text unless the
place is the end behind a last line feed. -/
namespace ProductTemplates.Text

structure Line where
  content : List Char
  ending : List Char := []
deriving Repr, DecidableEq

namespace Line

def whole (l : Line) : List Char := l.content ++ l.ending

/-- Whether the line is ended by a line feed, to which a carriage return in front of it belongs. -/
structure IsEnded (l : Line) : Prop where
  unbroken : '\n' ∉ l.content
  ending : l.ending = ['\n'] ∧ l.content.getLast? ≠ some '\r' ∨ l.ending = ['\r', '\n']

theorem IsEnded.whole_eq {l : Line} (ended : l.IsEnded) :
    ∃ body, l.whole = body ++ ['\n'] ∧ '\n' ∉ body := by
  obtain ⟨unbroken, ⟨feed, -⟩ | feed⟩ := ended
  · exact ⟨l.content, by rw [whole, feed], unbroken⟩
  · exact ⟨l.content ++ ['\r'], by simp [whole, feed], by simp [unbroken]⟩

end Line

/-- The lines that a text consists of. Only the last may be without an end, and not if it is
empty. -/
inductive Lined : List Char → List Line → Prop
  | nothing : Lined [] []
  | last {content : List Char} (nonempty : content ≠ []) (unbroken : '\n' ∉ content) :
    Lined content [{ content }]
  | cons {l : Line} {rest : List Char} {more : List Line} (ended : l.IsEnded)
    (below : Lined rest more) : Lined (l.whole ++ rest) (l :: more)

variable {c : Char} {cs before after rest : List Char} {l : Line} {ls more : List Line}

/-- A character in front belongs to the first line. -/
theorem Lined.prepend (lined : Lined rest ls) (other : c ≠ '\n') :
    ∃ ls, Lined (c :: rest) ls := by
  cases lined with
  | nothing => exact ⟨_, .last (by simp) (by simpa using Ne.symm other)⟩
  | last _ unbroken => exact ⟨_, .last (by simp) (by simp [unbroken, Ne.symm other])⟩
  | @cons l rest more ended below =>
    obtain ⟨content, ending⟩ := l
    obtain ⟨unbroken, ⟨rfl, apart⟩ | rfl⟩ := ended
    · by_cases joined : content = [] ∧ c = '\r'
      · obtain ⟨rfl, rfl⟩ := joined
        exact ⟨_, .cons (l := ⟨[], ['\r', '\n']⟩) ⟨by simp, .inr rfl⟩ below⟩
      · have still : (c :: content).getLast? ≠ some '\r' := by
          cases content with
          | nil => simpa using joined
          | cons d others => simpa using apart
        exact ⟨_, .cons (l := ⟨c :: content, ['\n']⟩)
          ⟨by simp [unbroken, Ne.symm other], .inl ⟨rfl, still⟩⟩ below⟩
    · exact ⟨_, .cons (l := ⟨c :: content, ['\r', '\n']⟩)
        ⟨by simp [unbroken, Ne.symm other], .inr rfl⟩ below⟩

theorem exists_lined (cs : List Char) : ∃ ls, Lined cs ls := by
  induction cs with
  | nil => exact ⟨[], .nothing⟩
  | cons c rest ih =>
    obtain ⟨ls, lined⟩ := ih
    by_cases feed : c = '\n'
    · subst feed
      exact ⟨_, .cons (l := ⟨[], ['\n']⟩) ⟨by simp, .inl ⟨rfl, by simp⟩⟩ lined⟩
    · exact lined.prepend feed

theorem lines_cons (other : c ≠ '\n') (apart : c = '\r' → rest.head? ≠ some '\n') :
    lines (c :: rest) = match lines rest with
      | [] => [[c]]
      | line :: more => (c :: line) :: more := by
  rw [lines.eq_def]
  split
  · contradiction
  · next same => exact absurd (List.cons.inj same).1 other
  · next same =>
    obtain ⟨rfl, rfl⟩ := List.cons.inj same
    exact absurd rfl (apart rfl)
  · next same =>
    obtain ⟨rfl, rfl⟩ := List.cons.inj same
    rfl

theorem lines_unbroken (nonempty : cs ≠ []) (unbroken : '\n' ∉ cs) : lines cs = [cs] := by
  induction cs with
  | nil => contradiction
  | cons c rest ih =>
    rw [List.mem_cons, not_or] at unbroken
    have apart : rest.head? ≠ some '\n' :=
      fun first => unbroken.2 (List.mem_of_head? first)
    rw [lines_cons (Ne.symm unbroken.1) fun _ => apart]
    cases rest with
    | nil => rfl
    | cons d others => rw [ih (by simp) unbroken.2]

theorem lines_whole (ended : l.IsEnded) (rest : List Char) :
    lines (l.whole ++ rest) = l.content :: lines rest := by
  obtain ⟨content, ending⟩ := l
  obtain ⟨unbroken, ends⟩ := ended
  rw [Line.whole, List.append_assoc]
  dsimp only at unbroken ends ⊢
  induction content with
  | nil => obtain ⟨rfl, -⟩ | rfl := ends <;> rfl
  | cons c others ih =>
    rw [List.mem_cons, not_or] at unbroken
    have tail : lines (others ++ (ending ++ rest)) = others :: lines rest := by
      refine ih unbroken.2 (ends.imp_left fun ⟨feed, apart⟩ => ⟨feed, ?_⟩)
      cases others with
      | nil => simp
      | cons d more => simpa using apart
    have apart : c = '\r' → (others ++ (ending ++ rest)).head? ≠ some '\n' := by
      rintro rfl
      cases others with
      | nil =>
        obtain ⟨-, apart⟩ | rfl := ends
        · exact absurd rfl apart
        · simp
      | cons d more =>
        rw [List.mem_cons, not_or] at unbroken
        simpa using Ne.symm unbroken.2.1
    rw [List.cons_append, lines_cons (Ne.symm unbroken.1) apart, tail]

theorem lines_of_lined (lined : Lined cs ls) : lines cs = ls.map (·.content) := by
  induction lined with
  | nothing => rfl
  | last nonempty unbroken => exact lines_unbroken nonempty unbroken
  | cons ended _ ih => rw [lines_whole ended, ih, List.map_cons]

/-- The number of the line on which a text goes on: one more than the line feeds in it. -/
def lineAfter (before : List Char) : Nat := before.count '\n' + 1

theorem lineAfter_pos (before : List Char) : 0 < lineAfter before := Nat.succ_pos _

/-- Whether a text goes through all lines in front of line `n` and stops in that line or in what
ends it. -/
def StopsIn (before : List Char) (ls : List Line) (n : Nat) : Prop :=
  ∃ l part, ls[n - 1]? = some l ∧ before = (ls.take (n - 1)).flatMap Line.whole ++ part ∧
    part <+: l.whole ∧ '\n' ∉ part

/-- A cut of a text is in front of its first line feed or behind it. -/
theorem cut_cases {body : List Char} (same : before ++ after = body ++ '\n' :: rest) :
    before <+: body ∨ ∃ more, before = body ++ '\n' :: more ∧ rest = more ++ after := by
  obtain ⟨gap, rfl, -⟩ | ⟨gap, rfl, behind⟩ := List.append_eq_append_iff.1 same
  · exact .inl (List.prefix_append _ _)
  · cases gap with
    | nil => exact .inl (by simp)
    | cons c more =>
      obtain ⟨rfl, rfl⟩ := List.cons.inj behind
      exact .inr ⟨more, rfl, rfl⟩

theorem Lined.locate (lined : Lined cs ls) (same : before ++ after = cs) :
    lineAfter before ≤ ls.length + 1 ∧
      (lineAfter before ≤ ls.length → StopsIn before ls (lineAfter before)) := by
  induction lined generalizing before with
  | nothing =>
    obtain ⟨rfl, rfl⟩ := List.append_eq_nil_iff.1 same
    simp [lineAfter]
  | last nonempty unbroken =>
    subst same
    have none : before.count '\n' = 0 :=
      List.count_eq_zero.2 fun member => unbroken (List.mem_append_left _ member)
    rw [lineAfter, none]
    refine ⟨by simp, fun _ => ⟨_, before, rfl, rfl, ?_, List.count_eq_zero.1 none⟩⟩
    simp [Line.whole]
  | @cons l rest more ended below ih =>
    obtain ⟨body, whole, unbroken⟩ := ended.whole_eq
    rw [whole, List.append_assoc, List.singleton_append] at same
    obtain inside | ⟨passed, rfl, split⟩ := cut_cases same
    · have none : before.count '\n' = 0 :=
        List.count_eq_zero.2 fun member => unbroken (inside.subset member)
      rw [lineAfter, none]
      refine ⟨by simp, fun _ => ⟨l, before, rfl, rfl, ?_, List.count_eq_zero.1 none⟩⟩
      rw [whole]
      exact inside.trans (List.prefix_append _ _)
    · obtain ⟨le, stops⟩ := ih split.symm
      have next : lineAfter (body ++ '\n' :: passed) = lineAfter passed + 1 := by
        simp [lineAfter, List.count_eq_zero.2 unbroken]
      rw [next, List.length_cons]
      refine ⟨Nat.succ_le_succ le, fun inside => ?_⟩
      obtain ⟨l', part, found, cut, within, clean⟩ := stops (Nat.le_of_succ_le_succ inside)
      refine ⟨l', part, found, ?_, within, clean⟩
      calc body ++ '\n' :: passed
        _ = l.whole ++ passed := by rw [whole, List.append_assoc, List.singleton_append]
        _ = l.whole ++ ((more.take (lineAfter passed - 1)).flatMap Line.whole ++ part) := by
          rw [← cut]
        _ = ((l :: more).take (lineAfter passed + 1 - 1)).flatMap Line.whole ++ part :=
          (List.append_assoc ..).symm

/-- What stands between two places of a list, if these are in order and within the list. -/
def slice? {α : Type} (first last : Nat) (xs : List α) : Option (List α) :=
  if first ≤ last ∧ last ≤ xs.length then some ((xs.take last).drop first) else none

theorem contents_window (n : Nat) (texts : List (List Char)) :
    (window n texts).map (·.2) = (texts.take (min (n + 1) texts.length)).drop (n - 2) := by
  simp [window, Function.comp_def]

theorem numbers_window (n : Nat) (texts : List (List Char)) :
    (window n texts).map (·.1) = List.Ico (max 1 (n - 1)) (min (n + 1) texts.length + 1) := by
  have first : n - 2 + 1 = max 1 (n - 1) := by omega
  have count : min (n + 1) texts.length - (n - 2) =
      min (n + 1) texts.length + 1 - max 1 (n - 1) := by omega
  calc (window n texts).map (·.1)
    _ = (((texts.take (min (n + 1) texts.length)).drop (n - 2)).zipIdx (n - 2 + 1)).map (·.2) := by
      simp [window, Function.comp_def]
    _ = List.Ico (max 1 (n - 1)) (min (n + 1) texts.length + 1) := by
      rw [List.zipIdx_map_snd, List.length_drop, List.length_take, List.Ico, first, ← count]
      rw [Nat.min_eq_left (Nat.min_le_right _ _)]

theorem mem_window {n number : Nat} {content : List Char} {texts : List (List Char)}
    (shown : (number, content) ∈ window n texts) : texts[number - 1]? = some content := by
  simp only [window, List.mem_map, Prod.mk.injEq] at shown
  obtain ⟨⟨content, number⟩, listed, rfl, rfl⟩ := shown
  obtain ⟨above, found⟩ := List.mk_mem_zipIdx_iff_le_and_getElem?_sub.1 listed
  have place : n - 2 + (number - (n - 2 + 1)) = number - 1 := by omega
  rw [List.getElem?_drop, List.getElem?_take, place] at found
  split at found
  · exact found
  · contradiction

def lineAt {text : String} (place : text.Pos) : Nat := lineAfter (text.sliceTo place).copy.toList

/-- What the excerpt of a text with the lines `ls` shows around line `n`, row by row. -/
structure ShowsAround (ls : List Line) (n : Nat) (rows : List (Nat × List Char)) : Prop where
  /-- The lines from the one in front to the one behind, as far as there are such lines. -/
  numbers : rows.map (·.1) = List.Ico (max 1 (n - 1)) (min (n + 1) ls.length + 1)
  /-- All of them are there, without a place being asked for that is not. -/
  slice : slice? (min (n - 2) (min (n + 1) ls.length)) (min (n + 1) ls.length)
    (ls.map (·.content)) = some (rows.map (·.2))
  contents : ∀ row ∈ rows, (ls[row.1 - 1]?).map (·.content) = some row.2
  /-- Line `n` is among them if there is one. -/
  marked : n ∈ rows.map (·.1) ↔ n ≤ ls.length

theorem showsAround_window {n : Nat} (positive : 0 < n) (below : n ≤ ls.length + 1) :
    ShowsAround ls n (window n (ls.map (·.content))) where
  numbers := by rw [numbers_window, List.length_map]
  slice := by
    have first : min (n - 2) (min (n + 1) ls.length) = n - 2 := by omega
    rw [contents_window, slice?, List.length_map, first, if_pos (by omega)]
  contents := by
    rintro ⟨number, content⟩ shown
    rw [← List.getElem?_map]
    exact mem_window shown
  marked := by
    rw [numbers_window, List.length_map, List.Ico.mem]
    omega

/-- Whether the line of a place is shown, marked, with its neighbours. A place behind a last line
feed stands on no line, and one past the last is then counted. -/
def ShowsLineOf {text : String} (place : text.Pos) (shown : String) : Prop :=
  (∃ ls, Lined text.toList ls) ∧ ∀ ls, Lined text.toList ls → ∃ rows,
    ShowsAround ls (lineAt place) rows ∧
    shown = "\n".intercalate (rows.map fun (number, content) =>
      (if number = lineAt place then ">>> " else "    ") ++
        padLeft 4 (Decimal.naturalText number) ++ " | " ++ String.ofList content) ∧
    lineAt place ≤ ls.length + 1 ∧
    (lineAt place ≤ ls.length → StopsIn (text.sliceTo place).copy.toList ls (lineAt place))

theorem showsLineOf_excerpt {text : String} (place : text.Pos) :
    ShowsLineOf place (excerpt text (lineAt place)) := by
  refine ⟨exists_lined text.toList, fun ls lined => ?_⟩
  have cut : (text.sliceTo place).copy.toList ++ (text.sliceFrom place).copy.toList =
      text.toList := by
    rw [← String.toList_append, String.sliceTo_append_sliceFrom]
  obtain ⟨below, stops⟩ := lined.locate cut
  refine ⟨window (lineAt place) (ls.map (·.content)), ?_, ?_, ?_, ?_⟩
  · exact showsAround_window (lineAfter_pos _) below
  · rw [excerpt, lines_of_lined lined]
    simp only [excerptLine, decide_eq_true_eq]
  · exact below
  · exact stops

/-- The end of a text behind its last line feed. -/
example : excerpt "[cache]\n=\n" 3 = "       2 | =" := by rfl

theorem exists_place {text : String} (same : before ++ after = text.toList) :
    ∃ place : text.Pos, lineAt place = lineAfter before := by
  have cut : text = String.ofList before ++ String.ofList after := by
    rw [← String.ofList_append, same, String.ofList_toList]
  refine ⟨String.Pos.ofEqAppend cut, ?_⟩
  rw [lineAt, (String.Pos.splits_ofEqAppend cut).copy_sliceTo_eq, String.toList_ofList]

end ProductTemplates.Text
