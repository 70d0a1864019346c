import Mathlib.Data.List.TakeWhile
import ProductTemplates.Proofs.Toml.Value

/-! A scalar without quotes ends on the line on which it begins: no reader takes a line feed off the
characters. -/
namespace ProductTemplates.Toml

open Decimal

variable {α β : Type} {start cs more rest after : List Char} {c : Char} {k radix : Nat}

/-- Whether characters are left of others when some are taken that hold no line feed. -/
def OnLine (start after : List Char) : Prop := ∃ passed, start = passed ++ after ∧ '\n' ∉ passed

namespace OnLine

theorem refl (cs : List Char) : OnLine cs cs := ⟨[], rfl, by simp⟩

theorem trans (first : OnLine start cs) (second : OnLine cs after) : OnLine start after := by
  obtain ⟨here, rfl, clean⟩ := first
  obtain ⟨there, rfl, clean'⟩ := second
  exact ⟨here ++ there, (List.append_assoc ..).symm, by simp [clean, clean']⟩

theorem past (word : List Char) (here : OnLine start (word ++ rest)) (clean : '\n' ∉ word) :
    OnLine start rest :=
  here.trans ⟨word, rfl, clean⟩

theorem next (here : OnLine start (c :: rest)) (other : c ≠ '\n') : OnLine start rest :=
  past [c] here (by simpa using Ne.symm other)

theorem drop (here : OnLine start cs) (clean : '\n' ∉ cs.take k) : OnLine start (cs.drop k) :=
  here.trans ⟨cs.take k, (List.take_append_drop k cs).symm, clean⟩

theorem dropWhile {test : Char → Bool} (here : OnLine start cs) (other : test '\n' = false) :
    OnLine start (cs.dropWhile test) := by
  refine here.trans ⟨cs.takeWhile test, List.takeWhile_append_dropWhile.symm, fun member => ?_⟩
  rw [List.mem_takeWhile_imp member] at other
  contradiction

end OnLine

/-- Whether what is read, if anything, leaves characters of the same line. -/
def StaysOnLine (start : List Char) (left : α → List Char) (r : Option α) : Prop :=
  ∀ x ∈ r, OnLine start (left x)

namespace StaysOnLine

variable {left : α → List Char} {left' : β → List Char} {r : Option α} {f : α → Option β}

theorem none : StaysOnLine start left none := fun _ found => by contradiction

theorem some {x : α} (here : OnLine start (left x)) : StaysOnLine start left (some x) := by
  intro y same
  obtain rfl := Option.some.inj same
  exact here

theorem bind (first : StaysOnLine start left r)
    (next : ∀ x, OnLine start (left x) → StaysOnLine start left' (f x)) :
    StaysOnLine start left' (r >>= f) := by
  intro y found
  obtain ⟨x, here, there⟩ := Option.bind_eq_some_iff.1 found
  exact next x (first x here) y there

theorem bind_look (next : ∀ x, StaysOnLine start left' (f x)) :
    StaysOnLine start left' (r >>= f) := by
  intro y found
  obtain ⟨x, -, there⟩ := Option.bind_eq_some_iff.1 found
  exact next x y there

theorem map {g : α → β} (first : StaysOnLine start left r)
    (same : ∀ x, OnLine start (left x) → OnLine start (left' (g x))) :
    StaysOnLine start left' (r.map g) := by
  intro y found
  obtain ⟨x, here, rfl⟩ := Option.map_eq_some_iff.1 found
  exact same x (first x here)

theorem orElse {r' : Option α} (first : StaysOnLine start left r)
    (second : StaysOnLine start left r') : StaysOnLine start left (r <|> r') := by
  cases r with
  | none => exact second
  | some x => exact first

theorem ite {p : Prop} [Decidable p] {r' : Option α} (yes : StaysOnLine start left r)
    (no : StaysOnLine start left r') : StaysOnLine start left (if p then r else r') := by
  split
  · exact yes
  · exact no

end StaysOnLine

theorem digitValue?_feed (radix : Nat) : digitValue? radix '\n' = none := by
  simp [digitValue?]

theorem feed_not_mem_of_natural? {n : Nat} (h : natural? radix cs = some n) : '\n' ∉ cs := by
  intro member
  have known := isSome_digitValue?_of_natural? h _ member
  rw [digitValue?_feed] at known
  contradiction

theorem staysOnLine_digitRun? (afterDigit : Bool) (here : OnLine start cs) :
    StaysOnLine start Prod.snd (digitRun? radix afterDigit cs) := by
  induction cs generalizing afterDigit with
  | nil =>
    rw [digitRun?]
    split
    · exact .some here
    · exact .none
  | cons c rest ih =>
    rw [digitRun?]
    split
    · next known =>
      have other : c ≠ '\n' := by
        rintro rfl
        rw [digitValue?_feed] at known
        contradiction
      exact .bind (ih true (here.next other)) fun _ there => .some there
    · split
      · exact .none
      · split
        · next mark =>
          obtain rfl : c = '_' := by simpa using mark
          exact ih false (here.next (by decide))
        · exact .some here

theorem staysOnLine_digits? (here : OnLine start cs) :
    StaysOnLine start Prod.snd (digits? radix cs) := staysOnLine_digitRun? false here

theorem staysOnLine_wholeDigits? (here : OnLine start cs) :
    StaysOnLine start Prod.snd (wholeDigits? cs) := by
  refine .bind (staysOnLine_digits? here) fun (digits, after) there => ?_
  dsimp only
  split
  · exact .none
  · exact .some there

theorem onLine_splitSign (here : OnLine start cs) : OnLine start (splitSign cs).2 := by
  unfold splitSign
  split
  · exact here.next (by decide)
  · exact here.next (by decide)
  · exact here

theorem staysOnLine_integer? (here : OnLine start cs) :
    StaysOnLine start Prod.snd (integer? cs) := by
  unfold integer?
  extract_lets marked sized
  have stays_sized (found : Int × List Char) (there : OnLine start found.2) :
      StaysOnLine start Prod.snd (sized found) := .ite (.some there) .none
  have stays_marked {radix : Nat} {rest : List Char} (here : OnLine start rest) :
      StaysOnLine start Prod.snd (marked radix rest) :=
    .bind (staysOnLine_digits? here) fun _ there => .bind_look fun _ => .some there
  split
  · exact .bind (stays_marked (.past ['0', 'x'] here (by decide))) stays_sized
  · exact .bind (stays_marked (.past ['0', 'o'] here (by decide))) stays_sized
  · exact .bind (stays_marked (.past ['0', 'b'] here (by decide))) stays_sized
  · exact .bind (staysOnLine_wholeDigits? (onLine_splitSign here)) fun _ there =>
      .bind_look fun _ => .bind (.some there) stays_sized

theorem staysOnLine_pointDigits? (here : OnLine start cs) :
    StaysOnLine start Prod.snd (pointDigits? cs) := by
  unfold pointDigits?
  split
  · exact staysOnLine_digits? (here.next (by decide))
  · exact .some here

theorem staysOnLine_power? (here : OnLine start cs) : StaysOnLine start Prod.snd (power? cs) := by
  unfold power?
  extract_lets signed
  have stays_signed {rest : List Char} (here : OnLine start rest) :
      StaysOnLine start Prod.snd (signed rest) :=
    .bind (staysOnLine_digits? (onLine_splitSign here)) fun _ there =>
      .bind_look fun _ => .some there
  split
  · exact stays_signed (here.next (by decide))
  · exact stays_signed (here.next (by decide))
  · exact .some here

theorem staysOnLine_float? (here : OnLine start cs) : StaysOnLine start Prod.snd (float? cs) := by
  unfold float?
  have unsigned := onLine_splitSign here
  dsimp only
  split
  · next same =>
    rw [same] at unsigned
    exact .some (.past ['i', 'n', 'f'] unsigned (by decide))
  · next same =>
    rw [same] at unsigned
    exact .some (.past ['n', 'a', 'n'] unsigned (by decide))
  · refine .bind (staysOnLine_wholeDigits? unsigned) fun _ whole => ?_
    refine .bind (staysOnLine_pointDigits? whole) fun _ part => ?_
    refine .bind (staysOnLine_power? part) fun _ there => ?_
    exact .ite (.bind_look fun _ => .bind_look fun _ => .ite .none (.some there))
      (.bind_look fun _ => .ite .none (.some there))

theorem staysOnLine_field? (here : OnLine start cs) :
    StaysOnLine start Prod.snd (field? k cs) := by
  unfold field?
  extract_lets digits
  have read : StaysOnLine start Prod.snd
      (natural? 10 digits >>= fun n => some (n, cs.drop k)) := by
    intro found same
    obtain ⟨n, number, rest⟩ := Option.bind_eq_some_iff.1 same
    obtain rfl := Option.some.inj rest
    exact here.drop (feed_not_mem_of_natural? number)
  exact .ite .none read

theorem staysOnLine_date? (here : OnLine start cs) : StaysOnLine start id (date? cs) := by
  unfold date?
  refine .bind (staysOnLine_field? here) fun (_, rest) year => ?_
  dsimp only at year ⊢
  split
  · refine .bind (staysOnLine_field? (year.next (by decide))) fun (_, rest) month => ?_
    dsimp only at month ⊢
    split
    · refine .bind (staysOnLine_field? (month.next (by decide))) fun (_, rest) day => ?_
      exact .ite (.some day) .none
    · exact .none
  · exact .none

theorem staysOnLine_clock? (here : OnLine start cs) : StaysOnLine start id (clock? cs) := by
  unfold clock?
  refine .bind (staysOnLine_field? here) fun (_, rest) hour => ?_
  dsimp only at hour ⊢
  split
  · refine .bind (staysOnLine_field? (hour.next (by decide))) fun (_, rest) minute => ?_
    exact .ite (.some minute) .none
  · exact .none

theorem staysOnLine_fraction : OnLine start cs → StaysOnLine start id
    (match cs with
    | '.' :: rest =>
      if (rest.takeWhile Char.isDigit).isEmpty then none else some (rest.dropWhile Char.isDigit)
    | _ => some cs) := by
  intro second
  split
  · exact .ite .none (.some ((second.next (by decide)).dropWhile rfl))
  · exact .some second

theorem staysOnLine_time? (here : OnLine start cs) : StaysOnLine start id (time? cs) := by
  unfold time?
  refine .bind (staysOnLine_clock? here) fun rest minutes => ?_
  dsimp only [id] at minutes ⊢
  split
  · refine .bind (staysOnLine_field? (minutes.next (by decide))) fun (_, rest) second => ?_
    have fraction := staysOnLine_fraction second
    exact .ite (.bind_look fun _ => fraction) fraction
  · exact .none

theorem staysOnLine_offset? (here : OnLine start cs) : StaysOnLine start id (offset? cs) := by
  unfold offset?
  split
  · exact .some (here.next (by decide))
  · exact .some (here.next (by decide))
  · exact staysOnLine_clock? (here.next (by decide))
  · exact staysOnLine_clock? (here.next (by decide))
  · exact .some here

theorem staysOnLine_moment? (here : OnLine start cs) :
    StaysOnLine start Prod.snd (moment? cs) := by
  unfold moment?
  split
  · exact (staysOnLine_time? here).map fun _ there => there
  · next rest date =>
    have behind : OnLine start rest := staysOnLine_date? here rest date
    extract_lets after
    have stays_after : StaysOnLine start id after := by
      dsimp only [after]
      split
      · exact staysOnLine_time? (behind.next (by decide))
      · exact staysOnLine_time? (behind.next (by decide))
      · exact staysOnLine_time? (behind.next (by decide))
      · exact .none
    clear_value after
    cases after with
    | none => exact .some behind
    | some more => exact (staysOnLine_offset? (stays_after more rfl)).map fun _ there => there

theorem staysOnLine_bare? (here : OnLine start cs) : StaysOnLine start Prod.snd (bare? cs) := by
  unfold bare?
  split
  · exact .some (.past "true".toList here (by decide))
  · exact .some (.past "false".toList here (by decide))
  · exact (staysOnLine_moment? here).orElse
      ((staysOnLine_float? here).orElse (staysOnLine_integer? here))

end ProductTemplates.Toml
