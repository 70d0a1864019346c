import ProductTemplates.Proofs.Json.Number

/-! The tokens of JSON as it is written: every string, truth value and number comes back as one
token, whatever the text goes on with. -/
namespace ProductTemplates.Json

open Document

variable {cs rest : List Char} {t : Token}

theorem codeUnit?_hexDigit : ∀ n < 32,
    Token.codeUnit? '0' '0' (hexDigit (n / 16)) (hexDigit (n % 16)) = some n := by
  decide

theorem stringUnits?_plain {c : Char} (quote : c ≠ '"') (slash : c ≠ '\\')
    (printed : ¬ c.toNat < 0x20) (rest : List Char) : Token.stringUnits? (c :: rest) =
      (Token.stringUnits? rest).map fun (units, after) => (c.toNat :: units, after) := by
  rw [Token.stringUnits?.eq_def]
  split
  · next same => exact absurd (List.cons.inj same).1 quote
  · next same => exact absurd (List.cons.inj same).1 slash
  · next same => exact absurd (List.cons.inj same).1 slash
  · next same =>
    obtain ⟨rfl, rfl⟩ := List.cons.inj same
    rw [if_neg (by simp [slash]; omega)]
    cases Token.stringUnits? rest <;> rfl
  · contradiction

theorem stringUnits?_escaped {e c : Char} (known : Token.escaped? e = some c) (rest : List Char) :
    Token.stringUnits? ('\\' :: e :: rest) =
      (Token.stringUnits? rest).map fun (units, after) => (c.toNat :: units, after) := by
  rw [Token.stringUnits?.eq_def]
  split
  · next same => exact absurd (List.cons.inj same).1 (by decide)
  · next same =>
    obtain ⟨rfl, -⟩ := List.cons.inj (List.cons.inj same).2
    contradiction
  · next same =>
    obtain ⟨rfl, rfl⟩ := List.cons.inj (List.cons.inj same).2
    rw [known]
    cases Token.stringUnits? rest <;> rfl
  · next others same =>
    obtain ⟨rfl, rfl⟩ := List.cons.inj same
    exact absurd rfl (others _ _ rfl)
  · contradiction

/-- A character that is written is read, however it is escaped. -/
theorem stringUnits?_escape (c : Char) (rest : List Char) : Token.stringUnits? (escape c ++ rest) =
    (Token.stringUnits? rest).map fun (units, after) => (c.toNat :: units, after) := by
  unfold escape
  split
  case h_8 quote slash _ _ _ _ _ =>
    split
    · next control =>
      have unit := codeUnit?_hexDigit c.toNat control
      simp only [List.cons_append, List.nil_append, Token.stringUnits?, unit]
      cases Token.stringUnits? rest <;> rfl
    · next printed => exact stringUnits?_plain quote slash printed rest
  all_goals exact stringUnits?_escaped rfl rest

theorem stringUnits?_flatMap_escape (cs rest : List Char) :
    Token.stringUnits? (cs.flatMap escape ++ '"' :: rest) = some (cs.map Char.toNat, rest) := by
  induction cs with
  | nil => simp [Token.stringUnits?]
  | cons c more ih =>
    rw [List.flatMap_cons, List.append_assoc, stringUnits?_escape, ih]
    rfl

theorem characters?_map_toNat (cs : List Char) : Token.characters? (cs.map Char.toNat) = some cs := by
  induction cs with
  | nil => rfl
  | cons c more ih =>
    have whole : c.toNat < 0xD800 ∨ 0xDFFF < c.toNat := by
      rcases c.valid with low | ⟨high, -⟩
      · exact .inl low
      · exact .inr high
    rw [List.map_cons, Token.characters?.eq_def]
    simp only
    rw [if_neg (by omega), if_neg (by omega), ih, Char.ofNat_toNat]
    rfl

theorem next?_quoted (s : String) (rest : List Char) :
    Token.next? (quoted s ++ rest) = some (.scalar (.string s), rest) := by
  have units := stringUnits?_flatMap_escape s.toList rest
  have letters : quoted s ++ rest = '"' :: (s.toList.flatMap escape ++ '"' :: rest) := by
    simp [quoted]
  rw [letters, Token.next?, Token.string?, units]
  simp [characters?_map_toNat]

theorem induction {motive : Json → Prop} (null : motive .null) (bool : ∀ b, motive (.bool b))
    (number : ∀ n, motive (.number n)) (string : ∀ s, motive (.string s))
    (array : ∀ xs, (∀ x ∈ xs, motive x) → motive (.array xs))
    (object : ∀ ms, (∀ m ∈ ms, motive m.2) → motive (.object ms)) (j : Json) : motive j := by
  refine @Json.rec motive (fun xs => ∀ x ∈ xs, motive x) (fun ms => ∀ m ∈ ms, motive m.2)
    (fun m => motive m.2) null bool number string array object ?_ ?_ ?_ ?_ (fun _ _ h => h) j
  · simp
  · exact fun x xs here there => List.forall_mem_cons.2 ⟨here, there⟩
  · simp
  · exact fun m ms here there => List.forall_mem_cons.2 ⟨here, there⟩

mutual
def tokens : Json → List Token
  | null => [.scalar .null]
  | bool b => [.scalar (.bool b)]
  | number n => [atomToken (numberAtom? n)]
  | string s => [.scalar (.string s)]
  | array [] => [.openArray, .closeArray]
  | array (x :: xs) => .openArray :: tokens x ++ itemTokens xs
  | object [] => [.openObject, .closeObject]
  | object ((k, v) :: ms) =>
    .openObject :: .scalar (.string k) :: .colon :: tokens v ++ memberTokens ms
def itemTokens : List Json → List Token
  | [] => [.closeArray]
  | x :: xs => .comma :: tokens x ++ itemTokens xs
def memberTokens : List (String × Json) → List Token
  | [] => [.closeObject]
  | (k, v) :: ms => .comma :: .scalar (.string k) :: .colon :: tokens v ++ memberTokens ms
end

theorem ofChars_of_next? {c : Char} (dark : Token.isBlank c = false)
    (next : Token.next? (c :: cs) = some (t, rest)) :
    Token.ofChars (c :: cs) = t :: Token.ofChars rest := by
  rw [Token.ofChars, dark, if_neg (by decide)]
  split
  · next unread => simp [next] at unread
  · next found =>
    obtain ⟨rfl, rfl⟩ := Prod.mk.inj (Option.some.inj (next.symm.trans found))
    rfl

theorem ofChars_quoted (s : String) (rest : List Char) :
    Token.ofChars (quoted s ++ rest) = .scalar (.string s) :: Token.ofChars rest :=
  ofChars_of_next? (by decide) (next?_quoted s rest)

theorem not_blank_of_next? {c : Char} (next : Token.next? (c :: cs) = some (t, rest)) :
    Token.isBlank c = false := by
  rw [← Bool.not_eq_true]
  intro blank
  have unnumbered : Token.number? false (c :: cs) = none := by
    have mark : ¬ c.isDigit = true := by
      simp only [Token.isBlank, Bool.or_eq_true, beq_iff_eq] at blank
      rcases blank with ((rfl | rfl) | rfl) | rfl <;> decide
    rw [Token.number?, List.takeWhile_cons_of_neg mark]
  simp only [Token.isBlank, Bool.or_eq_true, beq_iff_eq] at blank
  rcases blank with ((rfl | rfl) | rfl) | rfl <;> exact absurd (unnumbered.symm.trans next) (by simp)

theorem ofChars_number (n : Number) (ends : Ends rest) : Token.ofChars (numberText n ++ rest) =
    atomToken (numberAtom? n) :: Token.ofChars rest := by
  have next := next?_numberText n ends
  cases letters : numberText n ++ rest with
  | nil => rw [letters] at next; contradiction
  | cons c more =>
    rw [letters] at next
    exact ofChars_of_next? (not_blank_of_next? next) next

theorem ends_compactItems (xs : List Json) (rest : List Char) : Ends (compactItems xs ++ rest) := by
  cases xs with
  | nil => exact ends_cons (by decide) _
  | cons => exact ends_cons (by decide) _

theorem ends_compactMembers (ms : List (String × Json)) (rest : List Char) :
    Ends (compactMembers ms ++ rest) := by
  cases ms with
  | nil => exact ends_cons (by decide) _
  | cons => exact ends_cons (by decide) _

theorem ofChars_compactItems {xs : List Json} (items : ∀ x ∈ xs, ∀ rest, Ends rest →
      Token.ofChars (compact x ++ rest) = tokens x ++ Token.ofChars rest) (rest : List Char) :
    Token.ofChars (compactItems xs ++ rest) = itemTokens xs ++ Token.ofChars rest := by
  induction xs with
  | nil => exact ofChars_of_next? (by decide) rfl
  | cons x more ih =>
    rw [List.forall_mem_cons] at items
    have comma : Token.ofChars (compactItems (x :: more) ++ rest) =
        .comma :: Token.ofChars (compact x ++ (compactItems more ++ rest)) := by
      rw [compactItems, List.cons_append, List.cons_append, List.append_assoc]
      exact ofChars_of_next? (by decide) rfl
    rw [comma, items.1 _ (ends_compactItems more rest), ih items.2]
    simp [itemTokens]

theorem ofChars_member {k : String} {v : Json} (value : ∀ rest, Ends rest →
      Token.ofChars (compact v ++ rest) = tokens v ++ Token.ofChars rest) (ends : Ends rest) :
    Token.ofChars (quoted k ++ ':' :: compact v ++ rest) =
      .scalar (.string k) :: .colon :: tokens v ++ Token.ofChars rest := by
  have colon : Token.ofChars (':' :: (compact v ++ rest)) =
      .colon :: Token.ofChars (compact v ++ rest) := ofChars_of_next? (by decide) rfl
  rw [List.append_assoc, ofChars_quoted, List.cons_append, colon, value rest ends]
  rfl

theorem ofChars_compactMembers {ms : List (String × Json)} (members : ∀ m ∈ ms, ∀ rest, Ends rest →
      Token.ofChars (compact m.2 ++ rest) = tokens m.2 ++ Token.ofChars rest) (rest : List Char) :
    Token.ofChars (compactMembers ms ++ rest) = memberTokens ms ++ Token.ofChars rest := by
  induction ms with
  | nil => exact ofChars_of_next? (by decide) rfl
  | cons m more ih =>
    obtain ⟨k, v⟩ := m
    rw [List.forall_mem_cons] at members
    have comma : Token.ofChars (compactMembers ((k, v) :: more) ++ rest) =
        .comma :: Token.ofChars (quoted k ++ ':' :: compact v ++ (compactMembers more ++ rest)) := by
      have letters : compactMembers ((k, v) :: more) ++ rest =
          ',' :: (quoted k ++ ':' :: compact v ++ (compactMembers more ++ rest)) := by
        simp [compactMembers]
      rw [letters]
      exact ofChars_of_next? (by decide) rfl
    rw [comma, ofChars_member members.1 (ends_compactMembers more rest), ih members.2]
    simp [memberTokens]

/-- The text of a value falls into the value's tokens. -/
theorem ofChars_compact (j : Json) (ends : Ends rest) :
    Token.ofChars (compact j ++ rest) = tokens j ++ Token.ofChars rest := by
  induction j using Json.induction generalizing rest with
  | null => exact ofChars_of_next? (by decide) rfl
  | bool b => cases b <;> exact ofChars_of_next? (by decide) rfl
  | number n => exact ofChars_number n ends
  | string s => exact ofChars_quoted s rest
  | array xs ih =>
    cases xs with
    | nil =>
      have first : Token.ofChars ('[' :: ']' :: rest) = .openArray :: Token.ofChars (']' :: rest) :=
        ofChars_of_next? (by decide) rfl
      have second : Token.ofChars (']' :: rest) = .closeArray :: Token.ofChars rest :=
        ofChars_of_next? (by decide) rfl
      exact first.trans (congrArg _ second)
    | cons x xs =>
      rw [List.forall_mem_cons] at ih
      have first : Token.ofChars (compact (.array (x :: xs)) ++ rest) =
          .openArray :: Token.ofChars (compact x ++ (compactItems xs ++ rest)) := by
        rw [compact, List.cons_append, List.cons_append, List.append_assoc]
        exact ofChars_of_next? (by decide) rfl
      rw [first, ih.1 (ends_compactItems xs rest),
        ofChars_compactItems (fun y member rest ends => ih.2 y member ends)]
      simp [tokens]
  | object ms ih =>
    cases ms with
    | nil =>
      have first : Token.ofChars ('{' :: '}' :: rest) =
          .openObject :: Token.ofChars ('}' :: rest) := ofChars_of_next? (by decide) rfl
      have second : Token.ofChars ('}' :: rest) = .closeObject :: Token.ofChars rest :=
        ofChars_of_next? (by decide) rfl
      exact first.trans (congrArg _ second)
    | cons m ms =>
      obtain ⟨k, v⟩ := m
      rw [List.forall_mem_cons] at ih
      have first : Token.ofChars (compact (.object ((k, v) :: ms)) ++ rest) =
          .openObject ::
            Token.ofChars (quoted k ++ ':' :: compact v ++ (compactMembers ms ++ rest)) := by
        have letters : compact (.object ((k, v) :: ms)) ++ rest =
            '{' :: (quoted k ++ ':' :: compact v ++ (compactMembers ms ++ rest)) := by
          simp [compact]
        rw [letters]
        exact ofChars_of_next? (by decide) rfl
      rw [first, ofChars_member (fun rest ends => ih.1 ends) (ends_compactMembers ms rest),
        ofChars_compactMembers (fun m member rest ends => ih.2 m member ends)]
      simp [tokens]

end ProductTemplates.Json
