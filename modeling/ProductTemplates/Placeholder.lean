import ProductTemplates.Text.Blank

/-! Placeholders in texts. A token is a dollar sign and a braced identifier; substitution replaces
the tokens that have a value and copies everything else. Values are never scanned again. -/
namespace ProductTemplates.Placeholder

inductive Piece where
  | character (c : Char)
  | token (id : String)
deriving Repr, DecidableEq

/-- Identifiers hold no blanks, no dollar signs and no braces. -/
def isIdentifier (c : Char) : Bool :=
  !(c == '}' || c == '$' || c == '{' || Text.isBlank c)

/-- The identifier before a closing brace, and what follows the brace. -/
def identifier? (cs : List Char) : Option (String × List Char) :=
  match cs.takeWhile isIdentifier, cs.dropWhile isIdentifier with
  | [], _ => none
  | name, '}' :: rest => some (String.ofList name, rest)
  | _, _ => none

theorem length_of_identifier? {cs rest : List Char} {id : String}
    (h : identifier? cs = some (id, rest)) : rest.length < cs.length := by
  unfold identifier? at h
  split at h
  · simp at h
  · next after _ =>
    have split := congrArg List.length (List.takeWhile_append_dropWhile (p := isIdentifier) (l := cs))
    simp only [after, List.length_append, List.length_cons, Option.some.injEq, Prod.mk.injEq] at split h
    rw [← h.2]; omega
  · simp at h

/-- An opening that no token follows stands for its two characters. -/
def pieces : List Char → List Piece
  | '$' :: '{' :: rest =>
    match _h : identifier? rest with
    | some (id, after) => .token id :: pieces after
    | none => .character '$' :: .character '{' :: pieces rest
  | c :: rest => .character c :: pieces rest
  | [] => []
termination_by cs => cs.length
decreasing_by
  · have := length_of_identifier? _h; simp only [List.length_cons]; omega
  · simp only [List.length_cons]; omega
  · simp

def Piece.text : Piece → List Char
  | .character c => [c]
  | .token id => '$' :: '{' :: id.toList ++ ['}']

/-- Asks `resolve` once for each token, from left to right. -/
def fillPieces {m : Type → Type} [Monad m] (resolve : String → m (Option String)) :
    List Piece → m (List Char)
  | [] => pure []
  | .character c :: rest => do return c :: (← fillPieces resolve rest)
  | .token id :: rest => do
    let answer ← resolve id
    let filled := match answer with
      | some value => value.toList
      | none => (Piece.token id).text
    return filled ++ (← fillPieces resolve rest)

def substitute {m : Type → Type} [Monad m] (text : String)
    (resolve : String → m (Option String)) : m String := do
  return String.ofList (← fillPieces resolve (pieces text.toList))

end ProductTemplates.Placeholder
