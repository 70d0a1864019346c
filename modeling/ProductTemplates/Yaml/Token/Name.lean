import ProductTemplates.Yaml.Token
import ProductTemplates.Yaml.Token.Scalar

/-! Anchors, aliases, tags and directives: what is named in a YAML text. -/
namespace ProductTemplates.Yaml

def word (p : Cursor) : String × Cursor :=
  let cs := p.rest.takeWhile isWordCharacter
  (String.ofList cs, p.advance cs.length)

def anchorName? (p : Cursor) : Option (String × Cursor) :=
  let (name, q) := word p
  let ends (c : Char) := isGap c || isBreak c || "?:,]\x7d%@`".toList.contains c
  if name ≠ "" ∧ (q.char? 0).all ends then some (name, q) else none

/-- Characters of a tag. Between angle brackets some flow indicators are allowed as well. -/
def isUriCharacter (verbatim : Bool) (c : Char) : Bool :=
  isWordCharacter c || ";/?:@&=+$.!~*'()".toList.contains c ||
    (verbatim && (c == ',' || c == '[' || c == ']'))

def uriBytes? (verbatim : Bool) : List Char → Option (List UInt8 × List Char)
  | '%' :: a :: b :: rest => do
    let high ← hexValue? a
    let low ← hexValue? b
    let (bytes, after) ← uriBytes? verbatim rest
    return (UInt8.ofNat (high * 16 + low) :: bytes, after)
  | c :: rest =>
    if c == '%' then none
    else if isUriCharacter verbatim c then do
      let (bytes, after) ← uriBytes? verbatim rest
      return (c.toNat.toUInt8 :: bytes, after)
    else some ([], c :: rest)
  | [] => some ([], [])

def uri? (verbatim : Bool) (p : Cursor) : Option (String × Cursor) := do
  let (bytes, after) ← uriBytes? verbatim p.rest
  let text ← String.fromUTF8? ⟨bytes.toArray⟩
  return (text, p.advance (p.rest.length - after.length))

def tagHandle? (p : Cursor) : Option (String × Cursor) :=
  if p.holds 0 (· == '!') then
    let (name, q) := word (p.advance 1)
    if q.holds 0 (· == '!') then some ("!" ++ name ++ "!", q.advance 1) else some ("!" ++ name, q)
  else none

/-- A tag at its mark: handle and rest. A lone mark is a tag without handle. -/
def tag? (p : Cursor) : Option (Token × Cursor) := do
  if p.holds 1 (· == '<') then
    let (text, q) ← uri? true (p.advance 2)
    if text ≠ "" ∧ q.holds 0 (· == '>') then some (.tag "" text, q.advance 1) else none
  else
    let (handle, q) ← tagHandle? p
    let (text, after) ← uri? false q
    if 2 ≤ handle.length ∧ handle.endsWith "!" then
      if text ≠ "" then some (.tag handle text, after) else none
    else
      let text := String.ofList (handle.toList.drop 1) ++ text
      some (if text = "" then .tag "" "!" else .tag "!" text, after)

/-- A tag ends at a blank, or in a flow collection at a comma. -/
def endedTag? (inFlow : Bool) (p : Cursor) : Option (Token × Cursor) := do
  let (t, q) ← tag? p
  if q.gapAt 0 || (inFlow && q.holds 0 (· == ',')) then some (t, q) else none

def versionNumber? (p : Cursor) : Option (Nat × Cursor) :=
  let digits := p.rest.takeWhile Char.isDigit
  if digits.isEmpty ∨ 9 < digits.length then none
  else some (digits.foldl (fun n c => n * 10 + (c.toNat - '0'.toNat)) 0, p.advance digits.length)

def version? (p : Cursor) : Option (Token × Cursor) := do
  let (major, p) ← versionNumber? (p.skipWhile isGap)
  if !p.holds 0 (· == '.') then none
  let (minor, p) ← versionNumber? (p.advance 1)
  return (.version major minor, p)

def tagDirective? (p : Cursor) : Option (Token × Cursor) := do
  let (handle, p) ← tagHandle? (p.skipWhile isGap)
  if !(handle == "!" || (2 ≤ handle.length && handle.endsWith "!")) then none
  if !p.holds 0 isGap then none
  let (start, p) ← uri? true (p.skipWhile isGap)
  if start = "" || !p.gapAt 0 then none
  return (.tagHandle handle start, p)

/-- A directive after its mark, up to the next line. -/
def directive? (p : Cursor) : Option (Token × Cursor) := do
  let (name, p) := word p
  if name = "" || !p.gapAt 0 then none
  let (t, p) ← match name with
    | "YAML" => version? p
    | "TAG" => tagDirective? p
    | _ => none
  let p ← restOfLine? p
  return (t, p)

end ProductTemplates.Yaml
