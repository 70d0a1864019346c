import ProductTemplates.Toml.Number
import ProductTemplates.Toml.Text

/-! Reading TOML. A text is a sequence of statements: entries, and the headers of the tables that
they go to. The first fault ends the reading and is known by its line. -/
namespace ProductTemplates.Toml

/-- How deeply values may be nested, and how many parts a key may have. -/
def maxNesting : Nat := 79

def simpleKey (p : Cursor) : Except Nat (String × Cursor) :=
  match p.rest with
  | '"' :: _ => (lineText true (p.advance 1)).map fun (cs, q) => (String.ofList cs, q)
  | '\'' :: _ => (lineText false (p.advance 1)).map fun (cs, q) => (String.ofList cs, q)
  | _ =>
    let name := p.rest.takeWhile fun c => c.isAlphanum || c == '_' || c == '-'
    if name.isEmpty then fault p else .ok (String.ofList name, p.advance name.length)

/-- A key with its parts between dots, of which there are at most `limit`: the tables that it
leads through and the name at its end. -/
def keyPath (limit : Nat) (p : Cursor) : Except Nat ((List Key × Key) × Cursor) :=
  match limit with
  | 0 => fault p
  | limit + 1 => do
    let (name, q) ← simpleKey p.skipGaps
    let q := q.skipGaps
    match q.rest with
    | '.' :: _ =>
      let ((path, last), r) ← keyPath limit (q.advance 1)
      return ((⟨name, p.line⟩ :: path, last), r)
    | _ => return (([], ⟨name, p.line⟩), q)

/-- The items of an array, after its bracket or a comma. A comma may stand behind the last. -/
def items (element : Cursor → Except Nat (Node × Cursor)) (p : Cursor) :
    Except Nat (List Node × Cursor) :=
  let q := p.skipBlank
  match q.rest with
  | ']' :: _ => .ok ([], q.advance 1)
  | _ => do
    let (n, r) ← element q
    let r := r.skipBlank
    match r.rest with
    | ']' :: _ => return ([n], r.advance 1)
    | ',' :: rest =>
      if _progress : rest.length < p.rest.length then
        let (ns, after) ← items element ⟨rest, r.line⟩
        return (n :: ns, after)
      else fault r
    | _ => fault r
termination_by p.rest.length

def pair (element : Cursor → Except Nat (Node × Cursor)) (p : Cursor) :
    Except Nat ((List Key × Key × Node) × Cursor) := do
  let ((path, k), q) ← keyPath maxNesting p
  match q.rest with
  | '=' :: _ =>
    let (n, r) ← element (q.advance 1).skipGaps
    return ((path, k, n), r.skipGaps)
  | _ => fault q

def pairs (element : Cursor → Except Nat (Node × Cursor)) (p : Cursor) :
    Except Nat (List (List Key × Key × Node) × Cursor) := do
  let (entry, q) ← pair element p
  match q.rest with
  | ',' :: rest =>
    let more : Cursor := ⟨rest, q.line⟩
    if _progress : rest.length < p.rest.length ∧ (keyPath maxNesting more).isOk then
      let (entries, after) ← pairs element more
      return (entry :: entries, after)
    else return ([entry], q)
  | _ => return ([entry], q)
termination_by p.rest.length
decreasing_by exact _progress.1

def braces (element : Cursor → Except Nat (Node × Cursor)) (p : Cursor) :
    Except Nat (Entries × Cursor) := do
  let (found, q) ←
    if (keyPath maxNesting p).isOk then pairs element p else pure ([], p.skipGaps)
  let inner := found.foldlM (fun es (path, k, n) => Entries.insert? path k n es) []
  match inner, q.rest with
  | none, _ => fault p
  | some inner, '}' :: _ => return (inner, q.advance 1)
  | some _, _ => fault q

def value (depth : Nat) (p : Cursor) : Except Nat (Node × Cursor) :=
  match depth, p.rest with
  | _, '"' :: _ => (string true p).map fun (s, q) => (.scalar p.line (.string s), q)
  | _, '\'' :: _ => (string false p).map fun (s, q) => (.scalar p.line (.string s), q)
  | depth + 1, '[' :: _ =>
    (items (value depth) (p.advance 1)).map fun (ns, q) => (.array p.line ns, q)
  | depth + 1, '{' :: _ =>
    (braces (value depth) (p.advance 1)).map fun (es, q) => (.table (some p.line) .value es, q)
  | _, cs =>
    match bare? cs with
    | some (s, rest) => .ok (.scalar p.line s, { p with rest := rest })
    | none => fault p

/-- The document so far, and the path of the table that is open. -/
structure State where
  entries : Entries := []
  current : List Key := []
deriving Repr, Inhabited

def header (listed : Bool) (p : Cursor) (s : State) : Except Nat (State × Cursor) := do
  let ((path, k), q) ← keyPath maxNesting p
  let close := if listed then [']', ']'] else [']']
  if q.rest.take close.length ≠ close then fault q
  let after ← (q.advance close.length).endLine
  match Entries.open? listed p.line path k s.entries with
  | some es => return (⟨es, path ++ [k]⟩, after)
  | none => fault p

def entry (p : Cursor) (s : State) : Except Nat (State × Cursor) := do
  let ((path, k, n), q) ← pair (value maxNesting) p
  let after ← q.endLine
  match Entries.insertBelow? s.current path k n s.entries with
  | some es => return (⟨es, s.current⟩, after)
  | none => fault p

def statement (p : Cursor) (s : State) : Except Nat (State × Cursor) :=
  match p.rest with
  | '[' :: '[' :: _ => header true (p.advance 2) s
  | '[' :: _ => header false (p.advance 1) s
  | '#' :: _ => p.endLine.map (s, ·)
  | '\n' :: _ => p.endLine.map (s, ·)
  | '\r' :: _ => p.endLine.map (s, ·)
  | _ => entry p s

def statements (p : Cursor) (s : State) : Except Nat State :=
  let q := p.skipGaps
  if q.rest.isEmpty then .ok s
  else do
    let (t, r) ← statement q s
    if _progress : r.rest.length < p.rest.length then statements r t else fault q
termination_by p.rest.length

/-- The table that a text describes, or the line of its first fault. A byte order mark in front
is skipped. -/
def readText (text : String) : Except Nat Entries :=
  let cs := match text.toList with
    | '\ufeff' :: rest => rest
    | cs => cs
  (statements { rest := cs } {}).map (·.entries)

end ProductTemplates.Toml
