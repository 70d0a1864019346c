/-! Paths as text: names between slashes, of which one in front makes the path absolute. -/
namespace ProductTemplates.Path

def split (separator : Char) : List Char → List (List Char)
  | [] => [[]]
  | c :: rest =>
    if c = separator then [] :: split separator rest
    else match split separator rest with
      | piece :: more => (c :: piece) :: more
      | [] => [[c]]

def isAbsolute (path : String) : Bool := path.startsWith "/"

def names (path : String) : List String :=
  ((split '/' path.toList).filter (· ≠ [])).map String.ofList

/-- The steps of a path. A slash at the end asks for a folder, as a dot does. -/
def steps (path : String) : List String :=
  names path ++ (if path.endsWith "/" then ["."] else [])

def beside (path : String) (names : List String) : String :=
  (if isAbsolute path then "/" else "") ++ "/".intercalate names

/-- The path that `more` means in the folder `base`. -/
def join (base more : String) : String :=
  if isAbsolute more || base = "" then more
  else if base.endsWith "/" then base ++ more
  else base ++ "/" ++ more

/-- A reversed path without the slashes and dots that stand behind its last name. -/
def dropFinal : List Char → List Char
  | '/' :: rest => dropFinal rest
  | '.' :: '/' :: rest => dropFinal ('/' :: rest)
  | cs => cs

/-- The folder of a path: the text before its last name, if it has one. -/
def parent? (path : String) : Option String :=
  let cs := dropFinal path.toList.reverse
  if cs.isEmpty then none
  else
    let rest := cs.dropWhile (· != '/')
    let outer := dropFinal rest
    some (String.ofList (if outer.isEmpty then rest.take 1 else outer).reverse)

/-- What follows the last dot of a name; a dot in front is part of the name. -/
def extension? (name : String) : Option String :=
  let after := name.toList.reverse.takeWhile (· != '.')
  if after.length + 1 < name.length then some (String.ofList after.reverse) else none

end ProductTemplates.Path
