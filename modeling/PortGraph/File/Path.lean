/-!
# File paths

Paths are texts whose parts stand between slashes.  Empty parts and parts that are a single dot say
nothing and are passed over; two dots lead to the enclosing folder, but are never resolved here,
since that would need the folders themselves.
-/

set_option autoImplicit false

namespace PortGraph.Path

/-- Whether a path starts at the top of all folders. -/
def isAbsolute (path : String) : Bool := path.toList.head? = some '/'

/-- Split at every slash. -/
def split : List Char → List (List Char)
  | [] => [[]]
  | c :: cs =>
    match split cs with
    | [] => [[c]]
    | part :: parts => if c = '/' then [] :: part :: parts else (c :: part) :: parts

/-- The path without the slashes at its end; a path of slashes keeps one. -/
def withoutSlashes (path : String) : String :=
  match path.toList.reverse.dropWhile (· = '/') with
  | [] => path.take 1 |>.toString
  | cs => String.ofList cs.reverse

/-- Whether every character may stand in a path. -/
def isValid (path : String) : Bool := !path.toList.contains '\x00'

/-- The bytes a path may have at most. -/
def maxSize : Nat := 4095

/-- The bytes a part of a path may have at most. -/
def maxPartSize : Nat := 255

/-- Whether a part says nothing. -/
def isIdle (part : List Char) : Bool := part = [] || part = ['.']

/-- The last part that says something; a path that is only a dot has none. -/
def fileName? (path : String) : Option (List Char) :=
  match ((split path.toList).filter (!isIdle ·)).getLast? with
  | none => none
  | some name => if name = ['.', '.'] then none else some name

/-- What stands behind the last dot of a file's name; a dot in front of the whole name does not
count. -/
def extension? (path : String) : Option String :=
  match fileName? path with
  | none => none
  | some name =>
    let behind := (name.reverse.takeWhile (· ≠ '.')).reverse
    if behind.length + 1 < name.length then some (String.ofList behind) else none

/-- Drop trailing parts that say nothing; the first part stays. -/
def trimEnd : List (List Char) → List (List Char)
  | [] => []
  | first :: parts => first :: (parts.reverse.dropWhile isIdle).reverse

/-- Put parts together again. -/
def unsplit : List (List Char) → String
  | [[]] => "/"
  | parts => String.ofList (List.intercalate ['/'] parts)

/-- The folder that a path lies in: all before the last part that says something.  The top of all
folders and the empty path lie in none. -/
def parent? (path : String) : Option String :=
  match trimEnd (split path.toList) with
  | [[]] => none
  | parts => some (unsplit (trimEnd parts.dropLast))

/-- Go on from a folder along a path; an absolute path starts anew. -/
def join (folder path : String) : String :=
  if isAbsolute path then path
  else if folder.toList.getLast?.all (· = '/') then folder ++ path
  else folder ++ "/" ++ path

end PortGraph.Path
