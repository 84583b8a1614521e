import Templating.Text.Occurrence

/-!
Paths of templates. A resolved path begins with a slash, and none of its segments is empty, a single
dot or two dots.
-/
namespace Templating.Path
open Text

/-- The segments after one more: two dots take the last one away, as long as there is one. -/
def push (segments : List (List Char)) (segment : List Char) : List (List Char) :=
  if segment = [] ∨ segment = ['.'] then segments
  else if segment = ['.', '.'] then segments.dropLast
  else segments ++ [segment]

def segments (path : List Char) : List (List Char) := (pieces ['/'] path).foldl push []

def ofSegments (segments : List (List Char)) : List Char := '/' :: ['/'].intercalate segments

def normalizeChars (path : List Char) : List Char := ofSegments (segments path)

def normalize (path : String) : String := String.ofList (normalizeChars path.toList)

/-- The path before its last segment; slashes at its end are all cut off, and a path without any
slash is its own parent. -/
def parentChars (path : List Char) : List Char :=
  match path.reverse with
  | '/' :: rest => (rest.dropWhile (· == '/')).reverse
  | reversed =>
    match reversed.dropWhile (· != '/') with
    | [] => path
    | _ :: before => before.reverse

/-- The path meant by one written in the template at `referencing`. It is absolute after a slash,
counts from the root after a tilde, and from the place of that template otherwise. -/
def resolve (path referencing : String) (root : Option String) : String :=
  match path.toList with
  | '/' :: _ => normalize path
  | '~' :: rest => normalize (root.getD "/" ++ "/" ++ String.ofList rest)
  | cs => String.ofList (normalizeChars (parentChars referencing.toList ++ '/' :: cs))

end Templating.Path
