/-!
Markup-safe text: the characters that matter in HTML become numeric references. An ampersand that
already begins a named reference, one or more word characters and a semicolon, stays as it is.
-/
namespace Templating.Text

def isWordChar (c : Char) : Bool := c.isAlphanum || c == '_'

def beginsReference (cs : List Char) : Bool :=
  (cs.head?.any isWordChar) && (cs.dropWhile isWordChar).head? == some ';'

def isMarkup (c : Char) : Bool :=
  c == '&' || c == '<' || c == '>' || c == '\x22' || c == '\x27' || c == '/'

def reference (c : Char) : List Char := '&' :: '#' :: (toString c.toNat).toList ++ [';']

def encode : List Char → List Char
  | [] => []
  | c :: cs =>
    (if isMarkup c && !(c == '&' && beginsReference cs) then reference c else [c]) ++ encode cs

end Templating.Text
