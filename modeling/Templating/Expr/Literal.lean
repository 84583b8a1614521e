import Templating.Expr.Lexeme

/-!
The values of string and template literals: escapes are decoded, and a template is cut into texts
and the sources of its substitutions.
-/
namespace Templating
open Text

def letterEscape? : Char → Option Char
  | 'n' => some '\n'
  | 't' => some '\t'
  | 'r' => some '\r'
  | 'b' => some '\x08'
  | 'f' => some '\x0c'
  | 'v' => some '\x0b'
  | '0' => some '\x00'
  | _ => none

/-- The character with the given hexadecimal number, unless it is none or the digits are not. -/
def codePoint? (digits : List Char) : Option Char :=
  if digits.all Decimal.isHexDigit then
    (Decimal.readHex? digits).bind fun n => if n.isValidChar then some (Char.ofNat n) else none
  else none

/-- The digits of a numeric escape, after its letter, and the text that follows them. -/
def escapeDigits (letter : Char) (cs : List Char) : List Char × List Char :=
  if letter = 'x' then (cs.take 2, cs.drop 2)
  else
    match cs with
    | '\x7b' :: rest => (rest.takeWhile (· != '\x7d'), (rest.dropWhile (· != '\x7d')).drop 1)
    | _ => (cs.take 4, cs.drop 4)

theorem escapeDigits_length (letter : Char) (cs : List Char) :
    (escapeDigits letter cs).2.length ≤ cs.length := by
  unfold escapeDigits
  split
  · simp
  · split
    · rename_i rest
      have := (List.dropWhile_suffix (l := rest) (· != '\x7d')).length_le
      simp only [List.length_drop, List.length_cons]
      omega
    · simp

def unescape (position : Nat) : List Char → Except LexError (List Char)
  | [] => .ok []
  | c :: cs =>
    if c = '\\' then
      match cs with
      | [] => .error ⟨.invalidEscape "", position⟩
      | letter :: rest =>
        let after := position + 1 + letter.utf8Size
        if letter = 'x' ∨ letter = 'u' then
          let read := escapeDigits letter rest
          match codePoint? read.1 with
          | none => .error ⟨.invalidEscape (String.ofList (letter :: read.1)), position⟩
          | some decoded => do
            let tail ← unescape (after + (utf8Size rest - utf8Size read.2)) read.2
            return decoded :: tail
        else if letter = '\n' then unescape after rest
        else do
          let tail ← unescape after rest
          return (letterEscape? letter).getD letter :: tail
    else do
      let tail ← unescape (position + c.utf8Size) cs
      return c :: tail
termination_by cs => cs.length
decreasing_by
  all_goals simp only [List.length_cons]
  · have := escapeDigits_length letter rest
    omega
  · omega
  · omega
  · omega

def literalBody (token : Token) : List Char := (token.text.toList.drop 1).dropLast

def stringValue (token : Token) : Except LexError String := do
  let cs ← unescape (token.start + 1) (literalBody token)
  return String.ofList cs

/-- A piece of a template literal as it is written, with its byte offset: text, or the source of a
substitution. -/
inductive Chunk where
  | text (raw : List Char) (start : Nat)
  | substitution (source : List Char) (start : Nat)
  deriving DecidableEq, Repr

/-- The chunk of the text read since the last substitution, which lies before byte `position`. -/
def textChunk (position : Nat) (pending : List Char) : List Chunk :=
  if pending.isEmpty then [] else [.text pending (position - utf8Size pending)]

/-- The chunks of the rest of a template at byte `position`; `pending` is the text read since the
last substitution. -/
def chunksFrom (position : Nat) (pending : List Char) (cs : List Char) :
    Except LexError (List Chunk) :=
  match cs with
  | [] => .ok (textChunk position pending)
  | '\\' :: [] => .ok (textChunk (position + 1) (pending ++ ['\\']))
  | '\\' :: c :: rest => chunksFrom (position + 1 + c.utf8Size) (pending ++ ['\\', c]) rest
  | '$' :: '\x7b' :: rest =>
    match closingLength? [.substitution 1] rest with
    | none =>
      .error ⟨.unterminatedSubstitution position, position + utf8Size ('$' :: '\x7b' :: rest)⟩
    | some n => do
      let source := rest.take (n - 1)
      let after ← chunksFrom (position + 2 + utf8Size (rest.take n)) [] (rest.drop n)
      return textChunk position pending ++ .substitution source (position + 2) :: after
  | c :: rest => chunksFrom (position + c.utf8Size) (pending ++ [c]) rest
termination_by cs.length

def templateChunks (token : Token) : Except LexError (List Chunk) :=
  chunksFrom (token.start + 1) [] (literalBody token)

def Chunk.decoded : Chunk → Except LexError Chunk
  | text raw start => do return text (← unescape start raw) start
  | substitution source start => .ok (substitution source start)

def decodedChunks (token : Token) : Except LexError (List Chunk) := do
  (← templateChunks token).mapM Chunk.decoded

end Templating
