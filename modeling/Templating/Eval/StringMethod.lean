import Templating.Eval.Monad
import Templating.Eval.Argument
import Templating.Value.Text
import Templating.Text.Casing
import Templating.Text.Blank
import Templating.Text.Occurrence

/-!
Methods of strings. Every index and length counts characters.
-/
namespace Templating
open Text

/-- The longest string that a method may build, in characters. -/
def maxStringLength : Nat := 0x20000000 - 24

namespace StringMethod

variable {σ : Type}

def ofChars (cs : List Char) : Value := .string (String.ofList cs)

def index (i : Option Nat) : Value :=
  match i with
  | some i => .nat i
  | none => .number (-1)

def slice (cs : List Char) (args : List Value) : List Char :=
  let (start, stop) := sliceBounds args cs.length
  between cs start stop

def substringBounds (args : List Value) (length : Nat) : Nat × Nat :=
  let a := min (whole (argument args 0) 0).toNat length
  let b := min (whole (argument args 1) length).toNat length
  if b < a then (b, a) else (a, b)

def substring (cs : List Char) (args : List Value) : List Char :=
  let (start, stop) := substringBounds args cs.length
  between cs start stop

/-- The parts that splitting at the first argument gives; an empty separator splits off every
character. -/
def splitParts (cs : List Char) (separator : Value) : List (List Char) :=
  if separator.isUndefined then [cs]
  else
    let p := separator.toText.toList
    if p.isEmpty then cs.map ([·]) else pieces p cs

def split (cs : List Char) (args : List Value) : List Value :=
  let limit := argument args 1
  let parts := (splitParts cs (argument args 0)).map ofChars
  if limit.isUndefined then parts
  else parts.take (Decimal.toIntWithin 0 0xFFFFFFFFFFFFFFFF limit.toNumber).toNat

def «repeat» (cs : List Char) (args : List Value) : Except EvalError (List Char) :=
  let count := (argument args 0).toNumber
  if count < 0 ∨ count.isInf then invalidArgument "repeat" "invalid count value"
  else
    let count := (Decimal.toIntWithin 0 0xFFFFFFFFFFFFFFFF count).toNat
    if maxStringLength < cs.length * count then invalidArgument "repeat" "invalid string length"
    else if cs.isEmpty then .ok []
    else .ok (List.replicate count cs).flatten

def padding (fill : List Char) (count : Nat) : List Char :=
  (List.replicate (count / fill.length + 1) fill).flatten.take count

/-- The padding that brings a text to the length of the first argument, empty when it is long enough
or there is nothing to fill with. -/
def paddingOf (method : String) (cs : List Char) (args : List Value) :
    Except EvalError (List Char) :=
  let target := (whole (argument args 0) 0).toNat
  let fill := argument args 1
  let fill := if fill.isUndefined then [' '] else fill.toText.toList
  if target ≤ cs.length ∨ fill.isEmpty then .ok []
  else if maxStringLength < target then invalidArgument method "invalid string length"
  else .ok (padding fill (target - cs.length))

def charAt (cs : List Char) (args : List Value) : List Char :=
  let i := whole (argument args 0) 0
  if i < 0 then [] else (cs[i.toNat]?).toList

def «at» (cs : List Char) (args : List Value) : Value :=
  match itemFrom? cs (whole (argument args 0) 0) with
  | some c => .char c
  | none => .undefined

/-- What stands in the place of an occurrence: the text of a value, or what a function gives for the
pattern, the index of the occurrence and the whole text. -/
def replacement (call : Caller σ) (pattern whole : List Char) (value : Value) (index : Nat) :
    EvalM σ (List Char) :=
  match value with
  | .function f => do
    let result ← call f [ofChars pattern, .nat index, ofChars whole]
    return result.toText.toList
  | other => pure other.toText.toList

/-- Joins pieces of a text, putting the replacement of the occurrence after each but the last.
`index` is where the first piece begins. -/
def joinReplaced (replace : Nat → EvalM σ (List Char)) (width : Nat) :
    Nat → List (List Char) → EvalM σ (List Char)
  | _, [] => pure []
  | _, [piece] => pure piece
  | index, piece :: pieces => do
    let middle ← replace (index + piece.length)
    let rest ← joinReplaced replace width (index + piece.length + width) pieces
    return piece ++ middle ++ rest

def firstPieces (p cs : List Char) : List (List Char) :=
  match firstIndex? p cs with
  | some i => [cs.take i, cs.drop (i + p.length)]
  | none => [cs]

def replace (call : Caller σ) (every : Bool) (cs : List Char) (args : List Value) :
    EvalM σ (List Char) :=
  let p := (argument args 0).toText.toList
  joinReplaced (replacement call p cs (argument args 1)) p.length 0
    (if every then pieces p cs else firstPieces p cs)

def run (call : Caller σ) (s : String) (name : String) (args : List Value) :
    EvalM σ (Option Value) :=
  let cs := s.toList
  let text := (argument args 0).toText.toList
  let chars (cs : List Char) : EvalM σ (Option Value) := pure (some (ofChars cs))
  let value (v : Value) : EvalM σ (Option Value) := pure (some v)
  match name with
  | "toUpperCase" => chars (upper cs)
  | "toLowerCase" => chars (lower cs)
  | "trim" => chars (trim cs)
  | "trimStart" => chars (trimStart cs)
  | "trimEnd" => chars (trimEnd cs)
  | "includes" => value (.bool (occurs text cs))
  | "startsWith" => value (.bool (text.isPrefixOf cs))
  | "endsWith" => value (.bool (text.isSuffixOf cs))
  | "indexOf" => value (index (firstIndex? text cs))
  | "lastIndexOf" => value (index (lastIndex? text cs))
  | "slice" => chars (slice cs args)
  | "substring" => chars (substring cs args)
  | "split" => do return some (← EvalM.newArray (split cs args))
  | "replace" => do chars (← replace call false cs args)
  | "replaceAll" => do chars (← replace call true cs args)
  | "repeat" => do chars (← «repeat» cs args)
  | "padStart" => do chars ((← paddingOf name cs args) ++ cs)
  | "padEnd" => do chars (cs ++ (← paddingOf name cs args))
  | "charAt" => chars (charAt cs args)
  | "at" => value («at» cs args)
  | "concat" => value (.string (s ++ String.join (args.map Value.toText)))
  | "toString" | "valueOf" => value (.string s)
  | _ => pure none

theorem substringBounds_le (args : List Value) (length : Nat) :
    (substringBounds args length).1 ≤ (substringBounds args length).2 ∧
      (substringBounds args length).2 ≤ length := by
  simp only [substringBounds]
  split <;> constructor <;> simp only <;> omega

end StringMethod
end Templating
