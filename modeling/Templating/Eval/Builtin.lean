import Templating.Eval.Monad
import Templating.Eval.Argument
import Templating.Eval.Property
import Templating.Value.Json
import Templating.Json.Printer
import Templating.Text.Percent
import Templating.Text.Blank

/-!
The global names of every template: numbers and functions on their own, and `Math`, `Object`, `JSON`
and `Array`, objects of functions with numbers of their own.
-/
namespace Templating
open Text

/-- Numbers of new arrays, objects and functions begin here; smaller ones belong to the globals. -/
def firstIdentity : Nat := 4

def builtinFunction (f : Builtin) : Value := .function (.builtin f)

def mathMembers : Members :=
  [("floor", builtinFunction .floor), ("ceil", builtinFunction .ceil),
    ("round", builtinFunction .round), ("abs", builtinFunction .abs),
    ("sqrt", builtinFunction .sqrt), ("trunc", builtinFunction .trunc),
    ("pow", builtinFunction .pow), ("min", builtinFunction .min), ("max", builtinFunction .max),
    ("PI", .number 3.141592653589793)]

def global? (name : String) : Option Value :=
  match name with
  | "Math" => some (.object 0 mathMembers)
  | "Object" =>
    some (.object 1 [("keys", builtinFunction .keys), ("values", builtinFunction .values),
      ("entries", builtinFunction .entries)])
  | "JSON" => some (.object 2 [("stringify", builtinFunction .stringify)])
  | "Array" => some (.object 3 [("isArray", builtinFunction .isArray)])
  | "String" => some (builtinFunction .toText)
  | "Number" => some (builtinFunction .toNumber)
  | "Boolean" => some (builtinFunction .toBool)
  | "parseInt" => some (builtinFunction .parseInt)
  | "parseFloat" => some (builtinFunction .parseFloat)
  | "isNaN" => some (builtinFunction .isNaN)
  | "encodeURIComponent" => some (builtinFunction .encodeComponent)
  | "NaN" => some (.number Decimal.nan)
  | "Infinity" => some (.number Decimal.infinity)
  | _ => none

namespace Builtin

/-- The least or greatest of the numbers, NaN when one of them is. `better x y` says that `x` takes
the place of `y`. -/
def extreme (better : Float → Float → Bool) (start : Float) (args : List Value) : Float :=
  let xs := args.map Value.toNumber
  if xs.any Float.isNaN then Decimal.nan
  else xs.foldl (fun best x => if better x best then x else best) start

def truncated (x : Float) : Float := if x < 0 then x.ceil else x.floor

/-- What indents each level: at most ten spaces, or the beginning of a text. -/
def indentUnit (v : Value) : String :=
  match v with
  | .number x =>
    if x ≥ 1 then String.ofList (List.replicate (Decimal.toIntWithin 0 10 x).toNat ' ') else ""
  | .string s => String.ofList (s.toList.take 10)
  | _ => ""

def jsonText (args : List Value) : Value :=
  let v := argument args 0
  if v.isOmitted then .undefined
  else
    let unit := indentUnit (argument args 2)
    .string (if unit.isEmpty then v.toJson.compact else v.toJson.pretty unit)

def leadingDigits (base : Nat) (cs : List Char) : Option Float :=
  match cs.map (Decimal.digitValue? base) |>.takeWhile Option.isSome |>.reduceOption with
  | [] => none
  | ds => some (ds.foldl (fun x d => x * Float.ofNat base + Float.ofNat d) 0)

/-- Reads a whole number at the beginning of a text. A radix of 0 stands for 16 after `0x` and for
10 otherwise. -/
def readInt (text : String) (radix : Nat) : Float :=
  let (negative, cs) := Decimal.splitSign (trimStart text.toList)
  let (radix, cs) :=
    if radix = 0 ∨ radix = 16 then
      match cs with
      | '0' :: 'x' :: rest => (16, rest)
      | '0' :: 'X' :: rest => (16, rest)
      | _ => (radix, cs)
    else (radix, cs)
  let radix := if radix = 0 then 10 else radix
  if radix < 2 ∨ 36 < radix then Decimal.nan
  else
    match leadingDigits radix cs with
    | some x => if negative then -x else x
    | none => Decimal.nan

def isNumeralChar (c : Char) : Bool :=
  c.isDigit || c == '+' || c == '-' || c == '.' || c == 'e' || c == 'E'

def readFloat (text : String) : Float :=
  let cs := trimStart text.toList
  if "Infinity".toList.isPrefixOf cs || "+Infinity".toList.isPrefixOf cs then Decimal.infinity
  else if "-Infinity".toList.isPrefixOf cs then -Decimal.infinity
  else
    let candidate := cs.takeWhile isNumeralChar
    let ends := (List.range candidate.length).reverse
    (ends.findSome? fun i => Decimal.readFloat? (candidate.take (i + 1))).getD Decimal.nan

def run {σ : Type} (f : Builtin) (args : List Value) : EvalM σ Value :=
  let x := (argument args 0).toNumber
  match f with
  | floor => pure (.number x.floor)
  | ceil => pure (.number x.ceil)
  | round => pure (.number (x + 0.5).floor)
  | abs => pure (.number x.abs)
  | sqrt => pure (.number x.sqrt)
  | trunc => pure (.number (truncated x))
  | pow => pure (.number (x.pow (argument args 1).toNumber))
  | min => pure (.number (extreme (· < ·) Decimal.infinity args))
  | max => pure (.number (extreme (· > ·) (-Decimal.infinity) args))
  | keys => EvalM.newArray ((argument args 0).entries.map fun e => .string e.1)
  | values => EvalM.newArray ((argument args 0).entries.map (·.2))
  | entries => do
    let pairs ← (argument args 0).entries.mapM fun e => EvalM.newArray [.string e.1, e.2]
    EvalM.newArray pairs
  | stringify => pure (jsonText args)
  | isArray => pure (.bool (argument args 0).array?.isSome)
  | toText => pure (.string (if args.isEmpty then "" else (argument args 0).toText))
  | toNumber => pure (.number (if args.isEmpty then 0 else x))
  | toBool => pure (.bool (argument args 0).isTruthy)
  | parseInt =>
    let radix := argument args 1
    let radix :=
      if radix.isUndefined then 0 else (Decimal.toIntWithin 0 0xFFFFFFFF radix.toNumber).toNat
    pure (.number (readInt (argument args 0).toText radix))
  | parseFloat => pure (.number (readFloat (argument args 0).toText))
  | isNaN => pure (.bool x.isNaN)
  | encodeComponent =>
    pure (.string (String.ofList (percentEncode (argument args 0).toText.toList)))

end Builtin
end Templating
