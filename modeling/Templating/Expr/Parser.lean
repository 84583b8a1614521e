import Templating.Expr.Operator
import Templating.Expr.Literal
import Templating.Decimal.Plain

/-!
Expressions from tokens. An operand with its prefix operators is read first; then, as long as they
bind tightly enough, come members, indices and calls, binary operators and the conditional operator.
Each function takes the tokens still to be read and gives back those that it leaves; `size` is the
length in bytes of the whole text, the position of an error at its end. Recursion is bounded by a
count that the length of the text always covers.
-/
namespace Templating

def Delimiter.punct : Delimiter → Punct
  | paren => .parenClose
  | bracket => .bracketClose
  | brace => .braceClose

namespace Parser

abbrev WithRest (α : Type) := α × List Token

def position (size : Nat) : List Token → Nat
  | [] => size
  | token :: _ => token.start

def inQuotes (token : Token) : String := "\x27" ++ token.text ++ "\x27"

def unexpected (size : Nat) (expected : List String) : List Token → ParseError
  | [] => { fault := .unexpectedEnd, position := size, expected }
  | token :: _ =>
    { fault := .unexpectedToken, position := token.start, expected, found := some (inQuotes token) }

def expect (size : Nat) (p : Punct) (tokens : List Token) : Except ParseError (List Token) :=
  match tokens with
  | ⟨.punct q, _, _⟩ :: rest =>
    if q = p then .ok rest
    else .error (unexpected size ["\x27" ++ p.spelling ++ "\x27"] tokens)
  | _ => .error (unexpected size ["\x27" ++ p.spelling ++ "\x27"] tokens)

def missing (size : Nat) (fault : ParseFault) (expected : String) (tokens : List Token) :
    ParseError :=
  { fault, position := position size tokens, expected := [expected],
    found := tokens.head?.map inQuotes }

def close (size : Nat) (d : Delimiter) (tokens : List Token) : Except ParseError (List Token) :=
  match tokens with
  | ⟨.punct q, _, _⟩ :: rest =>
    if q = d.punct then .ok rest
    else .error (missing size (.missingClosing d) d.closer tokens)
  | _ => .error (missing size (.missingClosing d) d.closer tokens)

def conditionalColon (size : Nat) (tokens : List Token) : Except ParseError (List Token) :=
  match tokens with
  | ⟨.punct .colon, _, _⟩ :: rest => .ok rest
  | _ => .error (missing size .missingColon "delimiter" tokens)

def unclosed (size : Nat) (d : Delimiter) : ParseError :=
  { fault := .missingClosing d, position := size, expected := [d.closer] }

def numberValue (token : Token) : Except ParseError Float :=
  let cs := token.text.toList
  let value? := match cs with
    | '0' :: x :: digits =>
      if x = 'x' ∨ x = 'X' then
        (Decimal.readHex? digits).map fun n => Decimal.nearest false n 1
      else Decimal.readFloat? cs
    | _ => Decimal.readFloat? cs
  match value? with
  | some value => .ok value
  | none =>
    .error { fault := .unreadableNumber, position := token.start, found := some (inQuotes token) }

/-- Whether the parenthesis that closes the one before these tokens is followed by an arrow. `depth`
counts the brackets open inside it. -/
def arrowFollows (depth : Nat) : List Token → Bool
  | [] => false
  | ⟨.punct p, _, _⟩ :: rest =>
    if p.isOpening then arrowFollows (depth + 1) rest
    else if p.isClosing then
      match depth with
      | 0 => rest.head?.any (·.kind == .punct .arrow)
      | depth + 1 => arrowFollows depth rest
    else arrowFollows depth rest
  | _ :: rest => arrowFollows depth rest

def parameterNames (size : Nat) : List Token → Except ParseError (WithRest (List String))
  | [] => .error (unclosed size .paren)
  | ⟨.punct .parenClose, _, _⟩ :: rest => .ok ([], rest)
  | ⟨.word, name, _⟩ :: ⟨.punct .comma, _, _⟩ :: rest => do
    let (names, rest) ← parameterNames size rest
    return (name :: names, rest)
  | ⟨.word, name, _⟩ :: rest => do
    let rest ← close size .paren rest
    return ([name], rest)
  | token :: _ =>
    .error { fault := .invalidParameters, position := token.start, found := some (inQuotes token),
             expected := ["parameter name"] }

def parameters (size : Nat) (tokens : List Token) : Except ParseError (WithRest (List String)) := do
  let rest ← expect size .parenOpen tokens
  parameterNames size rest

def propertyName (size : Nat) : List Token → Except ParseError (WithRest String)
  | [] => .error { fault := .missingPropertyName, position := size }
  | token :: rest =>
    if token.kind.isPropertyName then .ok (token.text, rest)
    else .error { fault := .missingPropertyName, position := token.start,
                  found := some (inQuotes token) }

def expectEnd : List Token → Except ParseError Unit
  | [] => .ok ()
  | token :: _ =>
    .error { fault := .unexpectedToken, position := token.start, expected := ["end of expression"],
             found := some (inQuotes token) }

def liftLex {α : Type} : Except LexError α → Except ParseError α
  | .ok a => .ok a
  | .error e => .error (.ofLex e)

/-- Never the outcome of a bound that covers the text. -/
def outOfBound (size : Nat) (tokens : List Token) : ParseError := unexpected size [] tokens

mutual

/-- An expression whose operators bind at `level` or more tightly. -/
def expression (size : Nat) : Nat → Nat → List Token → Except ParseError (WithRest Expr)
  | 0, _, tokens => .error (outOfBound size tokens)
  | bound + 1, level, tokens => do
    let (left, rest) ← operand size bound tokens
    continued size bound level left rest
termination_by structural n => n

def continued (size : Nat) : Nat → Nat → Expr → List Token → Except ParseError (WithRest Expr)
  | 0, _, _, tokens => .error (outOfBound size tokens)
  | _ + 1, _, left, [] => .ok (left, [])
  | bound + 1, level, left, token :: rest =>
    match token.kind with
    | .punct .dot => do
      let (property, rest) ← propertyName size rest
      continued size bound level (.member left property false) rest
    | .punct .bracketOpen => do
      let (key, rest) ← indexKey size bound rest
      continued size bound level (.index left key false) rest
    | .punct .parenOpen => do
      let (args, rest) ← elements size bound .paren rest
      continued size bound level (.call left args false) rest
    | .punct .questionDot =>
      match rest with
      | ⟨.punct .parenOpen, _, _⟩ :: rest => do
        let (args, rest) ← elements size bound .paren rest
        continued size bound level (.call left args true) rest
      | ⟨.punct .bracketOpen, _, _⟩ :: rest => do
        let (key, rest) ← indexKey size bound rest
        continued size bound level (.index left key true) rest
      | rest => do
        let (property, rest) ← propertyName size rest
        continued size bound level (.member left property true) rest
    | .punct .question =>
      if level = 0 then do
        let (consequent, rest) ← expression size bound 0 rest
        let rest ← conditionalColon size rest
        let (alternate, rest) ← expression size bound 0 rest
        continued size bound level (.conditional left consequent alternate) rest
      else .ok (left, token :: rest)
    | kind =>
      match kind.binaryOp? with
      | none => .ok (left, token :: rest)
      | some op =>
        if op.level < level then .ok (left, token :: rest)
        else do
          let (right, rest) ← expression size bound op.rightLevel rest
          continued size bound level (.binary op left right) rest
termination_by structural n => n

def indexKey (size : Nat) : Nat → List Token → Except ParseError (WithRest Expr)
  | 0, tokens => .error (outOfBound size tokens)
  | bound + 1, tokens => do
    let (key, rest) ← expression size bound 0 tokens
    let rest ← close size .bracket rest
    return (key, rest)
termination_by structural n => n

/-- A primary expression, or a prefix operator and what it applies to. -/
def operand (size : Nat) : Nat → List Token → Except ParseError (WithRest Expr)
  | 0, tokens => .error (outOfBound size tokens)
  | _ + 1, [] => .error { fault := .unexpectedEnd, position := size, expected := ["expression"] }
  | bound + 1, token :: rest =>
    match token.kind.unaryOp? with
    | some op => do
      let (inner, rest) ← expression size bound operandLevel rest
      return (.unary op inner, rest)
    | none => primary size bound token rest
termination_by structural n => n

def primary (size : Nat) : Nat → Token → List Token → Except ParseError (WithRest Expr)
  | 0, token, rest => .error (outOfBound size (token :: rest))
  | bound + 1, token, rest =>
    match token.kind with
    | .number => do
      let value ← numberValue token
      return (.number value, rest)
    | .string => do
      let value ← liftLex (stringValue token)
      return (.string value, rest)
    | .template => do
      let chunks ← liftLex (decodedChunks token)
      let parts ← templateParts bound chunks
      return (.template parts, rest)
    | .keyword .trueWord => .ok (.bool true, rest)
    | .keyword .falseWord => .ok (.bool false, rest)
    | .keyword .nullWord => .ok (.null, rest)
    | .keyword .undefinedWord => .ok (.undefined, rest)
    | .word =>
      match rest with
      | ⟨.punct .arrow, _, _⟩ :: rest => do
        let (body, rest) ← arrowBody size bound rest
        return (.function [token.text] body, rest)
      | rest => .ok (.name token.text, rest)
    | .punct .parenOpen =>
      if arrowFollows 0 rest then do
        let (params, rest) ← parameterNames size rest
        let rest ← expect size .arrow rest
        let (body, rest) ← arrowBody size bound rest
        return (.function params body, rest)
      else do
        let (inner, rest) ← expression size bound 0 rest
        let rest ← close size .paren rest
        return (inner, rest)
    | .punct .bracketOpen => do
      let (items, rest) ← elements size bound .bracket rest
      return (.array items, rest)
    | .punct .braceOpen => do
      let (entries, rest) ← entries size bound rest
      return (.object entries, rest)
    | .keyword .functionWord => do
      let rest := match rest with
        | ⟨.word, _, _⟩ :: rest => rest
        | rest => rest
      let (params, body, rest) ← functionRest size bound rest
      return (.function params body, rest)
    | _ =>
      .error { fault := .expectedExpression, position := token.start,
               found := some (inQuotes token) }
termination_by structural n => n

def functionRest (size : Nat) :
    Nat → List Token → Except ParseError (List String × Body × List Token)
  | 0, tokens => .error (outOfBound size tokens)
  | bound + 1, tokens => do
    let (params, rest) ← parameters size tokens
    let rest ← expect size .braceOpen rest
    let (statements, rest) ← statements size bound rest
    return (params, .block statements, rest)
termination_by structural n => n

def arrowBody (size : Nat) : Nat → List Token → Except ParseError (WithRest Body)
  | 0, tokens => .error (outOfBound size tokens)
  | bound + 1, ⟨.punct .braceOpen, _, _⟩ :: rest => do
    let (statements, rest) ← statements size bound rest
    return (.block statements, rest)
  | bound + 1, tokens => do
    let (value, rest) ← expression size bound 0 tokens
    return (.expr value, rest)
termination_by structural n => n

/-- Elements up to and including the closing delimiter. A comma may stand before it. -/
def elements (size : Nat) :
    Nat → Delimiter → List Token → Except ParseError (WithRest (List Element))
  | 0, _, tokens => .error (outOfBound size tokens)
  | _ + 1, d, [] => .error (unclosed size d)
  | bound + 1, d, token :: rest =>
    if token.kind = .punct (d.punct) then .ok ([], rest)
    else do
      let (element, rest) ← element size bound (token :: rest)
      match rest with
      | ⟨.punct .comma, _, _⟩ :: rest => do
        let (others, rest) ← elements size bound d rest
        return (element :: others, rest)
      | rest => do
        let rest ← close size d rest
        return ([element], rest)
termination_by structural n => n

def element (size : Nat) : Nat → List Token → Except ParseError (WithRest Element)
  | 0, tokens => .error (outOfBound size tokens)
  | bound + 1, ⟨.punct .ellipsis, _, _⟩ :: rest => do
    let (inner, rest) ← expression size bound 0 rest
    return (.spread inner, rest)
  | bound + 1, tokens => do
    let (inner, rest) ← expression size bound 0 tokens
    return (.item inner, rest)
termination_by structural n => n

def entries (size : Nat) : Nat → List Token → Except ParseError (WithRest (List Entry))
  | 0, tokens => .error (outOfBound size tokens)
  | _ + 1, ⟨.punct .braceClose, _, _⟩ :: rest => .ok ([], rest)
  | bound + 1, tokens => do
    let (entry, rest) ← entry size bound tokens
    match rest with
    | ⟨.punct .comma, _, _⟩ :: rest => do
      let (others, rest) ← entries size bound rest
      return (entry :: others, rest)
    | rest => do
      let rest ← close size .brace rest
      return ([entry], rest)
termination_by structural n => n

def entry (size : Nat) : Nat → List Token → Except ParseError (WithRest Entry)
  | 0, tokens => .error (outOfBound size tokens)
  | _ + 1, [] => .error (unclosed size .brace)
  | bound + 1, token :: rest =>
    match token.kind with
    | .punct .ellipsis => do
      let (inner, rest) ← expression size bound 0 rest
      return (.spread inner, rest)
    | .word =>
      match rest with
      | ⟨.punct .comma, _, _⟩ :: _ => .ok (.shorthand token.text, rest)
      | ⟨.punct .braceClose, _, _⟩ :: _ => .ok (.shorthand token.text, rest)
      | _ => namedEntry size bound token.text rest
    | .keyword _ => namedEntry size bound token.text rest
    | .string => do
      let key ← liftLex (stringValue token)
      entryValue size bound (.named key) rest
    | .number => do
      let key ← numberValue token
      entryValue size bound (.named (Decimal.plain key)) rest
    | .punct .bracketOpen => do
      let (key, rest) ← indexKey size bound rest
      entryValue size bound (.computed key) rest
    | _ =>
      .error { fault := .invalidPropertyName, position := token.start,
               found := some (inQuotes token) }
termination_by structural n => n

def namedEntry (size : Nat) : Nat → String → List Token → Except ParseError (WithRest Entry)
  | 0, _, tokens => .error (outOfBound size tokens)
  | bound + 1, key, tokens =>
    match tokens with
    | ⟨.punct .parenOpen, _, _⟩ :: _ => do
      let (params, body, rest) ← functionRest size bound tokens
      return (.named key (.function params body), rest)
    | _ => entryValue size bound (.named key) tokens
termination_by structural n => n

def entryValue (size : Nat) : Nat → (Expr → Entry) → List Token → Except ParseError (WithRest Entry)
  | 0, _, tokens => .error (outOfBound size tokens)
  | bound + 1, make, tokens => do
    let rest ← expect size .colon tokens
    let (value, rest) ← expression size bound 0 rest
    return (make value, rest)
termination_by structural n => n

def statements (size : Nat) : Nat → List Token → Except ParseError (WithRest (List Stmt))
  | 0, tokens => .error (outOfBound size tokens)
  | bound + 1, tokens =>
    match tokens with
    | [] => .error (unclosed size .brace)
    | ⟨.punct .semicolon, _, _⟩ :: rest => statements size bound rest
    | ⟨.punct .braceClose, _, _⟩ :: rest => .ok ([], rest)
    | tokens => do
      let (statement, rest) ← statement size bound tokens
      let (others, rest) ← statements size bound rest
      return (statement :: others, rest)
termination_by structural n => n

def statement (size : Nat) : Nat → List Token → Except ParseError (WithRest Stmt)
  | 0, tokens => .error (outOfBound size tokens)
  | bound + 1, ⟨.keyword .returnWord, _, _⟩ :: rest =>
    match rest with
    | [] => .ok (.result none, rest)
    | ⟨.punct .semicolon, _, _⟩ :: _ => .ok (.result none, rest)
    | ⟨.punct .braceClose, _, _⟩ :: _ => .ok (.result none, rest)
    | _ => do
      let (value, rest) ← expression size bound 0 rest
      return (.result (some value), rest)
  | bound + 1, tokens =>
    match tokens with
    | ⟨.keyword k, text, start⟩ :: rest =>
      if k.declares then declaration size bound rest
      else do
        let (value, rest) ← expression size bound 0 (⟨.keyword k, text, start⟩ :: rest)
        return (.expr value, rest)
    | tokens => do
      let (value, rest) ← expression size bound 0 tokens
      return (.expr value, rest)
termination_by structural n => n

def declaration (size : Nat) : Nat → List Token → Except ParseError (WithRest Stmt)
  | 0, tokens => .error (outOfBound size tokens)
  | bound + 1, ⟨.word, name, _⟩ :: rest =>
    match rest with
    | ⟨.punct .assign, _, _⟩ :: rest => do
      let (value, rest) ← expression size bound 0 rest
      return (.declare name (some value), rest)
    | rest => .ok (.declare name none, rest)
  | _ + 1, tokens => .error { fault := .expectedName, position := position size tokens }
termination_by structural n => n

def templateParts : Nat → List Chunk → Except ParseError (List TemplatePart)
  | 0, _ => .error (outOfBound 0 [])
  | _ + 1, [] => .ok []
  | bound + 1, .text cs _ :: chunks => do
    let parts ← templateParts bound chunks
    return .text (String.ofList cs) :: parts
  | bound + 1, .substitution source start :: chunks => do
    let inner ← match wholeText bound (String.ofList source) with
      | .ok inner => .ok inner
      | .error e => .error (e.shifted start)
    let parts ← templateParts bound chunks
    return .expr inner :: parts
termination_by structural n => n

def wholeText : Nat → String → Except ParseError Expr
  | 0, _ => .error (outOfBound 0 [])
  | bound + 1, source => do
    let tokens ← liftLex (tokenize source)
    let (value, rest) ← expression source.utf8ByteSize bound 0 tokens
    expectEnd rest
    return value
termination_by structural n => n

end

/-- Each token, and each chunk of a template, takes at most this many nested steps. -/
def stepsPerChar : Nat := 8

def boundFor (source : String) : Nat := stepsPerChar * (source.length + 2)

/-- Expressions separated by commas, at most `room` more of them. -/
def argumentList (size bound max : Nat) : Nat → List Token → Except ParseError (List Expr)
  | 0, tokens =>
    .error { fault := .argumentCount, position := position size tokens,
             expected := ["at most " ++ toString max ++ " argument(s)"] }
  | room + 1, tokens => do
    let (value, rest) ← expression size bound 0 tokens
    match rest with
    | ⟨.punct .comma, _, _⟩ :: rest => do
      let others ← argumentList size bound max room rest
      return value :: others
    | rest => do
      expectEnd rest
      return [value]

end Parser

/-- Reads a text that is exactly one expression. -/
def Expr.parse (source : String) : Except ParseError Expr :=
  Parser.wholeText (Parser.boundFor source) source

/-- Reads one to `max` expressions separated by commas. -/
def Expr.parseArguments (max : Nat) (source : String) : Except ParseError (List Expr) := do
  let tokens ← Parser.liftLex (tokenize source)
  Parser.argumentList source.utf8ByteSize (Parser.boundFor source) max max tokens

end Templating
