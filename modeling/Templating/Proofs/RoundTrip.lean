import Templating.Proofs.ItemReading

/-!
The text of an expression is read back as that expression. The induction follows the tree through
its elements, entries, statements and parts of templates.
-/
namespace Templating
open Templating.Parser

mutual

theorem Expr.written : (e : Expr) → e.isWritable = true → Written e.lexemes e
  | .number _, h => by cases h
  | .string s, h => ⟨Expr.phrase _ h, reads_string s⟩
  | .bool b, h => ⟨Expr.phrase _ h, reads_bool b⟩
  | .null, h => ⟨Expr.phrase _ h, reads_null⟩
  | .undefined, h => ⟨Expr.phrase _ h, reads_undefined⟩
  | .name _, h => ⟨Expr.phrase _ h, reads_name h⟩
  | .template parts, h =>
    ⟨Expr.phrase _ h, reads_template (portions_apart parts h) (partsRead parts h)⟩
  | .array elements, h => ⟨Expr.phrase _ h, reads_array (elements_written elements h)⟩
  | .object entries, h => ⟨Expr.phrase _ h, reads_object (entries_written entries h)⟩
  | .member target property optional, h => by
    have htarget := (Bool.and_eq_true_iff.mp h).1
    exact ⟨Expr.phrase _ h, reads_member (target.written htarget) property optional⟩
  | .index target key optional, h => by
    obtain ⟨htarget, hkey⟩ := Bool.and_eq_true_iff.mp h
    exact ⟨Expr.phrase _ h, reads_index (target.written htarget) (key.written hkey) optional⟩
  | .call callee args optional, h => by
    obtain ⟨hcallee, hargs⟩ := Bool.and_eq_true_iff.mp h
    exact ⟨Expr.phrase _ h,
      reads_call (callee.written hcallee) (elements_written args hargs) optional⟩
  | .unary op operand, h => ⟨Expr.phrase _ h, reads_unary op (operand.written h)⟩
  | .binary op left right, h => by
    obtain ⟨hleft, hright⟩ := Bool.and_eq_true_iff.mp h
    exact ⟨Expr.phrase _ h, reads_binary op (left.written hleft) (right.written hright)⟩
  | .conditional test consequent alternate, h => by
    obtain ⟨htest, halternate⟩ := Bool.and_eq_true_iff.mp h
    obtain ⟨htest, hconsequent⟩ := Bool.and_eq_true_iff.mp htest
    exact ⟨Expr.phrase _ h, reads_conditional (test.written htest)
      (consequent.written hconsequent) (alternate.written halternate)⟩
  | .function params body, h => by
    obtain ⟨hparams, hbody⟩ := Bool.and_eq_true_iff.mp h
    exact ⟨Expr.phrase _ h, reads_function hparams (body.reads hbody)⟩

theorem partsRead : (parts : List TemplatePart) → partsWritable parts = true → PartsRead parts
  | [], _ => partsRead_nil
  | .text s :: parts, h => by
    obtain ⟨hpart, hparts⟩ := Bool.and_eq_true_iff.mp h
    exact partsRead_text (bne_iff_ne.mp (Bool.and_eq_true_iff.mp hpart).1) (partsRead parts hparts)
  | .expr e :: parts, h => by
    obtain ⟨hpart, hparts⟩ := Bool.and_eq_true_iff.mp h
    exact partsRead_expr (e.written (Bool.and_eq_true_iff.mp hpart).1) (partsRead parts hparts)

theorem elements_written {d : Delimiter} : (elements : List Element) →
    elementsWritable elements = true →
      List.Forall₂ (ItemWritten element (separators d)) (elementTexts elements) elements
  | [], _ => .nil
  | first :: elements, h => by
    obtain ⟨hfirst, helements⟩ := Bool.and_eq_true_iff.mp h
    exact .cons (first.written hfirst) (elements_written elements helements)

theorem Element.written {d : Delimiter} : (item : Element) → item.isWritable = true →
    ItemWritten element (separators d) item.lexemes item
  | .item e, h => itemWritten_item (e.written h)
  | .spread e, h => itemWritten_spread (e.written h)

theorem entries_written : (entries : List Entry) → entriesWritable entries = true →
    List.Forall₂ (ItemWritten entry (separators .brace)) (entryTexts entries) entries
  | [], _ => .nil
  | first :: entries, h => by
    obtain ⟨hfirst, hentries⟩ := Bool.and_eq_true_iff.mp h
    exact .cons (first.written hfirst) (entries_written entries hentries)

theorem Entry.written : (item : Entry) → item.isWritable = true →
    ItemWritten entry (separators .brace) item.lexemes item
  | .named key value, h => itemWritten_named key (value.written h)
  | .computed key value, h => by
    obtain ⟨hkey, hvalue⟩ := Bool.and_eq_true_iff.mp h
    exact itemWritten_computed (key.written hkey) (value.written hvalue)
  | .shorthand _, h => itemWritten_shorthand h
  | .spread e, h => itemWritten_entrySpread (e.written h)

theorem Body.reads : (body : Body) → body.isWritable = true → BodyReads body.lexemes body
  | .expr e, h => bodyReads_expr (e.written h)
  | .block body, h => bodyReads_block (statements_read body h)

theorem statements_read : (body : List Stmt) → statementsWritable body = true →
    StatementsRead (statementLexemes body) body
  | [], _ => statementsRead_nil
  | first :: body, h => by
    obtain ⟨hfirst, hbody⟩ := Bool.and_eq_true_iff.mp h
    exact statementsRead_cons (first.written hfirst) (statements_read body hbody)

theorem Stmt.written : (item : Stmt) → item.isWritable = true →
    ItemWritten statement [.semicolon] item.lexemes item
  | .declare _ none, h => itemWritten_declare h
  | .declare _ (some value), h => by
    obtain ⟨hid, hvalue⟩ := Bool.and_eq_true_iff.mp h
    exact itemWritten_assign hid (value.written hvalue)
  | .expr e, h => itemWritten_statement (e.written h)
  | .result none, _ => itemWritten_return
  | .result (some value), h => itemWritten_result (value.written h)

end

/-- The text of a tree that can be written is read back as exactly that tree. -/
theorem Expr.parse_text {e : Expr} (h : e.isWritable = true) : Expr.parse e.text = .ok e := by
  have hbound : boundFor e.text = stepsPerChar * (spell e.lexemes).length + 15 + 1 := by
    unfold boundFor Expr.text stepsPerChar
    rw [String.length_ofList]
    omega
  rw [Expr.parse, hbound]
  exact wholeText_spell (e.written h) (Nat.le_add_right ..)

def greetings : Expr :=
  .call (.member (.name "items") "in" true)
    [.item (.function ["x", "y"] (.block
      [.declare "s" (some (.string "it\x27s")),
       .result (some (.template [.text "$", .expr (.index (.name "s") (.template
         [.expr (.binary .add (.name "x") (.unary .minus (.name "y")))]) false)]))])),
     .spread (.object [.named "a b" (.bool true), .shorthand "x"])] false

theorem Expr.parse_text_of_greetings :
    greetings.text = "((items)?.in)(((x,y)=>\x7blet s=(\x27it\\\x27s\x27);return(\x60\\$" ++
      "$\x7b((s)[(\x60$\x7b((x)+(-(y)))\x7d\x60)])\x7d\x60);\x7d)," ++
      "...(\x7b\x27a b\x27:(true),x\x7d))" ∧
      Expr.parse greetings.text = .ok greetings :=
  ⟨by decide +kernel, Expr.parse_text (by decide +kernel)⟩

end Templating
