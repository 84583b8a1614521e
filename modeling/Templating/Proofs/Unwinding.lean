import Templating.Proofs.Chronicle
import Templating.Proofs.Sessions

/-!
Failures in the chronicle of a render: where one is raised, and how it comes to the top.
-/
namespace Templating

/-- The failure is of this moment and place. -/
inductive Scene.Raises (e : Engine) : Scene → Failure → Prop
  | deep {request : Request} {layers : List Layer} {depth : Nat} (h : e.config.maxDepth ≤ depth) :
    Raises e ⟨.asked request, layers, depth⟩ (.tooDeep (e.requestPath request) e.config.maxDepth)
  | missing {path : String} {r : Running} {outer : List Layer} {depth : Nat}
    (h : e.source.text (e.resolve path r.template.path) = none) :
    Raises e ⟨.asked (.path path r.template.path), .template r :: outer, depth⟩
      (.notFound (e.resolve path r.template.path) r.template.path)
  | missingEntry {path : String} {layers : List Layer} {depth : Nat}
    (hlayers : ∀ r outer, layers ≠ .template r :: outer)
    (h : e.source.text (e.resolve path "") = none) :
    Raises e ⟨.asked (.path path ""), layers, depth⟩ (.notFound (e.resolve path "") "<render>")
  | invalid {request : Request} {layers : List Layer} {depth : Nat} {error : SyntaxError}
    (h : e.compileRequest request = .error (.invalid error)) :
    Raises e ⟨.asked request, layers, depth⟩ (.invalid error)
  | evaluation {r : Running} {outer : List Layer} {depth : Nat} {s : Statement} {error : EvalError}
    (hs : r.template.statements[r.index]? = some s) :
    Raises e ⟨.evaluated (.error error), .template r :: outer, depth⟩
      (.evaluation r.template.path s.line s.directive error)
  | path {r : Running} {outer : List Layer} {depth : Nat} {s : Statement} {v : Value}
    (hs : r.template.statements[r.index]? = some s) (hv : v.string? = none) :
    Raises e ⟨.evaluated (.ok v), .template r :: outer, depth⟩
      (.evaluation r.template.path s.line s.directive (.invalidPath v.kind))
  | sequence {r : Running} {outer : List Layer} {depth : Nat} {s : Statement} {v : Value}
    {error : EvalError} (hs : r.template.statements[r.index]? = some s)
    (hv : v.sequence = .error error) :
    Raises e ⟨.evaluated (.ok v), .template r :: outer, depth⟩
      (.evaluation r.template.path s.line s.directive error)
  | tagPath {name : String} {first : Value} {site : CallSite} {since : Nat} {r : Running}
    {outer : List Layer} {depth : Nat} {s : Statement}
    (hs : r.template.statements[r.index]? = some s) (hfirst : first.string? = none) :
    Raises e ⟨.begun, .tag name first site since :: .template r :: outer, depth⟩
      (.evaluation r.template.path s.line s.directive (.invalidPath first.kind))
  | own {name : String} {first : Value} {site : CallSite} {since : Nat} {r : Running}
    {outer : List Layer} {depth : Nat} {s : Statement} {text : String}
    (hs : r.template.statements[r.index]? = some s) :
    Raises e
      ⟨.finished (.error (.own text)), .tag name first site since :: .template r :: outer, depth⟩
      (.tag name r.template.path s.line text)
  | unknownTag {name : String} {first : Value} {site : CallSite} {since : Nat} {layers : List Layer}
    {depth : Nat} (h : e.tags.get? name = none) :
    Raises e ⟨.begun, .tag name first site since :: layers, depth⟩
      (.configuration (.unknownTag name))
  | unknownShortcut {aliasName : String} {r : Running} {outer : List Layer} {depth : Nat}
    (h : e.config.shortcuts.lookup aliasName = none) :
    Raises e ⟨.sought aliasName, .template r :: outer, depth⟩
      (.configuration (.unknownShortcut aliasName))

/-- The failure was raised inside these layers, and from there on all layers have been left with
just this failure. A tag may have done other things before it finishes by handing it on. -/
inductive Unwinds (e : Engine) (failure : Failure) : List Layer → List Scene → Prop
  | raised {scene : Scene} {earlier : List Scene} (h : scene.Raises e failure) :
    Unwinds e failure scene.layers (scene :: earlier)
  | handedOn {name : String} {first : Value} {site : CallSite} {since : Nat} {layers : List Layer}
    {depth : Nat} {scenes earlier : List Scene}
    (h : Unwinds e failure (.tag name first site since :: layers) earlier)
    (hearlier : earlier <:+ scenes) :
    Unwinds e failure (.tag name first site since :: layers)
      (⟨.finished (.error (.handedOn failure)), .tag name first site since :: layers, depth⟩ ::
        scenes)
  | left {layer : Layer} {layers : List Layer} {depth : Nat} {scenes : List Scene}
    (h : Unwinds e failure (layer :: layers) scenes) :
    Unwinds e failure layers (⟨.left (some failure), layer :: layers, depth⟩ :: scenes)

/-- The tag hands on only failures of renders that it has asked for. -/
def TagAction.PassesOn (received : List Failure) : TagAction → Prop
  | finish result => ∀ failure, result = .error (.handedOn failure) → failure ∈ received
  | render _ _ next => (∀ text, (next (.ok text)).PassesOn received) ∧
    ∀ failure, (next (.error failure)).PassesOn (failure :: received)
  | renderText _ _ next => (∀ text, (next (.ok text)).PassesOn received) ∧
    ∀ failure, (next (.error failure)).PassesOn (failure :: received)

def Engine.TagsPassOn (e : Engine) : Prop :=
  ∀ name tag, e.tags.get? name = some tag → ∀ call, (tag.run call).PassesOn []

end Templating
