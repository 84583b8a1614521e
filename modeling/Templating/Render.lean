import Templating.Render.Activation

/-!
Rendering with an engine. A template that is to run is found, compiled if need be, and run one level
deeper than what asked for it; tags come back for more at the level of the template that called
them.
-/
namespace Templating

/-- The outcome of a tag as that of the call: failures of renders are handed on as they are, and a
text of its own makes a failure at the call. -/
def TagFailure.at (site : CallSite) (name : String) : TagFailure → Failure
  | handedOn failure => failure
  | own text => .tag name site.path site.line text

/-- Goes along with a tag, answering the renders that it asks for at the depth of its call. -/
def TagAction.perform {σ : Type} (e : Engine) (render : Request → RenderM σ String) (depth : Nat) :
    TagAction → RenderM σ (Except TagFailure String)
  | finish result => pure result
  | .render path data next => do
    let outcome ← RenderM.attempt
      (RenderM.within (.ofData data.members depth) (render (.path (e.entryPath path) "")))
    (next outcome).perform e render depth
  | renderText source data next => do
    let outcome ← RenderM.attempt
      (RenderM.within (.ofData data.members depth) (render (.inline source)))
    (next outcome).perform e render depth

namespace Engine

variable {σ : Type}

def firstArgument (e : Engine) (tag : Tag) (first : Value) (site : CallSite) :
    Except Failure Value :=
  if tag.firstIsPath then
    match first with
    | .string path => .ok (.string (e.resolve path site.path))
    | other => .error (.evaluation site.path site.line site.directive (.invalidPath other.kind))
  else .ok first

def renderTag (e : Engine) (render : Request → RenderM σ String) (name : String) (first : Value)
    (data : Members) (site : CallSite) : RenderM σ String := do
  match e.tags.get? name with
  | none => throw (.configuration (.unknownTag name))
  | some tag =>
    let first ← e.firstArgument tag first site
    let identity ← modifyGet fun s =>
      (s.engine.identity, { s with engine := { s.engine with identity := s.engine.identity + 1 } })
    let call : TagCall :=
      { first, data := .object identity data, caller := site.path, line := site.line,
        depth := site.depth, resolve := fun path => e.resolve path site.path,
        handle := fun path => e.source.handle (e.resolve path site.path) }
    match ← (tag.run call).perform e render site.depth with
    | .ok text => return text
    | .error failure => throw (failure.at site name)

def renderShortcut (e : Engine) (render : Request → RenderM σ String) (aliasName : String)
    (data : Members) (site : CallSite) : RenderM σ String :=
  match e.config.shortcuts.lookup aliasName with
  | none => throw (.configuration (.unknownShortcut aliasName))
  | some target => e.renderTag render target.tag (.string target.path) data site

def surroundings (e : Engine) (render : Request → RenderM σ String) : Surroundings σ where
  evaluate := RenderM.evaluate e.host
  render
  tag := e.renderTag render
  shortcut := e.renderShortcut render

/-- Renders what is asked for in the current context, with room for so many templates inside one
another. The limit of the configuration is reached first when there is room for what it still
allows. -/
def activate (e : Engine) (load : Loader σ) : Nat → Request → RenderM σ String
  | 0, request => throw (.tooDeep (e.requestPath request) e.config.maxDepth)
  | room + 1, request => do
    if e.config.maxDepth ≤ (← get).context.depth then
      throw (.tooDeep (e.requestPath request) e.config.maxDepth)
    let template ← RenderM.ofStore (load request)
    RenderM.around (fun c => { c with depth := c.depth + 1 })
      (fun c => { c with depth := c.depth - 1 })
      (Run.text (e.surroundings (e.activate load room)) template)

/-- Renders what is asked for in a context of its own. -/
def renderRequest (e : Engine) (load : Loader σ) (request : Request) (data : Value) :
    StateM (EngineState σ) (Except Failure String) := fun state =>
  let (result, s) := (e.activate load e.config.maxDepth request).run.run
    { context := .ofData data.members 0, engine := state }
  (result, s.engine)

def pathRequest (e : Engine) (path : String) : Request := .path (e.entryPath path) ""

def render (e : Engine) (path : String) (data : Value) :
    StateM EngineState (Except Failure String) :=
  e.renderRequest (e.cached Prod.mk) (e.pathRequest path) data

def renderText (e : Engine) (source : String) (data : Value) :
    StateM EngineState (Except Failure String) :=
  e.renderRequest (e.cached Prod.mk) (.inline source) data

def compiled {κ : Type} [DecidableEq κ] (e : Engine) (path referencing : String) :
    StateM (EngineState (Cache κ)) (Except Failure CachedUnit) := fun state =>
  let (result, cache) := (e.load (e.resolve path referencing) referencing).run.run state.cache
  (result, { state with cache })

end Engine
end Templating
