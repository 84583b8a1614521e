import Templating.Engine
import Templating.Render.Context

/-!
The state of an engine between renders and of a render under way. What a failing render has done to
either stays done.
-/
namespace Templating

/-- Inline sources are found by their text and path. -/
abbrev InlineKey := String × String

/-- What is kept of compiled templates, and the number that the next new array, object or function
takes. -/
structure EngineState (σ : Type := Cache InlineKey) where
  cache : σ
  identity : Nat := firstIdentity

def Engine.initialState (e : Engine) : EngineState := { cache := .empty e.config.development }

structure RenderState (σ : Type) where
  context : Context
  engine : EngineState σ

abbrev RenderM (σ : Type) := ExceptT Failure (StateM (RenderState σ))

inductive Request where
  | path (path referencing : String)
  | inline (source : String)

/-- How the template of a request is found or compiled. -/
abbrev Loader (σ : Type) := Request → ExceptT Failure (StateM σ) Template

namespace RenderM

variable {σ α : Type}

def attempt (action : RenderM σ α) : RenderM σ (Except Failure α) :=
  ExceptT.mk do return .ok (← action.run)

def around (enter leave : Context → Context) (action : RenderM σ α) : RenderM σ α :=
  ExceptT.mk do
    modify fun s => { s with context := enter s.context }
    let result ← action.run
    modify fun s => { s with context := leave s.context }
    return result

def within (context : Context) (action : RenderM σ α) : RenderM σ α :=
  ExceptT.mk do
    let outer := (← get).context
    modify fun s => { s with context }
    let result ← action.run
    modify fun s => { s with context := outer }
    return result

/-- The value of an expression. Numbers that it has given out are in use when there is a value. -/
def evaluate (host : HostFunctions) (names : Env) (e : Expr) :
    RenderM σ (Except EvalError Value) := do
  let s ← get
  match (e.evaluate host names).run s.engine.identity with
  | .error error => return .error error
  | .ok (value, identity) =>
    set { s with engine := { s.engine with identity } }
    return .ok value

def ofStore (action : ExceptT Failure (StateM σ) α) : RenderM σ α :=
  ExceptT.mk do
    let s ← get
    let (result, cache) := action.run.run s.engine.cache
    set { s with engine := { s.engine with cache } }
    return result

end RenderM

namespace Engine

def requestPath (e : Engine) : Request → String
  | .path path referencing => e.resolve path referencing
  | .inline _ => e.inlinePath

variable {κ : Type} [DecidableEq κ]

def load (e : Engine) (path referencing : String) : CacheM κ Failure CachedUnit :=
  Cache.getOrCompile path (liftM (e.compileAt path referencing))

def loadInline (e : Engine) (key : String → String → κ) (source : String) :
    CacheM κ Failure CachedUnit :=
  Cache.getOrCompileInline (key source e.inlinePath) source e.inlinePath
    (liftM (e.compileInline source))

def loadRequest (e : Engine) (key : String → String → κ) : Request → CacheM κ Failure CachedUnit
  | .path path referencing => e.load (e.resolve path referencing) referencing
  | .inline source => e.loadInline key source

/-- Templates by way of a cache whose inline units have the given keys, made of text and path. -/
def cached (e : Engine) (key : String → String → κ) : Loader (Cache κ) := fun request => do
  return (← e.loadRequest key request).template

end Engine
end Templating
