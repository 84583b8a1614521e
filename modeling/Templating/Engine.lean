import Templating.Tag.Registry
import Templating.Cache
import Templating.Eval
import Templating.Path
import Templating.Template.Compile

/-!
Engines: a checked configuration with its tags, and the place where templates come from.
-/
namespace Templating

structure TemplateSource where
  text : String → Option String
  handle : String → Option Value := fun _ => none

def TemplateSource.ofList (templates : List (String × String)) (handles : Members := []) :
    TemplateSource where
  text path := templates.lookup path
  handle path := handles.lookup path

structure Engine where
  config : Config
  tags : Registry
  grammar : Grammar
  source : TemplateSource
  host : HostFunctions

structure EngineSetup where
  source : TemplateSource
  host : HostFunctions
  config : Config := {}
  tags : Registry := .initial

namespace EngineSetup

def withTag (s : EngineSetup) (name : String) (tag : Tag) : EngineSetup :=
  { s with tags := s.tags.insert name tag }

def withShortcut (s : EngineSetup) (aliasName : String) (target : ShortcutTarget) : EngineSetup :=
  { s with config := s.config.withShortcut aliasName target }

def engine (s : EngineSetup) : Engine :=
  { config := s.config, tags := s.tags, grammar := s.tags.grammar s.config.shortcuts,
    source := s.source, host := s.host }

def build (s : EngineSetup) : Except ConfigFault Engine := do
  s.config.validate
  s.tags.validate s.config.shortcuts
  return s.engine

end EngineSetup

namespace Engine

def plain (source : TemplateSource) (host : HostFunctions) : Engine :=
  EngineSetup.engine { source, host }

/-- The path meant by one written in the template at `referencing`. -/
def resolve (e : Engine) (path referencing : String) : String :=
  Path.resolve path referencing e.config.root

/-- Where a render that no template asks for begins: below the root, unless the path says otherwise.
-/
def entryPath (e : Engine) (path : String) : String :=
  match e.config.root with
  | some root =>
    if path.toList.head? = some '/' ∨ path.toList.head? = some '~' then e.resolve path ""
    else e.resolve (root ++ "/" ++ path) ""
  | none => e.resolve path ""

def inlinePath (e : Engine) : String :=
  match e.config.root with
  | some root => String.ofList ((root.toList.reverse.dropWhile (· == '/')).reverse ++ ['/'])
  | none => "/"

/-- What failures name when no template asked for a path. -/
def referrer (referencing : String) : String :=
  if referencing.isEmpty then "<render>" else referencing

def compileAt (e : Engine) (path referencing : String) : Except Failure Template :=
  match e.source.text path with
  | none => .error (.notFound path (referrer referencing))
  | some text =>
    match Template.compile e.grammar path text with
    | .ok template => .ok template
    | .error error => .error (.invalid error)

def compileInline (e : Engine) (source : String) : Except Failure Template :=
  match Template.compile e.grammar e.inlinePath source with
  | .ok template => .ok template
  | .error error => .error (.invalid error)

end Engine
end Templating
