import Templating.Failure
import Templating.Json
import Templating.Text.Blank
import Templating.Decimal.Numeral

/-!
Configurations of engines: where paths are rooted, whether templates are compiled anew each time,
how deeply they may nest, and the shortcuts.
-/
namespace Templating

/-- What a shortcut stands for: a tag and its first argument. -/
structure ShortcutTarget where
  tag : String
  path : String
  deriving DecidableEq, Repr, Inhabited

def defaultMaxDepth : Nat := 64

/-- Shortcuts are ordered by their aliases. -/
structure Config where
  root : Option String := none
  development : Bool := false
  maxDepth : Nat := defaultMaxDepth
  shortcuts : List (String × ShortcutTarget) := []
  deriving DecidableEq, Repr, Inhabited

def insertSorted {α : Type} (key : String) (value : α) :
    List (String × α) → List (String × α)
  | [] => [(key, value)]
  | (k, v) :: rest =>
    if key < k then (key, value) :: (k, v) :: rest
    else if key = k then (key, value) :: rest
    else (k, v) :: insertSorted key value rest

namespace Config

def withShortcut (c : Config) (aliasName : String) (target : ShortcutTarget) : Config :=
  { c with shortcuts := insertSorted aliasName target c.shortcuts }

def validateShortcut (aliasName : String) (target : ShortcutTarget) : Except ConfigFault Unit :=
  if aliasName.isEmpty || aliasName.toList.any Text.isBlank then .error (.invalidAlias aliasName)
  else if target.path.isEmpty then .error (.emptyPath aliasName)
  else .ok ()

def validate (c : Config) : Except ConfigFault Unit := do
  if c.maxDepth = 0 then throw .noDepth
  c.shortcuts.forM fun (aliasName, target) => validateShortcut aliasName target

/-- The defaults, changed by those variables of the environment that are set. -/
def ofEnvironment (lookup : String → Option String) : Except ConfigFault Config := do
  let development := (lookup "BEARD_ENV").any fun mode =>
    mode.toList.map Char.toLower == "development".toList
  let root := (lookup "BEARD_ROOT").filter (!·.isEmpty)
  let maxDepth ← match lookup "BEARD_MAX_DEPTH" with
    | none => pure defaultMaxDepth
    | some text =>
      match Decimal.readIndex? text.toList with
      | some n => pure n
      | none => throw (.noNumber "BEARD_MAX_DEPTH" text)
  let config : Config := { root, development, maxDepth }
  config.validate
  return config

def fieldNames : List String := ["root", "development", "max_depth", "shortcuts"]

def readRoot? : Json → Option (Option String)
  | .null => some none
  | .string s => some (some s)
  | _ => none

def readBool? : Json → Option Bool
  | .bool b => some b
  | _ => none

def readNat? : Json → Option Nat
  | .integer n => if 0 ≤ n ∧ n ≤ 0xFFFFFFFFFFFFFFFF then some n.toNat else none
  | _ => none

def readString? : Json → Option String
  | .string s => some s
  | _ => none

def readTarget? : Json → Option ShortcutTarget
  | .object members => do
    let tag ← readString? (← members.lookup "tag")
    let path ← readString? (← members.lookup "path")
    return ⟨tag, path⟩
  | .array [tag, path] => do return ⟨← readString? tag, ← readString? path⟩
  | _ => none

def readShortcuts? : Json → Option (List (String × ShortcutTarget))
  | .object members =>
    members.foldlM (fun shortcuts (aliasName, target) => do
      return insertSorted aliasName (← readTarget? target) shortcuts) []
  | _ => none

def field? {α : Type} (members : List (String × Json)) (key : String) (read : Json → Option α)
    (default : α) : Option α :=
  match members.lookup key with
  | some json => read json
  | none => some default

def readMembers? (members : List (String × Json)) : Option Config := do
  let c : Config := {}
  return {
    root := ← field? members "root" readRoot? c.root
    development := ← field? members "development" readBool? c.development
    maxDepth := ← field? members "max_depth" readNat? c.maxDepth
    shortcuts := ← field? members "shortcuts" readShortcuts? c.shortcuts }

/-- Fields may be missing, or come in their order as a list. -/
def ofJson? : Json → Option Config
  | .object members => readMembers? members
  | .array items => if items.length ≤ 4 then readMembers? (fieldNames.zip items) else none
  | _ => none

def toJson (c : Config) : Json :=
  .object [("root", c.root.elim .null .string), ("development", .bool c.development),
    ("max_depth", .integer c.maxDepth),
    ("shortcuts", .object (c.shortcuts.map fun (aliasName, target) =>
      (aliasName, .object [("tag", .string target.tag), ("path", .string target.path)])))]

end Config
end Templating
