import CommandChain.Config.Document
import CommandChain.Config.FileTree

/-!
Where settings are kept. A path that is given explicitly goes before one in the environment, and
that before the user's own file; a file that is missing stands for the standard settings.
-/
namespace CommandChain

/-- The variables as they were set, one after the other. -/
abbrev Environment := List (String × String)

/-- The value of a variable: the one it was set to last. -/
def Environment.value? (env : Environment) (name : String) : Option String :=
  env.reverse.lookup name

inductive SettingsError where
  /-- The path could not be read or written. -/
  | io (path : String)
  | malformed (path : String)
  | unprintable
  deriving DecidableEq, Repr

namespace SettingsError

def code : SettingsError → String
  | .io _ => "Io"
  | .malformed _ => "Parse"
  | .unprintable => "Serialize"

def path? : SettingsError → Option String
  | .io path => some path
  | .malformed path => some path
  | .unprintable => none

end SettingsError

namespace Settings

def fileVariable : String := "CATENA_CONFIG"

def directoryName : String := "catena"

def fileName : String := "config.toml"

def join (directory name : String) : String :=
  if directory = "" ∨ directory.endsWith "/" then directory ++ name else directory ++ "/" ++ name

def directory? (env : Environment) : Option String :=
  match Environment.value? env "XDG_CONFIG_HOME" with
  | some base => some (join base directoryName)
  | none =>
    match Environment.value? env "HOME" with
    | some home => some (join (join home ".config") directoryName)
    | none => (Environment.value? env "APPDATA").map (join · directoryName)

def path? (env : Environment) : Option String := (directory? env).map (join · fileName)

def loadFile (tree : FileTree) (path : String) (library : Toml.Library := .basic) :
    Except SettingsError Settings :=
  if !tree.isPresent path then .ok standard
  else match tree.readText? path with
    | none => .error (.io path)
    | some text =>
      match read? library text with
      | some settings => .ok settings
      | none => .error (.malformed path)

def source? (env : Environment) (explicit : Option String) : Option String :=
  (explicit.or (Environment.value? env fileVariable)).or (path? env)

def load (tree : FileTree) (env : Environment) (explicit : Option String)
    (library : Toml.Library := .basic) : Except SettingsError Settings :=
  match source? env explicit with
  | some path => loadFile tree path library
  | none => .ok standard

def prepare (tree : FileTree) (path : String) : Except SettingsError FileTree :=
  match FileTree.parent? path with
  | none => .ok tree
  | some directory =>
    if tree.isPresent directory then .ok tree
    else match tree.makeDirectories? directory with
      | some tree => .ok tree
      | none => .error (.io directory)

def save (tree : FileTree) (settings : Settings) (path : String)
    (library : Toml.Library := .basic) : Except SettingsError FileTree := do
  let tree ← prepare tree path
  match settings.print? library with
  | none => .error .unprintable
  | some text =>
    match tree.write? path text with
    | some tree => .ok tree
    | none => .error (.io path)

end Settings
end CommandChain
