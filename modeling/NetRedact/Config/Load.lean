import NetRedact.Config.Override
import NetRedact.Files
import NetRedact.Text.Utf8

/-!
# Loading a configuration

The environment wins over the file, and the file over the defaults.  The file may be absent; if it
is there it must be readable, UTF-8 and a configuration.
-/

namespace NetRedact

open NetRedact.Text

/-- Why no configuration can be loaded. -/
inductive LoadError where
  /-- The file is there but gives no text. -/
  | unreadable (path : String) (error : FileError)
  /-- The text of the file is no configuration. -/
  | malformed
  deriving DecidableEq, Repr

/-- The text of an error. -/
def LoadError.message : LoadError → String
  | .unreadable path error => "failed to read config file " ++ path ++ ": " ++ error.message
  | .malformed => "failed to parse config TOML"

namespace Config

/-- The variable that names the file. -/
def pathVariable : String := "NETVEIL_CONFIG_PATH"

/-- The file that is read if the variable is not set. -/
def defaultPath : String := "netveil.toml"

/-- The path of the file under an environment. -/
def path (env : Environment) : String :=
  (env pathVariable).getD defaultPath

/-- The configuration in the file at a path, given what reading the file came to. -/
def ofFile (path : String) (content : Except FileError (List UInt8)) : Except LoadError Config :=
  match content with
  | .error .notFound => .ok {}
  | .error e => .error (.unreadable path e)
  | .ok bytes =>
    match decodeUtf8 bytes with
    | .error _ => .error (.unreadable path .notText)
    | .ok text =>
      match read? text with
      | some c => .ok c
      | none => .error .malformed

/-- The configuration under an environment.  `readFile` gives the content of the file at a path. -/
def load (env : Environment) (readFile : String → Except FileError (List UInt8)) :
    Except LoadError Config :=
  (ofFile (path env) (readFile (path env))).map (override env)

end Config

end NetRedact
