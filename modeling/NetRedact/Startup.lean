import NetRedact.CommandLine
import NetRedact.Config.Load
import NetRedact.Config.Summary
import NetRedact.Config.Validate
import NetRedact.Logging
import NetRedact.Store.Redis

/-!
# Start-up

What the program does from its command line up to the moment at which it serves, and how it ends.
Everything that it meets (the environment, the files, the date, the servers that can be reached) is
given as `Surroundings`.  Both commands load the configuration first; the gateway then sets up its
log, checks the configuration, makes its key and reaches its store, in this order.
-/

namespace NetRedact

/-- Why the program ends before it has done its work. -/
inductive StartupError where
  | loading (error : LoadError)
  | logging (error : LoggingError)
  | invalid (error : ConfigError)
  /-- The secret of a valid configuration gives no key. -/
  | secret (error : ConfigError)
  /-- The server for the records cannot be reached. -/
  | redis (error : StoreError)

namespace StartupError

/-- What happened, and what caused it, one cause after the other. -/
def chain : StartupError → List String
  | .loading .malformed =>
    ["failed to load configuration", LoadError.malformed.message, "not a configuration"]
  | .loading error => ["failed to load configuration", error.message]
  | .logging error => [error.message]
  | .invalid error => ["configuration is invalid", error.message]
  | .secret error => ["deterministic secret rejected", error.message]
  | .redis error => ["failed to connect to redis", error.message]

/-- The lines of a text with `first` in front of the first one and blanks of this width in front of
the others. -/
def hanging (first text : String) : List String :=
  match text.splitOn "\n" with
  | [] => []
  | line :: rest =>
    (first ++ line) ::
      rest.map fun line => String.ofList (List.replicate first.length ' ') ++ line

/-- The lines for the causes.  Several causes are numbered from zero. -/
def causeLines : List String → List String
  | [] => []
  | [cause] => "" :: "Caused by:" :: hanging "    " cause
  | causes =>
    "" :: "Caused by:" :: causes.zipIdx.flatMap fun (cause, i) =>
      let number := toString i
      hanging (String.ofList (List.replicate (5 - number.length) ' ') ++ number ++ ": ") cause

/-- The lines of the report on standard error. -/
def report (e : StartupError) : List String :=
  match e.chain with
  | [] => []
  | head :: causes => ("Error: " ++ head).splitOn "\n" ++ causeLines causes

end StartupError

/-- What the program meets when it starts. -/
structure Surroundings (σ : Type) where
  environment : Environment
  /-- The directory that the program works in. -/
  working : Place
  files : FileTree
  today : Calendar.Date
  now : Moment
  /-- The Redis server at a URL, if one can be reached there. -/
  dial : String → Option σ
  /-- Sends a command to a server. -/
  answer : Moment → Redis.Command → σ → Option Redis.Reply × σ

/-- How the program ends: its exit code, and the lines on standard output and standard error. -/
structure Ending where
  code : Nat
  output : List String
  report : List String
  deriving DecidableEq, Repr

namespace Ending

/-- The end after a success. -/
def success (output : List String) : Ending := ⟨0, output, []⟩

/-- The end after an error. -/
def failure (e : StartupError) : Ending := ⟨1, [], e.report⟩

/-- The end after a command line that asks for nothing. -/
def misuse : Ending := ⟨2, [], []⟩

end Ending

/-- Where a gateway that has started keeps its records. -/
inductive Backing (σ : Type) where
  | memory
  | redis (server : σ)

/-- What a gateway that has started runs with. -/
structure Started (σ : Type) where
  config : Config
  key : Option Key
  backing : Backing σ

namespace Startup

variable {σ : Type}

/-- The environment in which an option on the command line takes the place of the variable for the
path of the configuration. -/
def environmentWith (env : Environment) (path : Option String) : Environment :=
  fun name => if name = Config.pathVariable then path.or (env name) else env name

/-- Loads the configuration. -/
def loadConfig (s : Surroundings σ) (path : Option String) : Except StartupError Config :=
  (Config.load (environmentWith s.environment path) (s.files.read s.working)).mapError .loading

/-- Checks a configuration: the lines of the answer. -/
def checkConfig (c : Config) : Except StartupError (List String) := do
  c.validate.mapError .invalid
  let _ ← c.deterministicKey.mapError .secret
  return c.summaryLines ++ ["configuration OK"]

/-- Reaches the store for the records, and says what became of the server that was asked. -/
def openStore (s : Surroundings σ) (c : Config) : Except StartupError (Backing σ) × Option σ :=
  match c.mapping.backend with
  | .memory => (.ok .memory, none)
  | .redis =>
    match s.dial (c.mapping.redisUrl.getD "") with
    | none => (.error (.redis (.unavailable "no connection")), none)
    | some server =>
      let store := MappingStore.redis c.mapping.redisNamespace.toList s.answer
      match store.ping s.now server with
      | (.ok (), server) => (.ok (.redis server), some server)
      | (.error e, server) => (.error (.redis e), some server)

/-- The key under a configuration that must be valid. -/
def validKey (c : Config) : Except StartupError (Option Key) := do
  c.validate.mapError .invalid
  c.deterministicKey.mapError .secret

/-- Starts the gateway under a configuration: what it runs with, the files afterwards, and the
server that was asked. -/
def start (s : Surroundings σ) (c : Config) :
    Except StartupError (Started σ) × FileTree × Option σ :=
  let (logged, files) := Logging.start false s.today s.working c.logging.directory s.files
  match logged with
  | .error e => (.error (.logging e), files, none)
  | .ok () =>
    match validKey c with
    | .error e => (.error e, files, none)
    | .ok key =>
      let (backing, server) := openStore s c
      (backing.map fun backing => ⟨c, key, backing⟩, files, server)

/-- Runs a command.  The gateway serves until it is told to stop, and ends with success then. -/
def runCommand (s : Surroundings σ) (command : CommandLine.Command) (path : Option String) :
    Ending × FileTree × Option σ :=
  match loadConfig s path with
  | .error e => (.failure e, s.files, none)
  | .ok c =>
    match command with
    | .checkConfig =>
      match checkConfig c with
      | .ok lines => (.success lines, s.files, none)
      | .error e => (.failure e, s.files, none)
    | .serve =>
      match start s c with
      | (.ok _, files, server) => (.success [], files, server)
      | (.error e, files, server) => (.failure e, files, server)

/-- Runs the program. -/
def run (s : Surroundings σ) (words : List String) : Ending × FileTree × Option σ :=
  match CommandLine.Request.read words with
  | .run command path => runCommand s command path
  | .help topic => (.success (CommandLine.helpLines topic), s.files, none)
  | .version => (.success [CommandLine.versionLine], s.files, none)
  | .invalid => (.misuse, s.files, none)

end Startup

end NetRedact
