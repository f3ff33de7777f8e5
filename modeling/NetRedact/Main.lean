import NetRedact.Http.Service
import NetRedact.Maintenance
import NetRedact.Startup
import NetRedact.Store.Memory
import Std.Time.DateTime.Timestamp

/-!
# The program

The outer layer: it shows the library what it meets (arguments, variables, files, clocks, random
bytes) and carries out what the library decides.  The gateway takes requests from standard input,
one body of a redaction request on each line, and answers each with the body of its response.
Records are kept in memory; no other server is reached from here.
-/

namespace NetRedact.Program

/-- The path of a place. -/
def pathTo (place : Place) : String :=
  "/" ++ "/".intercalate place.reverse

/-- The place of the directory that the program works in. -/
def workingPlace : IO Place := do
  let path ← IO.currentDir
  return ((FileTree.names path.toString).filter (· ≠ "")).reverse

/-- What there is at a place. -/
def probe (place : Place) : IO (Option FileEntry) := do
  try
    let bytes ← IO.FS.readBinFile (pathTo place)
    return some (.file bytes.toList)
  catch
    | .inappropriateType _ _ _ => return some .directory
    | _ => return none

/-- The places that names lead through. -/
def passed (place : Place) : List String → List Place
  | [] => [place]
  | name :: rest => place :: passed (FileTree.enter place name) rest

/-- The tree with everything that a path leads through. -/
def look (working : Place) (t : FileTree) (path : String) : IO FileTree := do
  let places := passed (FileTree.origin working path) (FileTree.names path)
  places.foldlM (fun t place => do
    match ← probe place with
    | some entry => return t.insert place entry
    | none => return t) t

/-- Makes what a tree has beyond another one. -/
def carryOut (before after : FileTree) : IO Unit := do
  for (place, entry) in after.entries.entries.reverse do
    if (before.entry? place).isNone then
      match entry with
      | .directory => IO.FS.createDir (pathTo place)
      | .file _ => discard (IO.FS.Handle.mk (pathTo place) .append)

/-- The variables that the library asks for. -/
def environment : IO Environment := do
  let values ← (Config.pathVariable :: Config.variableNames).mapM fun name => do
    return (name, ← IO.getEnv name)
  return fun name => (values.lookup name).join

/-- The monotone clock. -/
def moment : IO Moment := do
  return ⟨← IO.monoNanosNow⟩

/-- The wall clock. -/
def timestamp : IO Timestamp := do
  let nanos := (← Std.Time.Timestamp.now).toNanosecondsSinceUnixEpoch.val
  return ⟨nanos / 1000000000, (nanos % 1000000000).toNat⟩

/-- A sequence of draws from fresh random bytes. -/
def draws : IO (Nat → Octets 16) := do
  let seed ← IO.getRandomBytes 32
  return fun n =>
    leading 16 (Hash.hmacSha256 seed.toList (Hash.Sha256.bigEndian 8 n)).toList

/-- What the next request meets. -/
def occasion (draw : Nat → Octets 16) : IO Occasion := do
  let now ← moment
  return {
    checkedAt := now
    storedAt := now
    stampedAt := ← timestamp
    handle := .ofDraw (draw 0)
    saltDraw := draw 1
    draws := fun i => draw (i + 3)
    expiry := none }

/-- A request for a redaction with the given body. -/
def redactionRequest (body : String) : Http.Request where
  method := "POST"
  target := "/redact".toList
  headers := [⟨"content-type", "application/json".toUTF8.toList⟩]
  body := body.toUTF8.toList
  peer := none

/-- Answers requests until there are no more. -/
partial def answerAll (g : Gateway MemoryStore) (upkeep : Option MaintenanceLoop)
    (state : Http.ServiceState MemoryStore) : IO Unit := do
  let line ← (← IO.getStdin).getLine
  if line.isEmpty then return
  let now ← moment
  let (upkeep, limiter, records) := match upkeep with
    | some l =>
      let (l, limiter, records) := l.poll g.store now state.gateway.limiter state.gateway.records
      (some l, limiter, records)
    | none => (none, state.gateway.limiter, state.gateway.records)
  let draw ← draws
  let (response, state) := Http.handle g (redactionRequest line.trimAsciiEnd.toString)
    (← occasion draw) (draw 2) { state with gateway := ⟨limiter, records⟩ }
  IO.println (String.ofList response.body)
  (← IO.getStdout).flush
  answerAll g upkeep state

/-- Serves with what the gateway runs with. -/
def serve (started : Started Unit) : IO Unit := do
  let c := started.config
  let gateway : Gateway MemoryStore := ⟨.memory, started.key, .ofConfig c⟩
  let upkeep := MaintenanceLoop.start? (.ofSeconds c.mapping.cleanupIntervalSecs) (← moment)
  answerAll gateway upkeep ⟨⟨.ofConfig c, .empty⟩, true⟩

/-- Shows how the program ends. -/
def finish (ending : Ending) : IO UInt32 := do
  ending.output.forM fun line => IO.println line
  ending.report.forM fun line => IO.eprintln line
  return UInt32.ofNat ending.code

/-- What the program meets, as far as paths in its configuration lead. -/
def surroundings : IO (Surroundings Unit) := do
  let now ← timestamp
  return {
    environment := ← environment
    working := ← workingPlace
    files := default
    today := Calendar.dateOf (now.day + Calendar.epochDay)
    now := ← moment
    dial := fun _ => none
    answer := fun _ _ server => (none, server) }

/-- Runs the gateway. -/
def runGateway (s : Surroundings Unit) (path : Option String) : IO UInt32 := do
  match Startup.loadConfig s path with
  | .error e => finish (.failure e)
  | .ok c =>
    let files ← look s.working s.files (c.logging.directory.getD ".")
    let (started, after, _) := Startup.start { s with files } c
    carryOut files after
    match started with
    | .ok started => serve started; finish (.success [])
    | .error e => finish (.failure e)

end NetRedact.Program

open NetRedact NetRedact.Program in
/-- Runs the program with the words of its command line. -/
def main (words : List String) : IO UInt32 := do
  let s ← surroundings
  match CommandLine.Request.read words with
  | .run command path =>
    let configPath := Config.path (Startup.environmentWith s.environment path)
    let s := { s with files := ← look s.working s.files configPath }
    match command with
    | .serve => runGateway s path
    | .checkConfig => finish (Startup.run s words).1
  | _ => finish (Startup.run s words).1
