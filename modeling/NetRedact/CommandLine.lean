/-!
# The command line

The words behind the name of the program are a command and options.  `Request.read` says what they
ask for.  The option `--config` may stand before and behind the command, once in each place, and the
one behind counts.  Words are taken from left to right, so a wish for help or for the version is met
if nothing before it is wrong.
-/

namespace NetRedact.CommandLine

/-- What the program can do. -/
inductive Command where
  /-- Run the gateway. -/
  | serve
  /-- Check the configuration. -/
  | checkConfig
  deriving DecidableEq, Repr

namespace Command

/-- The word for a command. -/
def label : Command → String
  | .serve => "serve"
  | .checkConfig => "check-config"

/-- What a command does, for its users. -/
def about : Command → String
  | .serve => "Run the HTTP gateway"
  | .checkConfig => "Load and validate configuration, then print a summary"

/-- Every command. -/
def all : List Command := [.serve, .checkConfig]

/-- The command with the given word. -/
def ofLabel? (word : String) : Option Command :=
  all.find? fun command => command.label == word

end Command

/-- What help can be about. -/
inductive Topic where
  | program
  | command (command : Command)
  /-- The command for help itself. -/
  | help
  deriving DecidableEq, Repr

/-- What a command line asks for. -/
inductive Request where
  /-- A command, with the path given by the option. -/
  | run (command : Command) (config : Option String)
  | help (topic : Topic)
  | version
  /-- Nothing that the program understands. -/
  | invalid
  deriving DecidableEq, Repr

/-- The name of the program. -/
def programName : String := "netveil"

/-- The version of the program. -/
def programVersion : String := "0.1.0"

/-- The word of the command for help. -/
def helpWord : String := "help"

/-- The option for the path of the configuration. -/
def configOption : String := "--config"

/-- Whether a word is taken for an option rather than for the value of one. -/
def isOption (word : String) : Bool :=
  word.startsWith "-" && word != "-"

/-- Whether a word asks for help. -/
def isHelp (word : String) : Bool :=
  word = "--help" || word.startsWith "-h"

/-- Whether a word asks for the version. -/
def isVersion (word : String) : Bool :=
  word = "--version" || word.startsWith "-V"

/-- What the words behind the command for help ask for. -/
def helpRequest : List String → Request
  | [] => .help .program
  | [word] =>
    match Command.ofLabel? word with
    | some command => .help (.command command)
    | none => if word = helpWord then .help .help else .invalid
  | _ => .invalid

/-- Before or behind the command, with the paths given so far. -/
inductive Stage where
  | before (config : Option String)
  | behind (command : Command) (outer config : Option String)

namespace Stage

/-- The stage with a path, unless it has one in this place already.  The empty path is refused. -/
def withConfig? (stage : Stage) (path : String) : Option Stage :=
  if path.isEmpty then none
  else match stage with
    | .before none => some (.before (some path))
    | .behind command outer none => some (.behind command outer (some path))
    | _ => none

/-- What is asked for if no more words come. -/
def request : Stage → Request
  | .before _ => .invalid
  | .behind command outer config => .run command (config.or outer)

/-- What help is about at this stage. -/
def topic : Stage → Topic
  | .before _ => .program
  | .behind command _ _ => .command command

end Stage

/-- The value in a word that gives the option and its value. -/
def attached? (word : String) : Option String :=
  let lead := configOption.toList ++ ['=']
  if word.toList.take lead.length = lead then some (String.ofList (word.toList.drop lead.length))
  else none

/-- What the remaining words ask for at a stage. -/
def Request.readFrom (stage : Stage) : List String → Request
  | [] => stage.request
  | word :: rest =>
    if word = configOption then
      match rest with
      | [] => .invalid
      | path :: rest =>
        if isOption path then .invalid
        else match stage.withConfig? path with
          | some stage => readFrom stage rest
          | none => .invalid
    else match attached? word with
      | some path =>
        match stage.withConfig? path with
        | some stage => readFrom stage rest
        | none => .invalid
      | none =>
        if isHelp word then .help stage.topic
        else match stage with
          | .behind _ _ _ => if word = "--" ∧ rest.isEmpty then stage.request else .invalid
          | .before config =>
            if isVersion word then .version
            else match Command.ofLabel? word with
              | some command => readFrom (.behind command config none) rest
              | none => if word = helpWord then helpRequest rest else .invalid

/-- What a command line asks for. -/
def Request.read (words : List String) : Request :=
  readFrom (.before none) words

/-! ## Texts for users -/

/-- What the program does. -/
def aboutProgram : String :=
  "Privacy-filtering gateway that swaps IP and MAC addresses for surrogates before text reaches " ++
    "an LLM"

/-- What the command for help does. -/
def aboutHelp : String :=
  "Print this message or the help of the given subcommand(s)"

/-- Rows of two columns, two blanks in front and two between. -/
def columns (rows : List (String × String)) : List String :=
  let width := (rows.map fun row => row.1.length).foldl max 0
  rows.map fun (left, right) =>
    "  " ++ left ++ String.ofList (List.replicate (width - left.length + 2) ' ') ++ right

/-- The options that every command has. -/
def optionRows : List (String × String) :=
  [("    " ++ configOption ++ " <CONFIG>",
      "Config file path (overrides \x60$NETVEIL_CONFIG_PATH\x60)"),
    ("-h, --help", "Print help")]

/-- The lines of the help about a topic. -/
def helpLines : Topic → List String
  | .program =>
    [aboutProgram, "", "Usage: " ++ programName ++ " [OPTIONS] <COMMAND>", "", "Commands:"] ++
    columns (Command.all.map (fun c => (c.label, c.about)) ++ [(helpWord, aboutHelp)]) ++
    ["", "Options:"] ++ columns (optionRows ++ [("-V, --version", "Print version")])
  | .command c =>
    [c.about, "", "Usage: " ++ programName ++ " " ++ c.label ++ " [OPTIONS]", "", "Options:"] ++
    columns optionRows
  | .help =>
    [aboutHelp, "", "Usage: " ++ programName ++ " " ++ helpWord ++ " [COMMAND]...", "",
      "Arguments:"] ++
    columns [("[COMMAND]...", "Print help for the subcommand(s)")]

/-- The line that gives the version. -/
def versionLine : String :=
  programName ++ " " ++ programVersion

end NetRedact.CommandLine
