import NetRedact.Files
import NetRedact.Text.Decimal
import NetRedact.Time.Calendar

/-!
# Setting up the log

The log goes to standard error and, if a directory is configured, also to a file in it.  There is
one file for each day, and the file of today is opened at once.  A program has one log only, so
setting it up a second time fails, but only after the file has been opened.
-/

namespace NetRedact

open NetRedact.Text

/-- Why the log cannot be set up. -/
inductive LoggingError where
  /-- The directory for the files is not there and cannot be made. -/
  | directory (path : String) (error : FileError)
  /-- There is a log already. -/
  | installed
  deriving DecidableEq, Repr

/-- The text of an error. -/
def LoggingError.message : LoggingError → String
  | .directory path error =>
    "failed to create logs directory " ++ path ++ ": " ++ error.message
  | .installed => "failed to install subscriber"

namespace Logging

/-- What the names of all log files begin with. -/
def fileStem : String := "netveil.log"

/-- The name of the file for a day. -/
def fileName (day : Calendar.Date) : String :=
  fileStem ++ "." ++ String.ofList (padded 4 day.year.toNat ++ '-' :: padded 2 day.month ++
    '-' :: padded 2 day.day)

/-- Whether a name is one of a log file. -/
def isFileName (name : String) : Bool :=
  name.startsWith (fileStem ++ ".")

/-- The tree in which today's file is in a directory. -/
def openFile (today : Calendar.Date) (place : Place) (t : FileTree) : FileTree :=
  let file := FileTree.enter place (fileName today)
  match t.entry? file with
  | some _ => t
  | none => t.insert file (.file [])

/-- Makes the directory for the files and opens today's file in it. -/
def openDirectory (today : Calendar.Date) (working : Place) (path : String) (t : FileTree) :
    Except LoggingError Unit × FileTree :=
  match t.makeDirectories (FileTree.origin working path) (FileTree.names path) with
  | (.ok place, t) => (.ok (), openFile today place t)
  | (.error e, t) => (.error (.directory path e), t)

/-- Sets up the log, with or without a directory.  `installed` says whether there is one already. -/
def start (installed : Bool) (today : Calendar.Date) (working : Place) (directory : Option String)
    (t : FileTree) : Except LoggingError Unit × FileTree :=
  let (opened, t) := match directory with
    | some path => openDirectory today working path t
    | none => (.ok (), t)
  (opened.bind fun _ => if installed then .error .installed else .ok (), t)

end Logging

end NetRedact
