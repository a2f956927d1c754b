import ClassOutline.Logger
import ClassOutline.Outline.Decode
import ClassOutline.Outline.Listing

/-!
# The command line

Every argument is the path of a class file. A file that decodes is listed on standard output; the
failure of one that does not is logged, and the files after it are still processed. What was logged
is written to standard error, as far as the logger shows it, and the exit code tells whether any
file failed.
-/

namespace ClassOutline

/-- What opening each path gives: a failure, or the steps of the stream behind it. -/
abbrev FileSystem := String → Except IoFailure (List ReadStep)

/-- What a run of the program leaves behind. -/
@[ext] structure Transcript where
  stdout : String
  stderr : String
  exitCode : UInt32
  deriving DecidableEq, Repr

namespace CommandLine

/-- Where the loop over the files stands: what was printed, what was logged, and whether any file
has failed. -/
@[ext] structure State where
  printed : String
  logged : List LogEntry
  failed : Bool
  deriving DecidableEq, Repr

def State.initial : State := ⟨"", [], false⟩

/-- The positions in a file, once an attempt was made to open it. -/
def readFile (opened : Except IoFailure (List ReadStep)) : Logged Positions :=
  match opened with
  | .error failure => ⟨.error (.io failure), #[]⟩
  | .ok steps => Positions.read steps

def step (path : String) (opened : Except IoFailure (List ReadStep)) (state : State) : State :=
  let read := readFile opened
  let state := { state with logged := state.logged ++ read.log.toList.map LogEntry.decoding }
  match read.result with
  | .error error =>
    { state with logged := state.logged ++ [LogEntry.failure path error], failed := true }
  | .ok positions =>
    { state with printed := state.printed ++ Listing.block path positions.toList }

/-- Where the loop stands when all files are processed. -/
def finalState (files : FileSystem) (paths : List String) : State :=
  paths.foldl (fun state path => step path (files path) state) .initial

def State.transcript (logger : Logger) (state : State) : Transcript where
  stdout := state.printed
  stderr := logger.written state.logged
  exitCode := if state.failed then 1 else 0

/-- What a run leaves behind that reports to the given logger. -/
def runWith (logger : Logger) (files : FileSystem) (paths : List String) : Transcript :=
  (finalState files paths).transcript logger

/-- What a run with the given paths leaves behind. -/
def run (files : FileSystem) (paths : List String) : Transcript :=
  runWith .standard files paths

end CommandLine

end ClassOutline
