import ClassOutline.Error
import ClassOutline.Log

/-!
# Loggers

A run hands what it has to report to a logger. Which entries are shown and how they are laid out is
not for the program to say: the environment decides the one, and the logger the other, which may
depend on the entries it has shown before. `Logger.upTo` is the usual logger, with the levels that
it was told to show, and `Logger.standard` the one that was told nothing.
-/

namespace ClassOutline

/-! ## Entries -/

inductive LogEntry where
  | decoding (record : Record)
  /-- No outline can be given for the file. -/
  | failure (path : String) (error : DecodeError)
  deriving DecidableEq, Repr

namespace LogEntry

def level : LogEntry → Level
  | decoding record => record.level
  | failure .. => .error

/-- The part of the program that an entry comes from. -/
def source : LogEntry → String
  | decoding record => record.source
  | failure .. => "methodtable"

def message : LogEntry → String
  | decoding record => record.message
  | failure path error => path ++ ": " ++ error.message

/-- Whether the entry is at the level or at a more severe one. -/
def isAtLeast (level : Level) : LogEntry → Bool
  | decoding record => record.isAtLeast level
  | failure .. => true

end LogEntry

/-! ## Loggers -/

/-- What a logger makes of the entries handed to it: which of them it shows, and the text of an
entry after those it has shown. -/
structure Logger where
  isEnabled : LogEntry → Bool
  render (shown : List LogEntry) (entry : LogEntry) : String

namespace Logger

/-- What is written for entries that come after those shown. -/
def writtenAfter (logger : Logger) (shown : List LogEntry) : List LogEntry → String
  | [] => ""
  | entry :: entries =>
    if logger.isEnabled entry then
      logger.render shown entry ++ logger.writtenAfter (shown ++ [entry]) entries
    else logger.writtenAfter shown entries

def written (logger : Logger) (entries : List LogEntry) : String :=
  logger.writtenAfter [] entries

def padRight (width : Nat) (text : String) : String :=
  text.pushn ' ' (width - text.length)

/-- The number of columns for where entries come from: those of the longest source. -/
def sourceWidth : List LogEntry → Nat
  | [] => 0
  | entry :: entries => max entry.source.length (sourceWidth entries)

/-- The logger that shows a level and the more severe ones. -/
def upTo (level : Level) : Logger where
  isEnabled entry := entry.isAtLeast level
  render shown entry :=
    " " ++ padRight 5 entry.level.name ++ " " ++
      padRight (sourceWidth (entry :: shown)) entry.source ++ " > " ++ entry.message ++ "\n"

/-- The logger of a run whose environment says nothing about it. -/
def standard : Logger := upTo .error

end Logger

end ClassOutline
