/-!
# Log

What the program says about its work besides its results.
-/

namespace HardcodedText

/-- How important an entry of the log is. -/
inductive Level
  | debug
  | info
  | warning
  | error
deriving DecidableEq, Repr, Inhabited

namespace Level

/-- The name of a level. -/
def name : Level → String
  | debug => "DEBUG"
  | info => "INFO"
  | warning => "WARNING"
  | error => "ERROR"

/-- The place of a level in the order of importance. -/
def rank : Level → Nat
  | debug => 0
  | info => 1
  | warning => 2
  | error => 3

end Level

/-- An entry of the log. -/
structure LogEntry where
  /-- How important it is. -/
  level : Level
  /-- What it says. -/
  message : String
deriving DecidableEq, Repr, Inhabited

namespace LogEntry

/-- The line of an entry. -/
def text (e : LogEntry) : String := e.level.name ++ " " ++ e.message

/-- The lines of the entries that are at least as important as a level. -/
def textsFrom (least : Level) (log : List LogEntry) : List String :=
  (log.filter fun e ↦ least.rank ≤ e.level.rank).map text

end LogEntry

end HardcodedText
