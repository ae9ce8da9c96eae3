/-!
# Log records

A record has a level, the name of the part of the program that logged it, and a
message.
-/

namespace SpatialDiagram

/-- How important a record is. -/
inductive LogLevel where
  | debug
  | info
  | warning
  | error
  | critical
deriving DecidableEq, Repr

namespace LogLevel

/-- The number that levels are compared by. -/
def number : LogLevel → Int
  | debug => 10
  | info => 20
  | warning => 30
  | error => 40
  | critical => 50

/-- The name of a level as records show it. -/
def name : LogLevel → String
  | debug => "DEBUG"
  | info => "INFO"
  | warning => "WARNING"
  | error => "ERROR"
  | critical => "CRITICAL"

/-- The levels from the least important one on. -/
def all : List LogLevel := [debug, info, warning, error, critical]

/-- The level of a name. -/
def ofName? (s : String) : Option LogLevel := all.find? fun l => l.name = s

end LogLevel

/-- A message with its level and the logger that it was given to. -/
structure LogRecord where
  level : LogLevel
  logger : String
  message : String
deriving DecidableEq, Repr

end SpatialDiagram
