import SpatialDiagram.Log.Record
import SpatialDiagram.Text.Folding
import SpatialDiagram.Text.Lines

/-!
# Logging to a stream

The program logs to one stream above a least level. A level is given by number
or by name, in any case; an unknown name means information. Setting up again
replaces the level and leaves one handler.
-/

namespace SpatialDiagram

namespace Log

/-- A bound for levels, by number or by name. -/
inductive Threshold where
  | number (n : Int)
  | name (s : String)
deriving DecidableEq, Repr

/-- The names of levels with their numbers; some levels have two. -/
def levelNumbers : List (String × Int) :=
  [("CRITICAL", 50), ("FATAL", 50), ("ERROR", 40), ("WARN", 30), ("WARNING", 30), ("INFO", 20),
   ("DEBUG", 10), ("NOTSET", 0)]

namespace Threshold

/-- The number of a bound; a name that is not known counts like that of plain information. -/
def toNumber : Threshold → Int
  | number n => n
  | name s =>
      (levelNumbers.lookup (String.ofList (Text.upper s.toList))).getD LogLevel.info.number

end Threshold

/-- The name of a level by number. -/
def levelName (n : Int) : String :=
  match LogLevel.all.find? fun l => l.number = n with
  | some l => l.name
  | none => if n = 0 then "NOTSET" else "Level " ++ toString n

/-- A name cut or filled up to five characters. -/
def padded (s : String) : String :=
  String.ofList ((s.toList ++ List.replicate 5 ' ').take 5)

/-- A record on its lines, without the time in front. -/
def format (level logger message : String) : String :=
  "[" ++ padded level ++ "] [" ++ logger ++ "] " ++ message

/-- The level in force and what the stream holds. -/
structure Stream where
  threshold : Int
  lines : List String := []
deriving DecidableEq, Repr

namespace Stream

/-- Writes a record that is important enough for the stream. -/
def write (s : Stream) (level : Int) (logger message : String) : Stream :=
  if s.threshold ≤ level then
    { s with lines := s.lines ++ [format (levelName level) logger message] }
  else s

/-- Sets the level and says so at the lowest level of detail. -/
def setUp (s : Stream) (t : Threshold) : Stream :=
  { s with threshold := t.toNumber }.write LogLevel.debug.number "ast3d_core.log_config"
    ("Logging configured at level " ++ levelName t.toNumber ++ ".")

end Stream

end Log

end SpatialDiagram
