import DemandPaging.Log.Level

/-!
# Log records

A record names its level, the part of the program it comes from and a message.
It is written as one line.
-/

namespace DemandPaging.Log

/-- One log record. -/
structure Record where
  /-- How grave the record is. -/
  level : Level
  /-- The part of the program that wrote the record. -/
  target : String
  /-- What the record says. -/
  message : String
  deriving DecidableEq, Repr

/-- The fragments of which the line of a record is put together. -/
def Record.fragments (r : Record) : List String :=
  ["[", r.level.text, "] ", r.target, ": ", r.message]

/-- The line of a record, without its end. -/
def Record.line (r : Record) : String := String.join r.fragments

/-- What reaches the log: a record, or a line that is written whatever the threshold. -/
inductive Line where
  | record (r : Record)
  | bare (text : String)
  deriving DecidableEq, Repr

/-- The text of a line, unless the threshold suppresses it. -/
def Line.text? (threshold : Threshold) : Line → Option String
  | record r => if threshold.keeps r.level then some r.line else none
  | bare text => some text

end DemandPaging.Log
