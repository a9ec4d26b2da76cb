/-!
The debugging form of a record: its name and its fields in braces, either on one
line or one field a line, four spaces deeper for each level and a comma after
each field.
-/

namespace OrderedLanes

/-- A debugging text in both layouts: on one line, and as a list of lines. -/
structure DebugText where
  compact : String
  lines : List String
  deriving DecidableEq, Repr

namespace DebugText

/-- A text that looks the same in both layouts. -/
def plain (s : String) : DebugText := ⟨s, [s]⟩

/-- Append `suffix` to the last line. -/
def endWith (suffix : String) : List String → List String
  | [] => [suffix]
  | [line] => [line ++ suffix]
  | line :: rest => line :: endWith suffix rest

/-- The lines of one field: the name leads the first, a comma ends the last. -/
def fieldLines (field : String × DebugText) : List String :=
  match endWith "," field.2.lines with
  | [] => []
  | first :: rest => (field.1 ++ ": " ++ first) :: rest

/-- A record whose fields end with the items `more`, which stand as they are. -/
def recordWith (name : String) (fields : List (String × DebugText)) (more : List String) :
    DebugText where
  compact := name ++ " \x7b " ++
    ", ".intercalate (fields.map (fun f => f.1 ++ ": " ++ f.2.compact) ++ more) ++ " \x7d"
  lines := [name ++ " \x7b"] ++
    ((fields.flatMap fieldLines ++ more).map ("    " ++ ·)) ++ ["\x7d"]

/-- A record that shows all its fields. -/
def record (name : String) (fields : List (String × DebugText)) : DebugText :=
  recordWith name fields []

/-- A record that hides some fields, marked by two dots at the end. -/
def partialRecord (name : String) (fields : List (String × DebugText)) : DebugText :=
  recordWith name fields [".."]

/-- One field a line. -/
def indented (t : DebugText) : String := "\n".intercalate t.lines

/-- A number of any width. -/
def number (n : Nat) : DebugText := plain (toString n)

def flag (b : Bool) : DebugText := plain (if b then "true" else "false")

end DebugText

end OrderedLanes
