import Mathlib.Data.List.Basic

/-!
# Event streams

The format of `text/event-stream`: lines with a field each, and a blank line at the end of an event.

* `lines`, `dataOf`, `events`: the data of the events of a stream; the lines of one event's data are joined.
* `read`: the data of a whole stream; `event`: an event whose data are one line.
-/

namespace EventStream

/-- The lines that have ended: with `\n`, `\r\n` or `\r`. -/
def lines : List Char → List Char → List (List Char)
  | _, [] => []
  | line, '\r' :: '\n' :: text => line :: lines [] text
  | line, c :: text => if c = '\n' ∨ c = '\r' then line :: lines [] text else lines (line ++ [c]) text

/-- The value of a line whose field is `data`; one blank after the colon is not part of it. -/
def dataOf : List Char → Option (List Char)
  | ['d', 'a', 't', 'a'] => some []
  | 'd' :: 'a' :: 't' :: 'a' :: ':' :: ' ' :: value => some value
  | 'd' :: 'a' :: 't' :: 'a' :: ':' :: value => some value
  | _ => none

/-- The data of the events that have ended, after some data lines of an event. -/
def events : List (List Char) → List (List Char) → List (List Char)
  | _, [] => []
  | pending, [] :: rest =>
    if pending.isEmpty then events [] rest else ['\n'].intercalate pending :: events [] rest
  | pending, line :: rest =>
    match dataOf line with
    | some value => events (pending ++ [value]) rest
    | none => events pending rest

/-- The data of the events of a stream. -/
def read (text : List Char) : List (List Char) := events [] (lines [] text)

/-- An event with one line of data. -/
def event (data : List Char) : List Char := ['d', 'a', 't', 'a', ':', ' '] ++ data ++ ['\n', '\n']

end EventStream
