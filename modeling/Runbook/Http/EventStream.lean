namespace Runbook.Http

/-!
# Streams of events

A peer may send its answer as a stream of events: lines of text, with an empty line
behind each event.  The data of an event is what stands in its data lines.
-/

/-- The type of content that is a stream of events. -/
def eventStreamType : String := "text/event-stream"

/-- Whether a type of content, with or without parameters, is a stream of events. -/
def isEventStream (contentType : String) : Bool :=
  contentType.takeWhile (· != ';') == eventStreamType

/-- The lines of a stream; each ends with a carriage return, a line feed or both. -/
def lines (line : List Char) : List Char → List (List Char)
  | [] => if line.isEmpty then [] else [line.reverse]
  | '\r' :: '\n' :: rest => line.reverse :: lines [] rest
  | c :: rest =>
      if c = '\r' ∨ c = '\n' then line.reverse :: lines [] rest else lines (c :: line) rest

/-- What stands in a data line. -/
def dataOf? (line : List Char) : Option (List Char) :=
  match line with
  | 'd' :: 'a' :: 't' :: 'a' :: ':' :: ' ' :: rest => some rest
  | 'd' :: 'a' :: 't' :: 'a' :: ':' :: rest => some rest
  | _ => none

/-- The data of the events that some lines make up, behind data lines that came before. -/
def eventsFrom (data : List (List Char)) : List (List Char) → List String
  | [] => []
  | line :: rest =>
      if line.isEmpty then
        if data.isEmpty then eventsFrom [] rest
        else String.ofList (['\n'].intercalate data) :: eventsFrom [] rest
      else
        match dataOf? line with
        | some more => eventsFrom (data ++ [more]) rest
        | none => eventsFrom data rest

/-- The data of the events in a text; an event without an empty line behind it does not
count. -/
def events (text : String) : List String := eventsFrom [] (lines [] text.toList)

end Runbook.Http
