import Taskflow.Json.Lexeme
import Taskflow.Json.Quoted
import Taskflow.Json.Tree

/-!
# Reading JSON texts

One pass over the lexemes with a stack of the containers that are open. A text is read to its
end even if a part of it is unreadable, since nobody may ask for that part.
-/

namespace Taskflow.Json

/-- How many containers may be nested in one another. -/
def greatestDepth : Nat := 127

/-- A container that is open. What it holds so far is in reverse. Text that cannot be read is
missing. -/
inductive Frame
  | array (items : List Json)
  | object (members : List (Option String × Json)) (key : Option String)

/-- What may come next. -/
inductive Expecting
  /-- A value. -/
  | value
  /-- The first item of an array, or its end. -/
  | firstItem
  /-- The first key of an object, or its end. -/
  | firstKey
  /-- A further key of an object. -/
  | key
  /-- The colon behind a key. -/
  | colon
  /-- A comma, or the end of the innermost container. -/
  | separator
  /-- Nothing, since the value is complete. -/
  | nothing (value : Json)

/-- How far a text has been read: the open containers, the innermost first, and what may come
next. -/
structure Reader where
  /-- The open containers, the innermost first. -/
  frames : List Frame
  /-- What may come next. -/
  expecting : Expecting

/-- Go on after a value. -/
def Reader.complete (value : Json) : List Frame → Reader
  | [] => ⟨[], .nothing value⟩
  | .array items :: outer => ⟨.array (value :: items) :: outer, .separator⟩
  | .object members key :: outer => ⟨.object ((key, value) :: members) key :: outer, .separator⟩

/-- A container that closes inside the given ones. It is unreadable if it is nested too deeply. -/
def Reader.close (outer : List Frame) (container : Json) : Reader :=
  complete (if greatestDepth ≤ outer.length then .unreadable else container) outer

/-- The object of the given members, unless a key cannot be read. -/
def objectOf (members : List (Option String × Json)) : Json :=
  match members.mapM fun (key, value) => key.map fun key => (key, value) with
  | some members => .object members
  | none => .unreadable

/-- What a word denotes, if it is a constant or a number. -/
def wordValue? (word : List Char) : Option Json :=
  if word = "null".toList then some .null
  else if word = "true".toList then some (.boolean true)
  else if word = "false".toList then some (.boolean false)
  else
    (Number.Literal.ofChars? word).map fun literal =>
      match Number.ofLeading? literal with
      | some value => .number value
      | none => .unreadable

/-- The text of a quoted text: missing if it is well formed but cannot be read. -/
def quotedText? (quoted : List Char) : Option (Option String) :=
  (quotedParts? quoted).map fun parts => (joinParts? parts).map String.ofList

/-- Begin a value. -/
def Reader.begin? (frames : List Frame) : Lexeme → Option Reader
  | .word word => (wordValue? word).map fun value => complete value frames
  | .quoted quoted =>
    (quotedText? quoted).map fun content =>
      complete (match content with | some value => .text value | none => .unreadable) frames
  | .mark '[' => some ⟨.array [] :: frames, .firstItem⟩
  | .mark '\x7b' => some ⟨frames, .firstKey⟩
  | .mark _ => none

/-- Read one lexeme. -/
def Reader.step? (reader : Reader) (lexeme : Lexeme) : Option Reader :=
  match reader.expecting, reader.frames, lexeme with
  | .value, frames, lexeme => begin? frames lexeme
  | .firstItem, .array _ :: outer, .mark ']' => some (close outer (.array []))
  | .firstItem, frames, lexeme => begin? frames lexeme
  | .firstKey, outer, .mark '\x7d' => some (close outer (.object []))
  | .firstKey, outer, .quoted quoted =>
    (quotedText? quoted).map fun key => ⟨.object [] key :: outer, .colon⟩
  | .key, .object members _ :: outer, .quoted quoted =>
    (quotedText? quoted).map fun key => ⟨.object members key :: outer, .colon⟩
  | .colon, frames, .mark ':' => some ⟨frames, .value⟩
  | .separator, .array items :: outer, .mark ',' => some ⟨.array items :: outer, .value⟩
  | .separator, .array items :: outer, .mark ']' => some (close outer (.array items.reverse))
  | .separator, .object members key :: outer, .mark ',' => some ⟨.object members key :: outer, .key⟩
  | .separator, .object members _ :: outer, .mark '\x7d' =>
    some (close outer (objectOf members.reverse))
  | _, _, _ => none

/-- What a text denotes, if it is one JSON value. -/
def ofText? (text : String) : Option Json := do
  let lexemes ← lexemes? text.toList
  let reader ← lexemes.foldlM Reader.step? ⟨[], .value⟩
  match reader.expecting with
  | .nothing value => some value
  | _ => none

end Taskflow.Json
