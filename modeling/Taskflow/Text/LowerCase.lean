import Taskflow.Text.CaseTables

/-!
# Lower case

The lower-case form of a text with the full rules of letter case: a capital may become
more than one character, and a capital sigma takes its final form at the end of a word.
The main statement says that ASCII text is lowered letter by letter.
-/

namespace Taskflow.Text

/-- The small letters of one character away from any context. -/
def lowerChar (c : Char) : List Char :=
  if c.toNat < 0x80 then [c.toLower]
  else if c.toNat = 0x0130 then ['i', Char.ofNat 0x0307]
  else
    match capitalRuns.find? (·.holds c.toNat) with
    | some run => [Char.ofNat (Int.toNat (c.toNat + run.shift))]
    | none => [c]

/-- Whether the first character that is not case-ignorable is cased. -/
def meetsCased (text : List Char) : Bool := (text.dropWhile isCaseIgnorable).head?.any isCased

/-- The capital sigma. -/
def capitalSigma : Char := 'Σ'

/-- The small form of a capital sigma between the given neighbours: final when a cased
character precedes it and none follows it, case-ignorable characters being skipped. -/
def lowerSigma (precedingReversed following : List Char) : Char :=
  if meetsCased precedingReversed && !meetsCased following then 'ς' else 'σ'

/-- The lower-case form of the rest of a text, given what precedes it in reverse. -/
def lowerAfter (precedingReversed : List Char) : List Char → List Char
  | [] => []
  | c :: rest =>
    (if c = capitalSigma then [lowerSigma precedingReversed rest] else lowerChar c) ++
      lowerAfter (c :: precedingReversed) rest

/-- The lower-case form of a text. -/
def lowerCase (text : String) : String := String.ofList (lowerAfter [] text.toList)

/-- An ASCII character is lowered as a letter of its own. -/
theorem lowerChar_of_ascii {c : Char} (h : c.toNat < 0x80) : lowerChar c = [c.toLower] := by
  simp [lowerChar, h]

/-- ASCII text is lowered letter by letter, whatever precedes it. -/
theorem lowerAfter_of_ascii {text : List Char} (h : ∀ c ∈ text, c.toNat < 0x80)
    (preceding : List Char) : lowerAfter preceding text = text.map Char.toLower := by
  induction text generalizing preceding with
  | nil => rfl
  | cons c rest ih =>
    have hc : c.toNat < 0x80 := h c List.mem_cons_self
    have hsigma : c ≠ capitalSigma := by
      rintro rfl
      exact absurd hc (by decide)
    rw [lowerAfter, if_neg hsigma, lowerChar_of_ascii hc,
      ih fun x hx => h x (List.mem_cons_of_mem _ hx)]
    rfl

/-- The lower-case form of an ASCII text. -/
theorem lowerCase_of_ascii {text : String} (h : ∀ c ∈ text.toList, c.toNat < 0x80) :
    lowerCase text = String.ofList (text.toList.map Char.toLower) := by
  rw [lowerCase, lowerAfter_of_ascii h]

end Taskflow.Text
