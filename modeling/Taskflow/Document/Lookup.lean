import Taskflow.Document.Value
import Taskflow.Text.Caseless

/-!
# Looking up keys

An entry is found under its exact key or, where a keyword is meant, under a key that differs
from it only in the case of ASCII letters. The main statements say that what is found has a key
that matches and that nothing is found only if no key matches.
-/

namespace Taskflow.Mapping

open Text

/-- The first entry with exactly the given key. -/
def entryAt? (entries : Mapping) (key : String) : Option (String × Value) :=
  entries.find? fun entry => entry.1 == key

/-- The value under exactly the given key. -/
def get? (entries : Mapping) (key : String) : Option Value := (entryAt? entries key).map Prod.snd

/-- The first entry is what is found under its key. -/
theorem get?_cons {entries : Mapping} {first key : String} {value : Value} :
    get? ((first, value) :: entries) key =
      if first = key then some value else get? entries key := by
  by_cases h : first = key <;> simp [get?, entryAt?, beq_iff_eq, h]

/-- Setting a value changes what is found under its own key only. -/
theorem get?_put {entries : Mapping} {key other : String} {value : Value} :
    get? (put key value entries) other =
      if key = other then some value else get? entries other := by
  induction entries with
  | nil => rw [put, get?_cons]
  | cons head rest ih =>
    obtain ⟨first, previous⟩ := head
    rw [put]
    split
    · next hfirst =>
      rw [get?_cons, get?_cons, hfirst]
      split <;> rfl
    · next hfirst =>
      rw [get?_cons, get?_cons, ih]
      by_cases hother : first = other
      · rw [if_pos hother, if_pos hother, if_neg (hother ▸ Ne.symm hfirst)]
      · rw [if_neg hother, if_neg hother]

/-- The first entry whose key differs from the given one only in the case of ASCII letters. -/
def caselessEntryAt? (entries : Mapping) (key : String) : Option (String × Value) :=
  entries.find? fun entry => caselessEq entry.1 key

/-- The entry that a keyword names: the one with exactly that key, or else the first caseless
match. -/
def entryNamed? (entries : Mapping) (keyword : String) : Option (String × Value) :=
  (entryAt? entries keyword).or (caselessEntryAt? entries keyword)

/-- The value that a keyword names. -/
def lookup? (entries : Mapping) (keyword : String) : Option Value :=
  (entryNamed? entries keyword).map Prod.snd

/-- What a keyword names is an entry whose key matches it. -/
theorem mem_of_entryNamed? {entries : Mapping} {keyword : String} {entry : String × Value}
    (h : entryNamed? entries keyword = some entry) :
    entry ∈ entries ∧ caselessEq entry.1 keyword = true := by
  rcases Option.or_eq_some_iff.mp h with h | ⟨_, h⟩
  · have hkey : entry.1 = keyword := by simpa using List.find?_some h
    exact ⟨List.mem_of_find?_eq_some h, by rw [hkey, caselessEq_refl]⟩
  · unfold caselessEntryAt? at h
    exact ⟨List.mem_of_find?_eq_some h, by simpa using List.find?_some h⟩

/-- A keyword names no entry exactly when no key matches it. -/
theorem entryNamed?_eq_none_iff {entries : Mapping} {keyword : String} :
    entryNamed? entries keyword = none ↔
      ∀ entry ∈ entries, caselessEq entry.1 keyword = false := by
  rw [entryNamed?, Option.or_eq_none_iff]
  constructor
  · intro h entry hentry
    simpa using List.find?_eq_none.mp h.2 entry hentry
  · intro h
    have hcaseless : caselessEntryAt? entries keyword = none :=
      List.find?_eq_none.mpr fun entry hentry => by simp [h entry hentry]
    refine ⟨List.find?_eq_none.mpr fun entry hentry => ?_, hcaseless⟩
    intro hkey
    have heq : entry.1 = keyword := by simpa using hkey
    have := h entry hentry
    rw [heq, caselessEq_refl] at this
    cases this

end Taskflow.Mapping
