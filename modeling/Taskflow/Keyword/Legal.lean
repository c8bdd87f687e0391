import Taskflow.Keyword.Conversion
import Taskflow.Keyword.Registry

/-!
# Legal keys and the bindings of a map

A map is first checked for keys that are no keyword of its place, ignoring case, and then read
keyword by keyword. The main statement says which keys pass the check.
-/

namespace Taskflow

open Text

/-- The lower-case forms of the keys that may stand in a place: the texts of its keywords and
further reserved keys. -/
def legalKeys (legal : List Keyword) (reserved : List String) : List String :=
  legal.map Keyword.text ++ reserved.map lowerCase

/-- Refuse a map with a key whose lower-case form is not legal; the fault names the first such
key as written. -/
def checkKeys (entries : Mapping) (legal : List Keyword) (reserved : List String)
    (context : String) : Except Fault Unit :=
  match entries.keys.find? fun key => !(legalKeys legal reserved).contains (lowerCase key) with
  | some key => .error (.unknownKeyword key context)
  | none => .ok ()

/-- The value under a keyword in a map, read as a binding. -/
def readKeyword (entries : Mapping) (keyword : Keyword) : Except Fault (Option Binding) :=
  keyword.convert keyword.text (entries.lookup? keyword.text)

/-- The bindings with what a keyword binds, if anything. -/
def Bindings.add (bindings : Bindings) (keyword : Keyword) : Option Binding → Bindings
  | none => bindings
  | some binding => bindings.insert keyword.text binding

/-- The bindings of the given keywords in a map. The first keyword whose value is faulty decides
the fault. -/
def readBindings (entries : Mapping) (keywords : List Keyword) : Except Fault Bindings :=
  keywords.foldlM (fun bindings keyword => do
    let binding ← readKeyword entries keyword
    return Bindings.add bindings keyword binding) .empty

/-- A map passes the check exactly if the lower-case form of each of its keys is legal. -/
theorem checkKeys_eq_ok_iff {entries : Mapping} {legal : List Keyword} {reserved : List String}
    {context : String} :
    checkKeys entries legal reserved context = .ok () ↔
      ∀ key ∈ entries.keys, lowerCase key ∈ legalKeys legal reserved := by
  unfold checkKeys
  split
  · next key h =>
    have hkey := List.find?_some h
    have hmem := List.mem_of_find?_eq_some h
    constructor
    · intro hok
      cases hok
    · intro hall
      have := hall key hmem
      simp_all
  · next h =>
    simp only [true_iff]
    intro key hkey
    simpa using List.find?_eq_none.mp h key hkey

end Taskflow
