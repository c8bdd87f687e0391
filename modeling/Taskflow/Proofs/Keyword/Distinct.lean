import Mathlib.Data.List.Pairwise
import Taskflow.Keyword.Legal

/-!
# Maps with distinct keys

A keyword may name an entry by a key in another case, so it matters that no two keys of a map are
equal up to case. The main statements say that a keyword then names the one entry whose key matches
it, wherever that stands, and that the order of entries matters to the check of keys only in which
key is reported.
-/

namespace Taskflow

open Text

namespace Mapping

variable {entries other : Mapping} {keyword : String} {left right : String × Value}

/-- No two keys are equal up to the case of ASCII letters. -/
def CaselessDistinct (entries : Mapping) : Prop :=
  entries.keys.Pairwise fun a b => caselessEq a b = false

instance (entries : Mapping) : Decidable (CaselessDistinct entries) :=
  inferInstanceAs (Decidable (entries.keys.Pairwise fun a b => caselessEq a b = false))

/-- Entries whose keys are equal up to case are the same. -/
theorem CaselessDistinct.eq_of_caselessEq (h : CaselessDistinct entries) (hleft : left ∈ entries)
    (hright : right ∈ entries) (hkeys : caselessEq left.1 right.1 = true) : left = right := by
  have hentries : entries.Pairwise fun a b => caselessEq a.1 b.1 = false := List.pairwise_map.mp h
  have : Std.Symm fun a b : String × Value => caselessEq a.1 b.1 = false :=
    ⟨fun a b hab => by rw [caselessEq_comm, hab]⟩
  by_contra hne
  rw [hentries.forall hleft hright hne] at hkeys
  cases hkeys

/-- A keyword names the one entry whose key matches it. -/
theorem entryNamed?_eq_some_iff (h : CaselessDistinct entries) :
    entryNamed? entries keyword = some left ↔
      left ∈ entries ∧ caselessEq left.1 keyword = true := by
  refine ⟨mem_of_entryNamed?, fun ⟨hmem, hkey⟩ => ?_⟩
  cases hnamed : entryNamed? entries keyword with
  | none =>
    rw [entryNamed?_eq_none_iff.mp hnamed left hmem] at hkey
    cases hkey
  | some found =>
    obtain ⟨hfound, hfoundKey⟩ := mem_of_entryNamed? hnamed
    rw [caselessEq_comm] at hkey hfoundKey
    have hkeys := caselessEq_of_both hfoundKey hkey
    rw [h.eq_of_caselessEq hfound hmem hkeys]

/-- Keys stay distinct in another order. -/
theorem CaselessDistinct.perm (h : CaselessDistinct entries)
    (hkeys : entries.keys.Perm other.keys) : CaselessDistinct other :=
  (hkeys.pairwise_iff fun {a b} hab => by rw [caselessEq_comm, hab]).mp h

/-- A keyword names the same in another order of the entries. -/
theorem lookup?_perm (h : CaselessDistinct entries) (hperm : entries.Perm other)
    (keyword : String) : entries.lookup? keyword = other.lookup? keyword := by
  have hother : CaselessDistinct other := h.perm (hperm.map Prod.fst)
  rw [lookup?, lookup?]
  congr 1
  refine Option.ext fun entry => ?_
  rw [entryNamed?_eq_some_iff h, entryNamed?_eq_some_iff hother, hperm.mem_iff]

end Mapping

variable {entries other : Mapping} {legal : List Keyword} {reserved : List String}
  {context : String}

/-- A check of keys passes or reports a key in its context. -/
theorem checkKeys_eq_ok_or : checkKeys entries legal reserved context = .ok () ∨
    ∃ key, checkKeys entries legal reserved context = .error (.unknownKeyword key context) := by
  unfold checkKeys
  split
  · exact .inr ⟨_, rfl⟩
  · exact .inl rfl

/-- Whether a check passes does not depend on the order of the keys. -/
theorem checkKeys_eq_ok_of_perm (hkeys : entries.keys.Perm other.keys)
    (h : checkKeys entries legal reserved context = .ok ()) :
    checkKeys other legal reserved context = .ok () := by
  rw [checkKeys_eq_ok_iff] at h ⊢
  exact fun key hkey => h key (hkeys.mem_iff.mpr hkey)

end Taskflow
