import Mathlib.Data.List.Forall2
import Taskflow.Proofs.Keyword.Distinct

/-!
# Edited maps

A map may be edited without a reader taking notice: keys are spelled in another case, and entries
are left out that hold null or that nobody looks up. The main statements say under which conditions
the check of keys gives the same for a map and its edited form, and a keyword, or an exact key,
finds the same in both, where null counts as nothing.
-/

namespace Taskflow

open Text

/-- Whether a value is null. -/
def Value.isNull : Value → Bool
  | .null => true
  | _ => false

/-- What was found in a place, where null counts as nothing. -/
def Value.given? : Option Value → Option Value
  | some .null => none
  | found => found

/-- A value that is not null is given where it is found. -/
theorem Value.given?_of_isNull_eq_false {value : Value} (h : value.isNull = false) :
    given? (some value) = some value := by
  cases value with
  | null => cases h
  | _ => rfl

/-- Null is nothing that is given. -/
theorem Value.given?_of_isNull {value : Value} (h : value.isNull = true) :
    given? (some value) = none := by
  cases value with
  | null => rfl
  | _ => cases h

/-- Either there is nothing in both places, or there are related things. -/
theorem none_or_some_of_rel {α β : Type} {related : α → β → Prop} {found : Option α}
    {found' : Option β} (h : Option.Rel related found found') :
    (found = none ∧ found' = none) ∨
      ∃ a b, found = some a ∧ found' = some b ∧ related a b := by
  cases h with
  | none => exact .inl ⟨rfl, rfl⟩
  | some hrelated => exact .inr ⟨_, _, rfl, rfl, hrelated⟩

/-- What is given in a place is found there. -/
theorem Value.eq_of_given?_eq_some {found : Option Value} {value : Value}
    (h : given? found = some value) : found = some value := by
  unfold given? at h
  split at h
  · cases h
  · exact h

/-- What is found in two places is given in both or in neither if it is null in both or in
neither. -/
theorem Value.rel_given? {related : Value → Value → Prop} {found found' : Option Value}
    (h : Option.Rel related found found')
    (hnull : ∀ value value', related value value' → value.isNull = value'.isNull) :
    Option.Rel related (given? found) (given? found') := by
  cases h with
  | none => exact .none
  | @some value value' hrelated =>
    have hsame := hnull value value' hrelated
    cases hvalue : value.isNull with
    | true =>
      rw [given?_of_isNull hvalue, given?_of_isNull (hsame ▸ hvalue)]
      exact .none
    | false =>
      rw [given?_of_isNull_eq_false hvalue, given?_of_isNull_eq_false (hsame ▸ hvalue)]
      exact .some hrelated

/-- What an edit may do to a map. -/
structure Edit where
  /-- The keys that may be spelled in another case. -/
  respells : String → Prop
  /-- The entries that may be left out. -/
  leavesOut : String × Value → Prop

/-- The edit that keeps all entries and their keys. -/
def Edit.keepAll : Edit := ⟨fun _ => False, fun _ => False⟩

/-- The edited form of a key: the key itself or, where that is allowed, the key in another case. -/
def Edit.Spells (edit : Edit) (key key' : String) : Prop :=
  key = key' ∨ edit.respells key ∧ caselessEq key key' = true

/-- A map and its edited form. The entries that stay keep their order, and their values change in
allowed ways only. An entry that is left out is the last one under its key, as every entry is where
keys do not repeat. -/
inductive Edited (edit : Edit) (changes : String → Value → Value → Prop) :
    Mapping → Mapping → Prop
  | nil : Edited edit changes [] []
  | keep {key key' : String} {value value' : Value} {rest rest' : Mapping}
      (hkey : edit.Spells key key') (hvalue : changes key value value')
      (hrest : Edited edit changes rest rest') :
      Edited edit changes ((key, value) :: rest) ((key', value') :: rest')
  | leaveOut {entry : String × Value} {rest rest' : Mapping} (hentry : edit.leavesOut entry)
      (hlast : entry.1 ∉ rest.keys) (hrest : Edited edit changes rest rest') :
      Edited edit changes (entry :: rest) rest'

/-- An edit touches legal keys only, so that the check of keys does not notice it. -/
structure Edit.TouchesLegal (edit : Edit) (legal : List String) : Prop where
  /-- A key that may be spelled in another case is legal in every case. -/
  respelled : ∀ key key', edit.respells key → caselessEq key key' = true →
    lowerCase key ∈ legal ∧ lowerCase key' ∈ legal
  /-- An entry that may be left out has a legal key. -/
  leftOut : ∀ entry, edit.leavesOut entry → lowerCase entry.1 ∈ legal

/-- The check of keys and the lookup of the given names do not notice an edit of a map: it touches
legal keys only and, if the map has keys of its own for all names, what is left out under one of the
names is null; otherwise no key that matches one of the names is touched. -/
structure Edit.Unnoticed (edit : Edit) (legal names : List String) (entries : Mapping) : Prop
    extends edit.TouchesLegal legal where
  /-- What is found under a name stays the same. -/
  hidden :
    (entries.CaselessDistinct ∧ ∀ entry, edit.leavesOut entry → ∀ name ∈ names,
        entry.2.isNull = true ∨ caselessEq entry.1 name = false) ∨
      (∀ key, ¬edit.respells key) ∧ ∀ entry, edit.leavesOut entry → ∀ name ∈ names,
        caselessEq entry.1 name = false

/-- An edit touches legal keys only and leaves out nothing but null. -/
structure Edit.Harmless (edit : Edit) (legal : List String) : Prop
    extends edit.TouchesLegal legal where
  /-- An entry that may be left out holds null. -/
  leftOut_null : ∀ entry, edit.leavesOut entry → entry.2.isNull = true

/-- Among distinct keys a harmless edit is not noticed, whatever is looked up. -/
theorem Edit.Harmless.unnoticed {edit : Edit} {legal : List String} {entries : Mapping}
    (h : edit.Harmless legal) (hdistinct : entries.CaselessDistinct) (names : List String) :
    edit.Unnoticed legal names entries where
  toTouchesLegal := h.toTouchesLegal
  hidden := .inl ⟨hdistinct, fun entry hentry _ _ => .inl (h.leftOut_null entry hentry)⟩

namespace Edited

variable {edit : Edit} {changes : String → Value → Value → Prop} {entries entries' : Mapping}
  {legal : List Keyword} {reserved names : List String} {context name key : String}

/-- The edited form of a key matches the same names. -/
theorem caselessEq_of_spells {key' : String} (h : edit.Spells key key') :
    caselessEq key name = caselessEq key' name := by
  rcases h with rfl | ⟨_, hcase⟩
  · rfl
  · rw [caselessEq, caselessEq, caselessEq_iff.mp hcase]

/-- Where all entries are kept with their keys, the maps agree entry by entry. -/
theorem forall₂_of_keepAll (h : Edited .keepAll changes entries entries') :
    List.Forall₂ (fun entry entry' => entry.1 = entry'.1 ∧ changes entry.1 entry.2 entry'.2)
      entries entries' := by
  induction h with
  | nil => exact .nil
  | keep hkey hvalue _ ih =>
    have hsame := hkey.resolve_right fun hspelled => hspelled.1
    exact .cons ⟨hsame, hvalue⟩ ih
  | leaveOut hentry => exact hentry.elim

/-- Up to case, the keys of the edited form are among those of the map, in the same order. -/
theorem sublist_keys (h : Edited edit changes entries entries') :
    (entries'.keys.map asciiLower).Sublist (entries.keys.map asciiLower) := by
  induction h with
  | nil => exact .slnil
  | @keep key key' value value' rest rest' hkey _ _ ih =>
    have hcase : asciiLower key = asciiLower key' := by
      rcases hkey with rfl | ⟨_, hcase⟩
      · rfl
      · exact caselessEq_iff.mp hcase
    have hboth := ih.cons_cons (asciiLower key)
    rw [Mapping.keys, Mapping.keys, List.map_cons, List.map_cons, List.map_cons, List.map_cons]
    rwa [← hcase]
  | leaveOut _ _ _ ih => exact ih.cons _

/-- Distinct keys stay distinct. -/
theorem caselessDistinct (h : Edited edit changes entries entries')
    (hdistinct : entries.CaselessDistinct) : entries'.CaselessDistinct := by
  have hiff : ∀ map : Mapping, map.CaselessDistinct ↔ (map.keys.map asciiLower).Nodup := by
    intro map
    rw [Mapping.CaselessDistinct, List.Nodup, List.pairwise_map]
    simp [caselessEq]
  rw [hiff] at hdistinct ⊢
  exact hdistinct.sublist h.sublist_keys

/-- What is searched for is found in both maps or in neither, provided that nothing is left out that
is searched for and that the edited form of an entry is searched for like the entry. -/
theorem find?_rel (h : Edited edit changes entries entries') (sought : String × Value → Bool)
    (hkeep : ∀ key key' value value', edit.Spells key key' → changes key value value' →
      sought (key, value) = sought (key', value'))
    (hleave : ∀ entry, edit.leavesOut entry → sought entry = false) :
    Option.Rel (fun entry entry' => sought entry = true ∧ changes entry.1 entry.2 entry'.2)
      (entries.find? sought) (entries'.find? sought) := by
  induction h with
  | nil => exact .none
  | @keep key key' value value' rest rest' hkey hvalue _ ih =>
    have hsame := hkeep key key' value value' hkey hvalue
    cases hfound : sought (key, value) with
    | true =>
      rw [List.find?_cons_of_pos hfound, List.find?_cons_of_pos (hsame ▸ hfound)]
      exact .some ⟨hfound, hvalue⟩
    | false =>
      have hnot : ¬sought (key, value) = true := Bool.eq_false_iff.mp hfound
      rw [List.find?_cons_of_neg hnot, List.find?_cons_of_neg (hsame ▸ hnot)]
      exact ih
  | leaveOut hentry _ _ ih =>
    rw [List.find?_cons_of_neg (Bool.eq_false_iff.mp (hleave _ hentry))]
    exact ih

/-- Among distinct keys a name finds the one entry that matches it, unless that holds null. -/
theorem given?_lookup?_eq_find? (hdistinct : entries.CaselessDistinct) (name : String) :
    Value.given? (entries.lookup? name) =
      (entries.find? fun entry => caselessEq entry.1 name && !entry.2.isNull).map Prod.snd := by
  unfold Mapping.lookup?
  cases hfound : entries.find? fun entry => caselessEq entry.1 name && !entry.2.isNull with
  | some entry =>
    obtain ⟨hkey, hvalue⟩ : caselessEq entry.1 name = true ∧ entry.2.isNull = false := by
      simpa using List.find?_some hfound
    have hmem := List.mem_of_find?_eq_some hfound
    rw [(Mapping.entryNamed?_eq_some_iff hdistinct).mpr ⟨hmem, hkey⟩]
    exact Value.given?_of_isNull_eq_false hvalue
  | none =>
    cases hnamed : entries.entryNamed? name with
    | none => rfl
    | some entry =>
      obtain ⟨hmem, hkey⟩ := Mapping.mem_of_entryNamed? hnamed
      have hvalue : entry.2.isNull = true := by
        simpa [hkey] using List.find?_eq_none.mp hfound entry hmem
      exact Value.given?_of_isNull hvalue

/-- Without keys in another case, a name that matches nothing that is left out names the same
entry. -/
theorem entryNamed?_rel (h : Edited edit changes entries entries')
    (hkeys : ∀ key, ¬edit.respells key)
    (hleave : ∀ entry, edit.leavesOut entry → caselessEq entry.1 name = false) :
    Option.Rel (fun entry entry' => caselessEq entry.1 name = true ∧
        changes entry.1 entry.2 entry'.2)
      (entries.entryNamed? name) (entries'.entryNamed? name) := by
  have hsame : ∀ {key key'}, edit.Spells key key' → key = key' := by
    rintro key key' (rfl | ⟨hkey, _⟩)
    · rfl
    · exact absurd hkey (hkeys key)
  have hleaveExact : ∀ entry, edit.leavesOut entry → (entry.1 == name) = false := by
    intro entry hentry
    refine beq_eq_false_iff_ne.mpr fun heq => ?_
    have hcase := hleave entry hentry
    rw [heq, caselessEq_refl] at hcase
    cases hcase
  have hexact := h.find?_rel (fun entry => entry.1 == name)
    (fun key key' value value' hkey _ => by rw [hsame hkey]) hleaveExact
  have hcaseless := h.find?_rel (fun entry => caselessEq entry.1 name)
    (fun key key' value value' hkey _ => by rw [hsame hkey]) hleave
  unfold Mapping.entryNamed? Mapping.entryAt? Mapping.caselessEntryAt?
  generalize entries.find? _ = found, entries'.find? _ = found' at hexact
  cases hexact with
  | none => exact hcaseless
  | @some entry entry' hrel =>
    have hkey : entry.1 = name := by simpa using hrel.1
    exact .some ⟨hkey ▸ caselessEq_refl entry.1, hrel.2⟩

/-- A name finds the same in both maps, up to the changes of values, if it does not notice the
edit. -/
theorem given?_lookup?_rel (h : Edited edit changes entries entries') {legal : List String}
    (hnull : ∀ key value value', changes key value value' → value.isNull = value'.isNull)
    (hedit : edit.Unnoticed legal names entries) (hname : name ∈ names) :
    Option.Rel (fun value value' => ∃ key, caselessEq key name = true ∧ changes key value value')
      (Value.given? (entries.lookup? name)) (Value.given? (entries'.lookup? name)) := by
  rcases hedit.hidden with ⟨hdistinct, hleave⟩ | ⟨hkeys, hleave⟩
  · -- Only one entry matches the name, so what is left out in front of it can be searched past.
    have hleaveSought : ∀ entry, edit.leavesOut entry →
        (caselessEq entry.1 name && !entry.2.isNull) = false := by
      intro entry hentry
      rcases hleave entry hentry name hname with hvalue | hcase
      · simp [hvalue]
      · simp [hcase]
    have hfound := h.find?_rel (fun entry => caselessEq entry.1 name && !entry.2.isNull)
      (fun key key' value value' hkey hvalue => by
        dsimp only
        rw [caselessEq_of_spells hkey, hnull key value value' hvalue]) hleaveSought
    rw [given?_lookup?_eq_find? hdistinct, given?_lookup?_eq_find? (h.caselessDistinct hdistinct)]
    generalize entries.find? _ = found, entries'.find? _ = found' at hfound
    cases hfound with
    | none => exact .none
    | @some entry entry' hrel =>
      have hkey : caselessEq entry.1 name = true := (Bool.and_eq_true_iff.mp hrel.1).1
      exact .some ⟨entry.1, hkey, hrel.2⟩
  · -- An entry may hide another one that matches the name, but neither is touched.
    have hnamed := h.entryNamed?_rel hkeys fun entry hentry => hleave entry hentry name hname
    refine Value.rel_given? ?_ fun value value' ⟨key, _, hvalue⟩ => hnull key value value' hvalue
    unfold Mapping.lookup?
    generalize entries.entryNamed? name = found, entries'.entryNamed? name = found' at hnamed
    cases hnamed with
    | none => exact .none
    | @some entry entry' hrel => exact .some ⟨entry.1, hrel⟩

/-- An exact key finds the same in both maps, up to the changes of values, if no key is spelled in
another case and only null is left out. -/
theorem given?_get?_rel (h : Edited edit changes entries entries')
    (hnull : ∀ key value value', changes key value value' → value.isNull = value'.isNull)
    (hkeys : ∀ key, ¬edit.respells key)
    (hleave : ∀ entry, edit.leavesOut entry → entry.2.isNull = true) (key : String) :
    Option.Rel (changes key) (Value.given? (entries.get? key))
      (Value.given? (entries'.get? key)) := by
  unfold Mapping.get? Mapping.entryAt?
  induction h with
  | nil => exact .none
  | @keep first first' value value' rest rest' hkey hvalue _ ih =>
    obtain rfl : first = first' := hkey.resolve_right fun hspelled => hkeys first hspelled.1
    by_cases hfirst : first = key
    · subst hfirst
      rw [List.find?_cons_of_pos (by simp), List.find?_cons_of_pos (by simp)]
      exact Value.rel_given? (.some hvalue) (hnull first)
    · rw [List.find?_cons_of_neg (by simpa using hfirst),
        List.find?_cons_of_neg (by simpa using hfirst)]
      exact ih
  | @leaveOut entry rest rest' hentry hlast _ ih =>
    by_cases hfirst : entry.1 = key
    · -- Behind the entry that is left out its key does not occur, so nothing is found there.
      have habsent : rest.find? (fun other => other.1 == key) = none :=
        List.find?_eq_none.mpr fun other hother hkey =>
          hlast (hfirst ▸ (beq_iff_eq.mp hkey) ▸ List.mem_map_of_mem hother)
      rw [habsent] at ih
      rw [List.find?_cons_of_pos (by simpa using hfirst), Option.map_some,
        Value.given?_of_isNull (hleave entry hentry)]
      exact ih
    · rw [List.find?_cons_of_neg (by simpa using hfirst)]
      exact ih

/-- An exact key is given the same in both maps where values stay. -/
theorem given?_get?_eq (h : Edited edit (fun _ value value' => value = value') entries entries')
    (hkeys : ∀ key, ¬edit.respells key)
    (hleave : ∀ entry, edit.leavesOut entry → entry.2.isNull = true) (key : String) :
    Value.given? (entries.get? key) = Value.given? (entries'.get? key) := by
  have hrel := h.given?_get?_rel (fun _ _ _ hvalue => congrArg Value.isNull hvalue) hkeys hleave key
  rcases none_or_some_of_rel hrel with ⟨hnone, hnone'⟩ | ⟨value, _, hfound, hfound', rfl⟩
  · rw [hnone, hnone']
  · rw [hfound, hfound']

/-- The first key of a kind is the same in both maps if no key that the edit touches is of that
kind. -/
theorem find?_keys_eq (h : Edited edit changes entries entries') (sought : String → Bool)
    (hrespelled : ∀ key key', edit.respells key → caselessEq key key' = true →
      sought key = false ∧ sought key' = false)
    (hleave : ∀ entry, edit.leavesOut entry → sought entry.1 = false) :
    entries.keys.find? sought = entries'.keys.find? sought := by
  induction h with
  | nil => rfl
  | @keep key key' value value' rest rest' hkey _ _ ih =>
    rw [Mapping.keys, Mapping.keys] at ih ⊢
    rw [List.map_cons, List.map_cons]
    rcases hkey with rfl | ⟨hkey, hcase⟩
    · rw [List.find?_cons, List.find?_cons, ih]
    · obtain ⟨hnot, hnot'⟩ := hrespelled key key' hkey hcase
      rw [List.find?_cons_of_neg (Bool.eq_false_iff.mp hnot),
        List.find?_cons_of_neg (Bool.eq_false_iff.mp hnot')]
      exact ih
  | @leaveOut entry rest rest' hentry _ _ ih =>
    rw [Mapping.keys, List.map_cons,
      List.find?_cons_of_neg (Bool.eq_false_iff.mp (hleave entry hentry))]
    exact ih

/-- The check of keys gives the same for both maps if the edit touches legal keys only. -/
theorem checkKeys_eq (h : Edited edit changes entries entries')
    (hedit : edit.TouchesLegal (legalKeys legal reserved)) :
    checkKeys entries legal reserved context = checkKeys entries' legal reserved context := by
  have hfind := h.find?_keys_eq
    (fun key => !(legalKeys legal reserved).contains (lowerCase key))
    (fun key key' hkey hcase => by simpa using hedit.respelled key key' hkey hcase)
    (fun entry hentry => by simpa using hedit.leftOut entry hentry)
  rw [checkKeys, checkKeys, hfind]

end Edited

end Taskflow
