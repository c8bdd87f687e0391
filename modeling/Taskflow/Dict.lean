/-!
# Dictionaries with text keys

A dictionary holds one value under each of its keys and lists its entries in the order of the
keys. The main statements say how insertion and erasure change the value under each key, and
that two dictionaries with the same value under every key are equal.
-/

namespace Taskflow

/-- A finite map from texts, its entries in strictly increasing order of their keys. -/
structure Dict (α : Type) where
  /-- The entries in the order of their keys. -/
  toList : List (String × α)
  /-- Keys increase strictly, so none repeats. -/
  sorted : toList.Pairwise fun a b => a.1 < b.1
  deriving DecidableEq

namespace Dict

variable {α : Type}

/-- The value of the first entry with the given key. -/
def find? (key : String) : List (String × α) → Option α
  | [] => none
  | (other, value) :: rest => if key = other then some value else find? key rest

/-- Place an entry in front of the first greater key, replacing an entry with the same key. -/
def place (key : String) (value : α) : List (String × α) → List (String × α)
  | [] => [(key, value)]
  | (other, previous) :: rest =>
    if key = other then (key, value) :: rest
    else if key < other then (key, value) :: (other, previous) :: rest
    else (other, previous) :: place key value rest

/-- Placing an entry adds it and nothing else. -/
theorem mem_place {key : String} {value : α} {entries : List (String × α)} {entry : String × α}
    (h : entry ∈ place key value entries) : entry = (key, value) ∨ entry ∈ entries := by
  induction entries with
  | nil => exact Or.inl (by simpa [place] using h)
  | cons head rest ih =>
    unfold place at h
    split at h
    · rcases List.mem_cons.mp h with h | h
      · exact Or.inl h
      · exact Or.inr (List.mem_cons_of_mem _ h)
    · split at h
      · exact List.mem_cons.mp h
      · rcases List.mem_cons.mp h with h | h
        · exact Or.inr (h ▸ List.mem_cons_self)
        · rcases ih h with h | h
          · exact Or.inl h
          · exact Or.inr (List.mem_cons_of_mem _ h)

/-- Placing an entry keeps the keys in strict order. -/
theorem sorted_place (key : String) (value : α) {entries : List (String × α)}
    (h : entries.Pairwise fun a b => a.1 < b.1) :
    (place key value entries).Pairwise fun a b => a.1 < b.1 := by
  induction entries with
  | nil => simp [place]
  | cons head rest ih =>
    obtain ⟨other, previous⟩ := head
    obtain ⟨hhead, hrest⟩ := List.pairwise_cons.mp h
    unfold place
    split
    · next heq =>
      subst heq
      exact List.pairwise_cons.mpr ⟨hhead, hrest⟩
    · next hne =>
      split
      · next hlt =>
        refine List.pairwise_cons.mpr ⟨fun entry hentry => ?_, h⟩
        rcases List.mem_cons.mp hentry with rfl | hentry
        · exact hlt
        · exact String.lt_trans hlt (hhead entry hentry)
      · next hnlt =>
        have hgt : other < key := by
          refine Decidable.byContradiction fun hn => hne ?_
          exact String.le_antisymm (String.not_lt.mp hn) (String.not_lt.mp hnlt)
        refine List.pairwise_cons.mpr ⟨fun entry hentry => ?_, ih hrest⟩
        rcases mem_place hentry with rfl | hentry
        · exact hgt
        · exact hhead entry hentry

/-- The value found after an entry was placed. -/
theorem find?_place (key other : String) (value : α) (entries : List (String × α)) :
    find? other (place key value entries) =
      if other = key then some value else find? other entries := by
  induction entries with
  | nil => simp [place, find?]
  | cons head rest ih =>
    obtain ⟨first, previous⟩ := head
    unfold place
    by_cases hfirst : key = first
    · subst hfirst
      by_cases h : other = key <;> simp [find?, h]
    · rw [if_neg hfirst]
      by_cases hlt : key < first
      · simp [hlt, find?]
      · rw [if_neg hlt]
        by_cases h : other = first
        · have hne : other ≠ key := fun hkey => hfirst (hkey.symm.trans h)
          rw [if_neg hne]
          simp [find?, h]
        · simp [find?, h, ih]

/-- The value found after the entries under a key were removed. -/
theorem find?_filter (key other : String) (entries : List (String × α)) :
    find? other (entries.filter (·.1 != key)) =
      if other = key then none else find? other entries := by
  induction entries with
  | nil => simp [find?]
  | cons head rest ih =>
    obtain ⟨first, value⟩ := head
    by_cases hfirst : first = key
    · subst hfirst
      by_cases h : other = first
      · simpa [find?, h] using ih
      · simpa [find?, h] using ih
    · by_cases h : other = first
      · subst h
        simp [find?, hfirst]
      · simpa [find?, hfirst, h] using ih

/-- Without an entry under the key nothing is found. -/
theorem find?_eq_none {key : String} {entries : List (String × α)}
    (h : ∀ entry ∈ entries, entry.1 ≠ key) : find? key entries = none := by
  induction entries with
  | nil => rfl
  | cons head rest ih =>
    have hhead := h head List.mem_cons_self
    rw [find?, if_neg hhead.symm]
    exact ih fun entry hentry => h entry (List.mem_cons_of_mem _ hentry)

/-- What is found is an entry. -/
theorem mem_of_find? {key : String} {value : α} {entries : List (String × α)}
    (h : find? key entries = some value) : (key, value) ∈ entries := by
  induction entries with
  | nil => cases h
  | cons head rest ih =>
    unfold find? at h
    split at h
    · next heq =>
      cases h
      exact heq ▸ List.mem_cons_self
    · exact List.mem_cons_of_mem _ (ih h)

/-- With distinct keys every entry is found, in whatever order the entries stand. -/
theorem find?_eq_some_iff {key : String} {value : α} {entries : List (String × α)}
    (hdistinct : (entries.map Prod.fst).Nodup) :
    find? key entries = some value ↔ (key, value) ∈ entries := by
  refine ⟨mem_of_find?, fun hmem => ?_⟩
  induction entries with
  | nil => cases hmem
  | cons head rest ih =>
    obtain ⟨hhead, hrest⟩ := List.nodup_cons.mp hdistinct
    rcases List.mem_cons.mp hmem with rfl | hmem
    · rw [find?, if_pos rfl]
    · have hne : key ≠ head.1 := fun heq => hhead (heq ▸ List.mem_map_of_mem hmem)
      rw [find?, if_neg hne]
      exact ih hrest hmem

/-- Lists in strict order of keys that hold the same value under every key are equal. -/
theorem eq_of_find?_eq {left right : List (String × α)}
    (hleft : left.Pairwise fun a b => a.1 < b.1) (hright : right.Pairwise fun a b => a.1 < b.1)
    (h : ∀ key, find? key left = find? key right) : left = right := by
  induction left generalizing right with
  | nil =>
    cases right with
    | nil => rfl
    | cons head rest => exact absurd (h head.1) (by simp [find?])
  | cons head rest ih =>
    obtain ⟨key, value⟩ := head
    obtain ⟨hhead, hrest⟩ := List.pairwise_cons.mp hleft
    cases right with
    | nil => exact absurd (h key) (by simp [find?])
    | cons head' rest' =>
      obtain ⟨key', value'⟩ := head'
      obtain ⟨hhead', hrest'⟩ := List.pairwise_cons.mp hright
      have hkey : key = key' := by
        refine Decidable.byContradiction fun hne => ?_
        have hfound := h key
        have hfound' := h key'
        rw [find?, if_pos rfl, find?, if_neg hne] at hfound
        rw [find?, if_neg (Ne.symm hne), find?, if_pos rfl] at hfound'
        exact String.lt_asymm (hhead _ (mem_of_find? hfound')) (hhead' _ (mem_of_find? hfound.symm))
      subst hkey
      have hvalue : value = value' := by simpa [find?] using h key
      subst hvalue
      have habsent : find? key rest = none :=
        find?_eq_none fun entry hentry => (String.ne_of_lt (hhead entry hentry)).symm
      have habsent' : find? key rest' = none :=
        find?_eq_none fun entry hentry => (String.ne_of_lt (hhead' entry hentry)).symm
      congr 1
      refine ih hrest hrest' fun query => ?_
      by_cases hquery : query = key
      · rw [hquery, habsent, habsent']
      · simpa [find?, hquery] using h query

/-- The dictionary without entries. -/
def empty : Dict α := ⟨[], List.Pairwise.nil⟩

instance : Inhabited (Dict α) := ⟨empty⟩

/-- Whether there are no entries. -/
def isEmpty (d : Dict α) : Bool := d.toList.isEmpty

/-- The value under a key. -/
def get? (d : Dict α) (key : String) : Option α := find? key d.toList

/-- The dictionary with the value under the key, whatever stood there before. -/
def insert (d : Dict α) (key : String) (value : α) : Dict α :=
  ⟨place key value d.toList, sorted_place key value d.sorted⟩

/-- The dictionary without an entry under the key. -/
def erase (d : Dict α) (key : String) : Dict α :=
  ⟨d.toList.filter (·.1 != key), d.sorted.filter _⟩

/-- The dictionary of a list of entries; of a repeated key the last value counts. -/
def ofList (entries : List (String × α)) : Dict α :=
  entries.foldl (fun d entry => d.insert entry.1 entry.2) empty

@[simp] theorem get?_empty (key : String) : (empty : Dict α).get? key = none := rfl

/-- No key of a dictionary repeats. -/
theorem nodup_keys (d : Dict α) : (d.toList.map Prod.fst).Nodup :=
  List.pairwise_map.mpr (d.sorted.imp fun h => String.ne_of_lt h)

/-- The entries are the keys with the values under them. -/
theorem mem_toList_iff {d : Dict α} {key : String} {value : α} :
    (key, value) ∈ d.toList ↔ d.get? key = some value :=
  (find?_eq_some_iff d.nodup_keys).symm

/-- Insertion changes the value under one key only. -/
theorem get?_insert (d : Dict α) (key other : String) (value : α) :
    (d.insert key value).get? other = if other = key then some value else d.get? other :=
  find?_place key other value d.toList

/-- Erasure removes the value under one key only. -/
theorem get?_erase (d : Dict α) (key other : String) :
    (d.erase key).get? other = if other = key then none else d.get? other :=
  find?_filter key other d.toList

/-- Insertion leaves an entry. -/
@[simp] theorem isEmpty_insert (d : Dict α) (key : String) (value : α) :
    (d.insert key value).isEmpty = false := by
  obtain ⟨entries, sorted⟩ := d
  cases entries with
  | nil => rfl
  | cons head rest =>
    simp only [insert, isEmpty, place]
    split
    · rfl
    · split <;> rfl

/-- A dictionary is empty exactly if it is made of no entry. -/
theorem isEmpty_ofList (entries : List (String × α)) :
    (ofList entries).isEmpty = entries.isEmpty := by
  rcases List.eq_nil_or_concat entries with rfl | ⟨front, last, rfl⟩
  · rfl
  · simp [ofList, List.foldl_append]

/-- Dictionaries that hold the same value under every key are equal. -/
theorem ext_get? {left right : Dict α} (h : ∀ key, left.get? key = right.get? key) :
    left = right := by
  obtain ⟨leftEntries, leftSorted⟩ := left
  obtain ⟨rightEntries, rightSorted⟩ := right
  have heq : leftEntries = rightEntries := eq_of_find?_eq leftSorted rightSorted h
  subst heq
  rfl

/-- What is found in two lists together is found in the first, or else in the second. -/
theorem find?_append (key : String) (front back : List (String × α)) :
    find? key (front ++ back) = (find? key front).or (find? key back) := by
  induction front with
  | nil => rfl
  | cons head rest ih =>
    obtain ⟨other, value⟩ := head
    rw [List.cons_append, find?, find?]
    split
    · rfl
    · exact ih

/-- Of the entries that a dictionary is made of, the last one under a key counts. -/
theorem get?_ofList (entries : List (String × α)) (key : String) :
    (ofList entries).get? key = find? key entries.reverse := by
  have hfold : ∀ start : Dict α,
      (entries.foldl (fun d entry => d.insert entry.1 entry.2) start).get? key =
        (find? key entries.reverse).or (start.get? key) := by
    induction entries with
    | nil => exact fun start => rfl
    | cons head rest ih =>
      intro start
      rw [List.foldl_cons, ih, List.reverse_cons, find?_append, get?_insert, Option.or_assoc]
      congr 1
      rw [find?, find?]
      split <;> rfl
  rw [ofList, hfold, get?_empty, Option.or_none]

/-- What is listed behind other entries counts, and those only where it holds nothing. -/
theorem get?_ofList_append (front back : List (String × α)) (key : String) :
    (ofList (front ++ back)).get? key = ((ofList back).get? key).or ((ofList front).get? key) := by
  rw [get?_ofList, get?_ofList, get?_ofList, List.reverse_append, find?_append]

/-- The first entry counts only where its key is not listed again. -/
theorem get?_ofList_cons (entry : String × α) (rest : List (String × α)) (key : String) :
    (ofList (entry :: rest)).get? key =
      ((ofList rest).get? key).or (if key = entry.1 then some entry.2 else none) := by
  have hentry : (ofList [entry]).get? key = if key = entry.1 then some entry.2 else none :=
    get?_insert empty entry.1 key entry.2
  rw [← hentry]
  exact get?_ofList_append [entry] rest key

/-- Under a key that is listed there is a value. -/
theorem exists_get?_ofList {entries : List (String × α)} {key : String}
    (h : key ∈ entries.map Prod.fst) : ∃ value, (ofList entries).get? key = some value := by
  rw [← Option.ne_none_iff_exists']
  induction entries with
  | nil => cases h
  | cons entry rest ih =>
    intro hnone
    rw [get?_ofList_cons] at hnone
    obtain ⟨hrest, hentry⟩ := Option.or_eq_none_iff.mp hnone
    rcases List.mem_cons.mp h with heq | hmem
    · rw [if_pos heq] at hentry
      cases hentry
    · exact ih hmem hrest

/-- A dictionary is made of its own entries. -/
theorem ofList_toList (d : Dict α) : ofList d.toList = d := by
  refine ext_get? fun key => Option.ext fun value => ?_
  have hdistinct : (d.toList.reverse.map Prod.fst).Nodup := by
    rw [List.map_reverse]
    exact List.pairwise_reverse.mpr (d.nodup_keys.imp Ne.symm)
  rw [get?_ofList, find?_eq_some_iff hdistinct, List.mem_reverse, mem_toList_iff]

end Dict

end Taskflow
