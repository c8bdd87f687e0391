import Taskflow.Wire.Binding

/-!
# Reading records of the hand-off form

A record is read from its members by their names. The main statements say that an object with
distinct names gives every field its member, that a tag is found and taken out, and that lists and
dictionaries are read item by item.
-/

namespace Taskflow.Wire

variable {α β : Type} {members : List (String × Json)} {name other : String} {value tag : Json}

/-- A first member of the name counts. -/
theorem occurrences_cons_self (name : String) (value : Json) (members : List (String × Json)) :
    occurrences ((name, value) :: members) name = value :: occurrences members name := by
  simp [occurrences]

/-- A first member of another name does not count. -/
theorem occurrences_cons_of_ne {member : String × Json} (hne : member.1 ≠ name) :
    occurrences (member :: members) name = occurrences members name := by
  simp [occurrences, hne]

/-- Nothing occurs under a name that no member has. -/
theorem occurrences_eq_nil (hnew : name ∉ members.map Prod.fst) :
    occurrences members name = [] := by
  induction members with
  | nil => rfl
  | cons head rest ih =>
    rw [List.map_cons, List.mem_cons, not_or] at hnew
    rw [occurrences_cons_of_ne (Ne.symm hnew.1), ih hnew.2]

/-- A member whose name does not repeat is the only one of its name. -/
theorem occurrences_eq_of_mem (hdistinct : (members.map Prod.fst).Nodup)
    (hmem : (name, value) ∈ members) : occurrences members name = [value] := by
  induction members with
  | nil => cases hmem
  | cons head rest ih =>
    obtain ⟨hhead, hrest⟩ := List.nodup_cons.mp hdistinct
    rcases List.mem_cons.mp hmem with rfl | hmem
    · rw [occurrences_cons_self, occurrences_eq_nil hhead]
    · have hne : head.1 ≠ name := fun heq => hhead (heq ▸ List.mem_map_of_mem hmem)
      rw [occurrences_cons_of_ne hne, ih hrest hmem]

/-- Members of another name may be taken out. -/
theorem occurrences_filter_ne (hne : name ≠ other) :
    occurrences (members.filter (·.1 != other)) name = occurrences members name := by
  unfold occurrences
  rw [List.filter_filter]
  congr 1
  refine List.filter_congr fun member _ => ?_
  by_cases heq : member.1 = name
  · simp [heq, hne]
  · simp [heq]

/-- The members of a name occur in front or behind. -/
theorem occurrences_append (front back : List (String × Json)) (name : String) :
    occurrences (front ++ back) name = occurrences front name ++ occurrences back name := by
  simp [occurrences]

/-- What occurs does not depend on the order of the members, only its order does. -/
theorem occurrences_perm {members' : List (String × Json)} (h : members'.Perm members)
    (name : String) : (occurrences members' name).Perm (occurrences members name) :=
  (h.filter _).map _

/-- A field is the only member of its name. -/
theorem field?_of_occurrences (h : occurrences members name = [value]) :
    field? members name = some (some value) := by
  rw [field?, h]

/-- Values that can be read one by one can be read together. -/
theorem mapM_eq_some {read? : α → Option β} {f : α → β} {items : List α}
    (h : ∀ item ∈ items, read? item = some (f item)) : items.mapM read? = some (items.map f) := by
  induction items with
  | nil => rfl
  | cons item rest ih =>
    rw [List.mapM_cons, h item List.mem_cons_self,
      ih fun other hother => h other (List.mem_cons_of_mem _ hother)]
    rfl

/-- Values that are read alike one by one are read alike together. -/
theorem mapM_congr {read? other? : α → Option β} {items : List α}
    (h : ∀ item ∈ items, read? item = other? item) : items.mapM read? = items.mapM other? := by
  induction items with
  | nil => rfl
  | cons item rest ih =>
    rw [List.mapM_cons, List.mapM_cons, h item List.mem_cons_self,
      ih fun other hother => h other (List.mem_cons_of_mem _ hother)]

/-- Values cannot be read together if one of them cannot be read. -/
theorem mapM_eq_none {read? : α → Option β} {items : List α} {item : α} (hmem : item ∈ items)
    (h : read? item = none) : items.mapM read? = none := by
  obtain ⟨front, back, rfl⟩ := List.append_of_mem hmem
  simp [List.mapM_append, List.mapM_cons, h]

/-- As many values are read as there are items. -/
theorem length_of_mapM_eq_some {read? : α → Option β} {items : List α} {results : List β}
    (h : items.mapM read? = some results) : results.length = items.length := by
  induction items generalizing results with
  | nil =>
    obtain rfl : [] = results := Option.some.inj h
    rfl
  | cons item rest ih =>
    rw [List.mapM_cons] at h
    obtain ⟨first, _, hrest⟩ := Option.bind_eq_some_iff.mp h
    obtain ⟨others, hothers, hmade⟩ := Option.bind_eq_some_iff.mp hrest
    obtain rfl := Option.some.inj hmade
    rw [List.length_cons, List.length_cons, ih hothers]

/-- What was read together was read one by one. -/
theorem exists_of_mapM_eq_some {read? : α → Option β} {items : List α} {results : List β}
    {result : β} (h : items.mapM read? = some results) (hresult : result ∈ results) :
    ∃ item ∈ items, read? item = some result := by
  induction items generalizing results with
  | nil =>
    obtain rfl : [] = results := Option.some.inj h
    cases hresult
  | cons item rest ih =>
    rw [List.mapM_cons] at h
    obtain ⟨first, hfirst, hrest⟩ := Option.bind_eq_some_iff.mp h
    obtain ⟨others, hothers, hmade⟩ := Option.bind_eq_some_iff.mp hrest
    obtain rfl := Option.some.inj hmade
    rcases List.mem_cons.mp hresult with rfl | hresult
    · exact ⟨item, List.mem_cons_self, hfirst⟩
    · obtain ⟨other, hother, hread⟩ := ih hothers hresult
      exact ⟨other, List.mem_cons_of_mem _ hother, hread⟩

/-- The fields of an object that has the members of just these names are its members. -/
theorem fields?_object {names : List String} (hnames : members.map Prod.fst = names)
    (hdistinct : names.Nodup) :
    fields? names (.object members) = some (members.map fun member => some member.2) := by
  subst hnames
  rw [fields?, List.mapM_map]
  refine mapM_eq_some fun member hmember => ?_
  exact field?_of_occurrences (occurrences_eq_of_mem hdistinct hmember)

/-- The tag of an object is the only member of its name. The rest is what is left without it. -/
theorem tagged?_object (htag : occurrences members name = [tag]) :
    tagged? name (.object members) =
      if (Json.object (members.filter (·.1 != name))).isReadable then
        some (tag, .object (members.filter (·.1 != name)))
      else none := by
  rw [tagged?, htag]

/-- A tag in front of readable members is found. -/
theorem tagged?_cons {names : List String} (hnew : name ∉ names)
    (hnames : members.map Prod.fst = names)
    (hreadable : (Json.object members).isReadable = true) :
    tagged? name (.object ((name, tag) :: members)) = some (tag, .object members) := by
  subst hnames
  have htag : occurrences ((name, tag) :: members) name = [tag] := by
    rw [occurrences_cons_self, occurrences_eq_nil hnew]
  have hrest : ((name, tag) :: members).filter (·.1 != name) = members := by
    rw [List.filter_cons_of_neg (by simp)]
    refine List.filter_eq_self.mpr fun member hmember => bne_iff_ne.mpr fun heq => hnew ?_
    exact heq ▸ List.mem_map_of_mem hmember
  rw [tagged?_object htag, hrest, if_pos hreadable]

/-- A written list is read if its items are. -/
theorem listOf?_map {item? : Json → Option α} {ofItem : α → Json} {items : List α}
    (h : ∀ item ∈ items, item? (ofItem item) = some item) :
    listOf? item? (.array (items.map ofItem)) = some items := by
  have hitems : items.mapM (item? ∘ ofItem) = some (items.map id) := mapM_eq_some h
  rw [listOf?, List.mapM_map, hitems, List.map_id]

/-- A written dictionary is read if its values are. -/
theorem dictOf?_ofDict {value? : Json → Option α} {ofValue : α → Json} {entries : Dict α}
    (h : ∀ key content, entries.get? key = some content → value? (ofValue content) = some content) :
    dictOf? value? (ofDict ofValue entries) = some entries := by
  have hitems : entries.toList.mapM (fun entry : String × α =>
      (value? (ofValue entry.2)).map fun content => (entry.1, content)) =
        some (entries.toList.map id) := by
    refine mapM_eq_some ?_
    rintro ⟨key, content⟩ hentry
    have hread := h key content (Dict.mem_toList_iff.mp hentry)
    simp only [hread, Option.map_some, id_eq]
  rw [ofDict, dictOf?, List.mapM_map]
  change ((entries.toList.mapM fun entry : String × α =>
    (value? (ofValue entry.2)).map fun content => (entry.1, content)).bind _) = _
  rw [hitems, List.map_id]
  exact congrArg some (Dict.ofList_toList entries)

/-- Every item of a list was read from some item. -/
theorem exists_of_listOf? {item? : Json → Option α} {tree : Json} {items : List α} {item : α}
    (h : listOf? item? tree = some items) (hitem : item ∈ items) :
    ∃ part, item? part = some item := by
  cases tree with
  | array parts =>
    obtain ⟨part, _, hpart⟩ := exists_of_mapM_eq_some h hitem
    exact ⟨part, hpart⟩
  | _ => cases h

/-- Every value of a dictionary was read from some member. -/
theorem exists_of_dictOf? {value? : Json → Option α} {tree : Json} {entries : Dict α}
    {content : α} (h : dictOf? value? tree = some entries)
    (hget : entries.get? name = some content) :
    ∃ part, value? part = some content := by
  cases tree with
  | object members =>
    obtain ⟨found, hfound, hmade⟩ := Option.bind_eq_some_iff.mp h
    obtain rfl := Option.some.inj hmade
    rw [Dict.get?_ofList] at hget
    have hmem : (name, content) ∈ found := List.mem_reverse.mp (Dict.mem_of_find? hget)
    obtain ⟨member, _, hmember⟩ := exists_of_mapM_eq_some hfound hmem
    obtain ⟨read, hread, hpair⟩ := Option.map_eq_some_iff.mp hmember
    obtain ⟨-, rfl⟩ := Prod.mk.inj hpair
    exact ⟨member.2, hread⟩
  | _ => cases h

end Taskflow.Wire
