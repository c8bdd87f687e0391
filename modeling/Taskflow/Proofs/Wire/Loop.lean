import Taskflow.Wire.Loop
import Taskflow.Proofs.Loop.Valid
import Taskflow.Proofs.Wire.Record

/-!
# Reading loop statements

A loop statement is read from an object that has a kind and all fields of that kind. The main
statements say that only valid statements are ever read, and that an object which spells out a
statement is read as it exactly if the statement is valid and no part of the object is unreadable.
-/

namespace Taskflow.Wire

open LoopStatement

variable {arrival : Arrival} {members : List (String × Json)} {name : String} {tag tree : Json}
  {statement : LoopStatement}

/-- A loop over a list is read only if it is valid. -/
theorem valid_of_listLoop? (h : listLoop? tree = some statement) : statement.Valid := by
  obtain ⟨fields, _, hfields⟩ := Option.bind_eq_some_iff.mp h
  split at hfields
  · obtain ⟨varName, _, hfields⟩ := Option.bind_eq_some_iff.mp hfields
    obtain ⟨expression, _, hfields⟩ := Option.bind_eq_some_iff.mp hfields
    obtain ⟨inParallel, _, hmade⟩ := Option.bind_eq_some_iff.mp hfields
    exact (overList_eq_ok_iff.mp (toOption_eq_some_iff.mp hmade)).2
  · cases hfields

/-- A loop over a map is read only if it is valid. -/
theorem valid_of_mapLoop? (h : mapLoop? tree = some statement) : statement.Valid := by
  obtain ⟨fields, _, hfields⟩ := Option.bind_eq_some_iff.mp h
  split at hfields
  · obtain ⟨keyName, _, hfields⟩ := Option.bind_eq_some_iff.mp hfields
    obtain ⟨valueName, _, hfields⟩ := Option.bind_eq_some_iff.mp hfields
    obtain ⟨expression, _, hfields⟩ := Option.bind_eq_some_iff.mp hfields
    obtain ⟨inParallel, _, hmade⟩ := Option.bind_eq_some_iff.mp hfields
    exact (overMap_eq_ok_iff.mp (toOption_eq_some_iff.mp hmade)).2
  · cases hfields

/-- A loop statement is read only if it is valid. -/
theorem valid_of_loop? (h : loop? arrival tree = some statement) : statement.Valid := by
  obtain ⟨⟨tag, rest⟩, _, hrest⟩ := Option.bind_eq_some_iff.mp h
  obtain ⟨place, _, hloop⟩ := Option.bind_eq_some_iff.mp hrest
  split at hloop
  · exact valid_of_listLoop? hloop
  · exact valid_of_mapLoop? hloop

/-- The members of an object spell out a statement: its kind and all fields of that kind are there
once each, with a value of the right type. Nothing is said about other members. -/
inductive Spells (arrival : Arrival) (members : List (String × Json)) : LoopStatement → Prop
  | list {tag : Json} {varName expression : String} {inParallel : Bool}
      (hkind : occurrences members "kind" = [tag])
      (hplace : tagIndex? arrival loopKinds tag = some 0)
      (hvar : occurrences members "var_name" = [.text varName])
      (hexpression : occurrences members "expression" = [.text expression])
      (hparallel : occurrences members "parallel" = [.boolean inParallel]) :
      Spells arrival members (.list varName expression inParallel)
  | mapFor {tag : Json} {keyName valueName expression : String} {inParallel : Bool}
      (hkind : occurrences members "kind" = [tag])
      (hplace : tagIndex? arrival loopKinds tag = some 1)
      (hkey : occurrences members "key_name" = [.text keyName])
      (hvalue : occurrences members "value_name" = [.text valueName])
      (hexpression : occurrences members "expression" = [.text expression])
      (hparallel : occurrences members "parallel" = [.boolean inParallel]) :
      Spells arrival members (.mapFor keyName valueName expression inParallel)

/-- What is written for a statement spells it out. -/
theorem spells_ofLoop (arrival : Arrival) (statement : LoopStatement) :
    ∃ members, ofLoop statement = .object members ∧ Spells arrival members statement := by
  cases statement with
  | list varName expression inParallel => exact ⟨_, rfl, .list rfl rfl rfl rfl rfl⟩
  | mapFor keyName valueName expression inParallel =>
    exact ⟨_, rfl, .mapFor rfl rfl rfl rfl rfl rfl⟩

/-- A tag that has a place among the kinds is readable. -/
theorem isReadable_of_tagIndex? {names : List String} {place : Nat}
    (h : tagIndex? arrival names tag = some place) : tag.isReadable = true := by
  cases tag with
  | text | number => rfl
  | _ => cases h

/-- A member is readable if its name occurs once, with a readable value. -/
theorem isReadable_of_occurrences {value : Json} {member : String × Json}
    (honly : occurrences members name = [value]) (hreadable : value.isReadable = true)
    (hmem : member ∈ members) (hname : member.1 = name) : member.2.isReadable = true := by
  have hoccurs : member.2 ∈ occurrences members name :=
    List.mem_map_of_mem (List.mem_filter.mpr ⟨hmem, beq_iff_eq.mpr hname⟩)
  rw [honly, List.mem_singleton] at hoccurs
  rw [hoccurs, hreadable]

/-- Without a readable tag an object is as readable as it was. -/
theorem isReadable_filter_ne (htag : occurrences members name = [tag])
    (hreadable : tag.isReadable = true) :
    (Json.object (members.filter (·.1 != name))).isReadable = (Json.object members).isReadable := by
  rw [Bool.eq_iff_iff, Json.isReadable, Json.isReadable, Json.haveReadableValues_iff,
    Json.haveReadableValues_iff]
  constructor
  · intro hrest member hmember
    by_cases heq : member.1 = name
    · exact isReadable_of_occurrences htag hreadable hmember heq
    · exact hrest member (List.mem_filter.mpr ⟨hmember, bne_iff_ne.mpr heq⟩)
  · exact fun hall member hmember => hall member (List.mem_of_mem_filter hmember)

/-- A field of another name than the tag is found behind it. -/
theorem field?_filter_ne {other : String} {value : Json} (hne : name ≠ other)
    (h : occurrences members name = [value]) :
    field? (members.filter (·.1 != other)) name = some (some value) :=
  field?_of_occurrences ((occurrences_filter_ne hne).trans h)

/-- A loop over a list is read from its fields, once they are found. -/
theorem listLoop?_object {varName expression : String} {inParallel : Bool}
    (hvar : field? members "var_name" = some (some (.text varName)))
    (hexpression : field? members "expression" = some (some (.text expression)))
    (hparallel : field? members "parallel" = some (some (.boolean inParallel))) :
    listLoop? (.object members) = (overList varName expression inParallel).toOption := by
  simp [listLoop?, fields?, listLoopFields, hvar, hexpression, hparallel, text?, boolean?]

/-- A loop over a map is read from its fields, once they are found. -/
theorem mapLoop?_object {keyName valueName expression : String} {inParallel : Bool}
    (hkey : field? members "key_name" = some (some (.text keyName)))
    (hvalue : field? members "value_name" = some (some (.text valueName)))
    (hexpression : field? members "expression" = some (some (.text expression)))
    (hparallel : field? members "parallel" = some (some (.boolean inParallel))) :
    mapLoop? (.object members) = (overMap keyName valueName expression inParallel).toOption := by
  simp [mapLoop?, fields?, mapLoopFields, hkey, hvalue, hexpression, hparallel, text?, boolean?]

/-- The rest of an object with a tag is read by the kind, if it is readable. -/
theorem loop?_object {place : Nat} (htag : occurrences members "kind" = [tag])
    (hplace : tagIndex? arrival loopKinds tag = some place) :
    loop? arrival (.object members) =
      if (Json.object members).isReadable then
        match place with
        | 0 => listLoop? (.object (members.filter (·.1 != "kind")))
        | _ => mapLoop? (.object (members.filter (·.1 != "kind")))
      else none := by
  have hreadable := isReadable_filter_ne htag (isReadable_of_tagIndex? hplace)
  rw [loop?, kindTag, tagged?_object htag, hreadable]
  split
  · cases place with
    | zero => simp [hplace]
    | succ place => simp [hplace]
  · rfl

/-- What a builder makes is there exactly if it is valid. -/
theorem toOption_eq_ite {made : Except Fault LoopStatement} [Decidable statement.Valid]
    (h : ∀ other, made = .ok other ↔ other = statement ∧ other.Valid) :
    made.toOption = if statement.Valid then some statement else none := by
  split
  · next hvalid => exact toOption_eq_some_iff.mpr ((h statement).mpr ⟨rfl, hvalid⟩)
  · next hinvalid =>
    cases hmade : made with
    | error fault => rfl
    | ok other =>
      obtain ⟨rfl, hvalid⟩ := (h other).mp hmade
      exact absurd hvalid hinvalid

/-- An object that spells out a statement is read as it, unless the statement is not valid or part
of the object is unreadable. -/
theorem loop?_of_spells (h : Spells arrival members statement) :
    loop? arrival (.object members) =
      if (Json.object members).isReadable ∧ statement.Valid then some statement else none := by
  cases h with
  | list hkind hplace hvar hexpression hparallel =>
    rw [loop?_object hkind hplace, ite_and]
    rw [listLoop?_object (field?_filter_ne (by decide) hvar)
      (field?_filter_ne (by decide) hexpression) (field?_filter_ne (by decide) hparallel)]
    rw [toOption_eq_ite fun _ => overList_eq_ok_iff]
    rfl
  | mapFor hkind hplace hkey hvalue hexpression hparallel =>
    rw [loop?_object hkind hplace, ite_and]
    rw [mapLoop?_object (field?_filter_ne (by decide) hkey) (field?_filter_ne (by decide) hvalue)
      (field?_filter_ne (by decide) hexpression) (field?_filter_ne (by decide) hparallel)]
    rw [toOption_eq_ite fun _ => overMap_eq_ok_iff]
    rfl

end Taskflow.Wire
