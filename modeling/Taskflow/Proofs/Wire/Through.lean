import Taskflow.Proofs.Wire.Part
import Taskflow.Proofs.Wire.Record

/-!
# Reading goes through the records

What a tree is read as depends on a record in it only by what the record is read as, however deep
inside it stands.
-/

namespace Taskflow.Wire

open Json (Spot)

variable {α β γ : Type}

/-- What a tree is read as when it arrives. What was set aside has been read as a whole, so no part
of it may be unreadable. -/
def arrive? (arrival : Arrival) (read? : Json → Option α) (tree : Json) : Option α :=
  if arrival = .setAside ∧ tree.isReadable = false then none else read? tree

/-- What is in its place is just read. -/
@[simp] theorem arrive?_inPlace (read? : Json → Option α) (tree : Json) :
    arrive? .inPlace read? tree = read? tree :=
  if_neg fun h => nomatch h.1

/-- What was set aside is read if it is readable. -/
theorem arrive?_setAside (read? : Json → Option α) (tree : Json) :
    arrive? .setAside read? tree = if tree.isReadable then read? tree else none := by
  cases h : tree.isReadable <;> simp [arrive?, h]

/-- What was set aside once stays so. -/
theorem arrive?_arrive?_setAside (arrival : Arrival) (read? : Json → Option α) :
    arrive? arrival (arrive? .setAside read?) = arrive? .setAside read? := by
  funext tree
  cases arrival with
  | inPlace => exact arrive?_inPlace _ tree
  | setAside => cases h : tree.isReadable <;> simp [arrive?_setAside, h]

/-- Reading goes through one part of a tree: it depends on the part only by what the part is read
as, and the tree is refused if the part is. -/
structure ReadsThrough (read? : Json → Option α) (part? : Json → Option β)
    (place : Json → Json) : Prop where
  /-- Parts that are read alike may stand for one another. -/
  congr : ∀ tree tree', part? tree = part? tree' → read? (place tree) = read? (place tree')
  /-- A refused part is not made up for. -/
  strict : ∀ tree, part? tree = none → read? (place tree) = none

namespace ReadsThrough

variable {read? : Json → Option α} {part? : Json → Option β} {inner? : Json → Option γ}
  {place inside : Json → Json}

/-- Reading a tree goes through the whole of it. -/
theorem refl (read? : Json → Option α) : ReadsThrough read? read? id :=
  ⟨fun _ _ h => h, fun _ h => h⟩

/-- What is read may be turned into something else. -/
theorem turned (read? : Json → Option α) (turn : α → β) :
    ReadsThrough (fun tree => (read? tree).map turn) read? id :=
  ⟨fun _ _ h => congrArg (Option.map turn) h, fun _ h => congrArg (Option.map turn) h⟩

/-- Reading goes through the parts of parts. -/
theorem trans (h : ReadsThrough read? part? place) (hinner : ReadsThrough part? inner? inside) :
    ReadsThrough read? inner? (place ∘ inside) :=
  ⟨fun _ _ heq => h.congr _ _ (hinner.congr _ _ heq),
    fun _ hnone => h.strict _ (hinner.strict _ hnone)⟩

/-- Reading may be put in another way. -/
theorem of_eq {other? : Json → Option α} {elsewhere : Json → Json}
    (h : ReadsThrough read? part? place)
    (heq : ∀ tree, other? (elsewhere tree) = read? (place tree)) :
    ReadsThrough other? part? elsewhere := by
  constructor
  · intro tree tree' hpart
    rw [heq, heq, h.congr tree tree' hpart]
  · intro tree hnone
    rw [heq, h.strict tree hnone]

/-- Where the tree is refused whatever the part is, reading goes through it. -/
theorem of_refused (part? : Json → Option β) (h : ∀ tree, read? (place tree) = none) :
    ReadsThrough read? part? place :=
  ⟨fun tree tree' _ => (h tree).trans (h tree').symm, fun tree _ => h tree⟩

/-- What reading goes through is set aside with the whole. -/
theorem arrive {spot : Spot} (h : ReadsThrough read? part? spot.fill) (arrival : Arrival) :
    ReadsThrough (arrive? arrival read?) (arrive? arrival part?) spot.fill := by
  cases arrival with
  | inPlace => exact ⟨by simpa using h.congr, by simpa using h.strict⟩
  | setAside =>
    have hstrict : ∀ tree, arrive? .setAside part? tree = none →
        arrive? .setAside read? (spot.fill tree) = none := by
      intro tree hnone
      rw [arrive?_setAside] at hnone
      rw [arrive?_setAside, Json.isReadable_fill]
      cases hreadable : tree.isReadable with
      | false => simp
      | true =>
        rw [h.strict tree (by simpa [hreadable] using hnone), ite_self]
    refine ⟨fun tree tree' heq => ?_, hstrict⟩
    cases hpart : arrive? .setAside part? tree with
    | none => rw [hstrict tree hpart, hstrict tree' (heq ▸ hpart)]
    | some value =>
      -- Both parts were read, so both are readable and are read alike.
      rw [hpart] at heq
      rw [arrive?_setAside, Option.ite_none_right_eq_some] at hpart
      rw [eq_comm, arrive?_setAside, Option.ite_none_right_eq_some] at heq
      have hread := h.congr tree tree' (hpart.2.trans heq.2.symm)
      rw [arrive?_setAside, arrive?_setAside, Json.isReadable_fill, Json.isReadable_fill, hpart.1,
        heq.1, hread]

end ReadsThrough

/-- Reading a list goes through each item. -/
theorem readsThrough_listOf? (item? : Json → Option α) (front back : List Json) :
    ReadsThrough (listOf? item?) item? (Spot.item front .here back).fill := by
  constructor
  · intro tree tree' heq
    simp [listOf?, Spot.fill, List.mapM_append, List.mapM_cons, heq]
  · intro tree hnone
    simp [listOf?, Spot.fill, List.mapM_append, List.mapM_cons, hnone]

/-- Reading a dictionary goes through the value of each member. -/
theorem readsThrough_dictOf? (value? : Json → Option α) (front back : List (String × Json))
    (name : String) :
    ReadsThrough (dictOf? value?) value? (Spot.member front name .here back).fill := by
  constructor
  · intro tree tree' heq
    simp [dictOf?, Spot.fill, List.mapM_append, List.mapM_cons, heq]
  · intro tree hnone
    simp [dictOf?, Spot.fill, List.mapM_append, List.mapM_cons, hnone]

/-- What is made of the fields of a record uses the field between the given numbers of others by
reading it. -/
structure UsesField (make : List (Option Json) → Option α) (before after : Nat)
    (part? : Json → Option β) : Prop where
  /-- The field counts only by what it is read as. -/
  congr : ∀ left, left.length = before → ∀ right, right.length = after →
    ∀ tree tree', part? tree = part? tree' →
      make (left ++ some tree :: right) = make (left ++ some tree' :: right)
  /-- Without the field nothing is made. -/
  strict : ∀ left, left.length = before → ∀ right, right.length = after →
    ∀ tree, part? tree = none → make (left ++ some tree :: right) = none

/-- A member of another name does not matter to a field. -/
theorem field?_append_cons_of_ne {name other : String} (h : other ≠ name) (value : Json)
    (front back : List (String × Json)) :
    field? (front ++ (other, value) :: back) name = field? (front ++ back) name := by
  rw [field?, field?, occurrences_append_of_ne h]

/-- A member is the field of its name unless the name is repeated. -/
theorem field?_append_cons_self (name : String) (value : Json) (front back : List (String × Json)) :
    field? (front ++ (name, value) :: back) name =
      if occurrences (front ++ back) name = [] then some (some value) else none := by
  rw [field?, occurrences_append, occurrences_append, occurrences_cons_self]
  cases occurrences front name with
  | nil => cases occurrences back name <;> simp
  | cons first rest => cases rest <;> simp

/-- What stands at a spot is a field between the given numbers of others, which do not depend on
it, unless it is no field at all. -/
def IsField (names : List String) (spot : Spot) (before after : Nat) : Prop :=
  ∃ sides? : Option (List (Option Json) × List (Option Json)),
    (∀ sides ∈ sides?, sides.1.length = before ∧ sides.2.length = after) ∧
    ∀ tree, fields? names (spot.fill tree) =
      sides?.map fun sides => sides.1 ++ some tree :: sides.2

/-- The value of a member is the field of its name. -/
theorem isField_member {before after : List String} {name : String}
    (hdistinct : (before ++ name :: after).Nodup) (front back : List (String × Json)) :
    IsField (before ++ name :: after) (.member front name .here back) before.length
      after.length := by
  have hothers : ∀ others : List String, name ∉ others → ∀ tree,
      others.mapM (field? (front ++ (name, tree) :: back)) =
        others.mapM (field? (front ++ back)) := by
    intro others hnew tree
    refine mapM_congr fun other hother => field?_append_cons_of_ne ?_ tree front back
    rintro rfl
    exact hnew hother
  obtain ⟨hbefore, hafter⟩ : name ∉ before ∧ name ∉ after := by
    rw [List.nodup_append, List.nodup_cons] at hdistinct
    exact ⟨fun hmem => hdistinct.2.2 name hmem name List.mem_cons_self rfl, hdistinct.2.1.1⟩
  have hfields : ∀ tree, fields? (before ++ name :: after)
      ((Spot.member front name .here back).fill tree) =
        (before.mapM (field? (front ++ back))).bind fun left =>
          (if occurrences (front ++ back) name = [] then some (some tree) else none).bind
            fun value => (after.mapM (field? (front ++ back))).bind fun right =>
              some (left ++ value :: right) := by
    intro tree
    simp only [Spot.fill, fields?, List.mapM_append, List.mapM_cons, hothers _ hbefore,
      hothers _ hafter, field?_append_cons_self, Option.bind_eq_bind, Option.pure_def,
      Option.bind_assoc, Option.bind_some]
  by_cases honly : occurrences (front ++ back) name = []
  · refine ⟨(before.mapM (field? (front ++ back))).bind fun left =>
      (after.mapM (field? (front ++ back))).map fun right => (left, right), ?_, fun tree => ?_⟩
    · intro sides hsides
      obtain ⟨left, hleft, hsides⟩ := Option.bind_eq_some_iff.mp hsides
      obtain ⟨right, hright, rfl⟩ := Option.map_eq_some_iff.mp hsides
      exact ⟨length_of_mapM_eq_some hleft, length_of_mapM_eq_some hright⟩
    · rw [hfields, if_pos honly]
      cases before.mapM (field? (front ++ back)) with
      | none => rfl
      | some left => cases after.mapM (field? (front ++ back)) <;> rfl
  · refine ⟨none, fun sides hsides => absurd hsides (Option.not_mem_none sides), fun tree => ?_⟩
    rw [hfields, if_neg honly]
    simp

/-- An item is the field of its place. -/
theorem isField_item {before after : List String} {name : String} {front : List Json}
    (hplace : front.length = before.length) (back : List Json) :
    IsField (before ++ name :: after) (.item front .here back) before.length after.length := by
  have hfields : ∀ tree, fields? (before ++ name :: after)
      ((Spot.item front .here back).fill tree) =
        if back.length = after.length then some (front.map some ++ some tree :: back.map some)
        else none := by
    intro tree
    simp [Spot.fill, fields?, hplace]
  by_cases hall : back.length = after.length
  · refine ⟨some (front.map some, back.map some), ?_, fun tree => ?_⟩
    · rintro sides ⟨⟩
      simp [hplace, hall]
    · rw [hfields, if_pos hall, Option.map_some]
  · refine ⟨none, fun sides hsides => absurd hsides (Option.not_mem_none sides), fun tree => ?_⟩
    rw [hfields, if_neg hall, Option.map_none]

/-- Reading a record goes through a field, if what is made of its fields uses the field. -/
theorem UsesField.readsThrough {read? : Json → Option α} {part? : Json → Option β}
    {make : List (Option Json) → Option α} {names : List String} {before after : Nat} {spot : Spot}
    (h : UsesField make before after part?)
    (hread : ∀ tree, read? tree = (fields? names tree).bind make)
    (hfield : IsField names spot before after) : ReadsThrough read? part? spot.fill := by
  obtain ⟨sides?, hlength, hfields⟩ := hfield
  cases sides? with
  | none =>
    refine .of_refused part? fun tree => ?_
    rw [hread, hfields, Option.map_none, Option.bind_none]
  | some sides =>
    obtain ⟨hleft, hright⟩ := hlength sides rfl
    have hmade : ∀ tree, read? (spot.fill tree) = make (sides.1 ++ some tree :: sides.2) :=
      fun tree => by rw [hread, hfields, Option.map_some, Option.bind_some]
    constructor
    · intro tree tree' heq
      rw [hmade, hmade, h.congr _ hleft _ hright _ _ heq]
    · intro tree hnone
      rw [hmade, h.strict _ hleft _ hright _ hnone]

end Taskflow.Wire
