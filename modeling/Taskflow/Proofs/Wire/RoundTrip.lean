import Taskflow.Wire.Binding
import Taskflow.Proofs.Wire.Loop

/-!
# Bindings come back

What is written for a binding is read as that binding. A binding may be set aside until a tag that
stands elsewhere is known, so it matters that all of what is written is readable. The main
statements say that bindings come back however they arrive, if the statements of their loops are
valid.
-/

namespace Taskflow.Wire

variable {α : Type}

/-- What is written for a value can be read as a whole, and is read as the value. -/
structure ComesBack (write : α → Json) (read? : Json → Option α) (value : α) : Prop where
  /-- No part of what is written is unreadable. -/
  readable : (write value).isReadable = true
  /-- What is written is read as the value. -/
  read_eq : read? (write value) = some value

/-- A list comes back if its items do. -/
theorem comesBack_list {write : α → Json} {read? : Json → Option α} {items : List α}
    (h : ∀ item ∈ items, ComesBack write read? item) :
    ComesBack (fun items => .array (items.map write)) (listOf? read?) items := by
  constructor
  · rw [Json.isReadable, Json.areReadable_iff]
    intro part hpart
    obtain ⟨item, hitem, rfl⟩ := List.mem_map.mp hpart
    exact (h item hitem).readable
  · exact listOf?_map fun item hitem => (h item hitem).read_eq

/-- A dictionary comes back if its values do. -/
theorem comesBack_dict {write : α → Json} {read? : Json → Option α} {entries : Dict α}
    (h : ∀ key value, entries.get? key = some value → ComesBack write read? value) :
    ComesBack (ofDict write) (dictOf? read?) entries := by
  constructor
  · rw [ofDict, Json.isReadable, Json.haveReadableValues_iff]
    intro member hmember
    obtain ⟨⟨key, value⟩, hentry, rfl⟩ := List.mem_map.mp hmember
    exact (h key value (Dict.mem_toList_iff.mp hentry)).readable
  · exact dictOf?_ofDict fun key value hget => (h key value hget).read_eq

/-- A text comes back. -/
theorem comesBack_text (value : String) : ComesBack Json.text text? value := ⟨rfl, rfl⟩

/-- An optional text comes back: null stands for none. -/
theorem comesBack_optionalText (value : Option String) : ComesBack ofText? optionalText? value := by
  cases value with
  | none => exact ⟨rfl, rfl⟩
  | some content => exact ⟨rfl, rfl⟩

/-- A record comes back if its members are readable and its fields are read as its parts. -/
theorem comesBack_record {write : α → Json} {read? : Json → Option α} {value : α}
    {names : List String} {members : List (String × Json)} {make : List (Option Json) → Option α}
    (hwrite : write value = .object members)
    (hread : ∀ tree, read? tree = (fields? names tree).bind make)
    (hnames : members.map Prod.fst = names) (hdistinct : names.Nodup)
    (hreadable : ∀ member ∈ members, member.2.isReadable = true)
    (hmake : make (members.map fun member => some member.2) = some value) :
    ComesBack write read? value := by
  constructor
  · rw [hwrite, Json.isReadable, Json.haveReadableValues_iff]
    exact hreadable
  · rw [hread, hwrite, fields?_object hnames hdistinct, Option.bind_some, hmake]

/-- An input comes back. -/
theorem comesBack_input (input : Input) : ComesBack ofInput input? input := by
  have hexpression := comesBack_optionalText input.expression
  refine comesBack_record rfl (fun _ => rfl) rfl (by decide) ?_ ?_
  · simp [hexpression.readable, Json.isReadable]
  · simp [text?, boolean?, hexpression.read_eq]

/-- An output comes back. -/
theorem comesBack_output (output : Output) : ComesBack ofOutput output? output :=
  comesBack_record rfl (fun _ => rfl) rfl (by decide) (by simp [Json.isReadable]) rfl

/-- A result comes back. -/
theorem comesBack_result (result : ResultBinding) : ComesBack ofResult result? result := by
  have hexpression := comesBack_optionalText result.expression
  refine comesBack_record rfl (fun _ => rfl) rfl (by decide) ?_ ?_
  · simp [hexpression.readable, Json.isReadable]
  · simp [text?, hexpression.read_eq]

/-- The call of a method comes back. -/
theorem comesBack_javaAction (action : JavaAction) :
    ComesBack ofJavaAction javaAction? action :=
  comesBack_record rfl (fun _ => rfl) rfl (by decide) (by simp [Json.isReadable]) rfl

/-- A navigation comes back. -/
theorem comesBack_navigation (targets : Navigation) :
    ComesBack ofNavigation navigation? targets :=
  comesBack_dict fun _ target _ => comesBack_text target

/-- A valid statement comes back, however it arrives. -/
theorem comesBack_loop {statement : LoopStatement} (arrival : Arrival) (hvalid : statement.Valid) :
    ComesBack ofLoop (loop? arrival) statement := by
  have hreadable : (ofLoop statement).isReadable = true := by
    cases statement <;> rfl
  obtain ⟨members, hmembers, hspells⟩ := spells_ofLoop arrival statement
  refine ⟨hreadable, ?_⟩
  rw [hmembers] at hreadable ⊢
  rw [loop?_of_spells hspells, if_pos ⟨hreadable, hvalid⟩]

/-- The type and the value of a written binding. -/
theorem typeAndValue?_typed {type : String} {place : Nat} (arrival : Arrival) (value : Json)
    (hplace : bindingTypes.findIdx? (· == type) = some place) :
    typeAndValue? arrival (typed type value) = some (place, value, arrival) := by
  simp [typeAndValue?, typed, occurrences, comesBefore, typeTag, valueTag, constantIndex?, hplace]

/-- A binding comes back if what stands under its type does. -/
theorem comesBack_typed {write : α → Json} {read? : Json → Option α} {value : α}
    {type : String} {place : Nat} {arrival : Arrival} (make : α → Binding)
    (h : ComesBack write read? value)
    (hwrite : ofBinding (make value) = typed type (write value))
    (hplace : bindingTypes.findIdx? (· == type) = some place)
    (hread : ∀ part, bindingValue? arrival place part = (read? part).map make) :
    ComesBack ofBinding (binding? arrival) (make value) := by
  constructor
  · rw [hwrite, typed]
    simp only [Json.isReadable, Json.haveReadableValues, h.readable, Bool.and_self]
  · rw [hwrite, binding?, typeAndValue?_typed arrival _ hplace]
    simp only [Option.bind_eq_bind, Option.bind_some]
    rw [hread, h.read_eq, Option.map_some]

/-- A binding comes back, however it arrives, a loop if its statement is valid. -/
theorem comesBack_binding {binding : Binding} (arrival : Arrival)
    (hvalid : ∀ statement, binding = .loop statement → statement.Valid) :
    ComesBack ofBinding (binding? arrival) binding := by
  cases binding with
  | inputs items =>
    have hitems := comesBack_list fun item (_ : item ∈ items) => comesBack_input item
    exact comesBack_typed .inputs hitems rfl rfl fun _ => rfl
  | outputs items =>
    have hitems := comesBack_list fun item (_ : item ∈ items) => comesBack_output item
    exact comesBack_typed .outputs hitems rfl rfl fun _ => rfl
  | results items =>
    have hitems := comesBack_list fun item (_ : item ∈ items) => comesBack_result item
    exact comesBack_typed .results hitems rfl rfl fun _ => rfl
  | javaAction action =>
    exact comesBack_typed .javaAction (comesBack_javaAction action) rfl rfl fun _ => rfl
  | script code =>
    exact comesBack_typed .script (comesBack_text code) rfl rfl fun _ => rfl
  | loop statement =>
    have hstatement := comesBack_loop arrival (hvalid statement rfl)
    exact comesBack_typed .loop hstatement rfl rfl fun _ => rfl
  | navigation targets =>
    exact comesBack_typed .navigation (comesBack_navigation targets) rfl rfl fun _ => rfl
  | names items =>
    have hitems := comesBack_list fun item (_ : item ∈ items) => comesBack_text item
    exact comesBack_typed .names hitems rfl rfl fun _ => rfl

/-- Bindings come back, however they arrive, if their loops are valid. -/
theorem comesBack_bindings {bindings : Bindings} (arrival : Arrival)
    (hvalid : HaveValidLoops bindings) :
    ComesBack ofBindings (bindings? arrival) bindings := by
  refine comesBack_dict fun key binding hget => comesBack_binding arrival ?_
  rintro statement rfl
  exact hvalid key statement hget

end Taskflow.Wire
