import Taskflow.Proofs.Keyword.Bindings

/-!
# Lists of declarations

Inputs, outputs and results are declared by lists, of which each item gives a name. The main
statement says that nothing is lost between the list and the declarations that were read: there
is one for each item, in order, and it has the name that the item gives. What is absent declares
nothing.
-/

namespace Taskflow

variable {α : Type} {entries : Mapping} {keyword : Keyword} {binding : Option Binding}

/-- A value gives a name: it is that text, or a map with the name as its only key. -/
def Value.Names (value : Value) (name : String) : Prop :=
  value = .text name ∨ ∃ said, value = .map [(name, said)]

/-- What stands under a keyword declares each of the given things in turn: a list has one item
for each, read as that thing and giving its name, and without a list there are none. -/
def Declares (read : Value → Except Fault α) (nameOf : α → String) :
    Option Value → List α → Prop
  | none, found => found = []
  | some .null, found => found = []
  | some (.list items), found =>
    List.Forall₂ (fun item thing => read item = .ok thing ∧ item.Names (nameOf thing)) items found
  | some _, _ => False

namespace Entry

variable {key name : String} {item value : Value}

/-- The only pair of a map is all that the map holds. -/
theorem onePair_eq_ok_iff {entries : Mapping} {pair : String × Value} :
    onePair key entries = .ok pair ↔ entries = [pair] := by
  constructor
  · intro h
    unfold onePair at h
    split at h
    · rw [Except.ok.inj h]
    · cases h
  · rintro rfl
    rfl

/-- An input has the name that it was read under. -/
theorem name_of_readInputValue_eq_ok {input : Input}
    (h : readInputValue key name value = .ok input) : input.name = name := by
  cases value with
  | null =>
    obtain rfl := Except.ok.inj h
    rfl
  | map properties =>
    obtain ⟨_, _, h⟩ := bind_eq_ok_iff.mp h
    obtain ⟨expression, _, h⟩ := bind_eq_ok_iff.mp h
    obtain ⟨required, _, h⟩ := bind_eq_ok_iff.mp h
    obtain ⟨encrypted, _, h⟩ := bind_eq_ok_iff.mp h
    obtain ⟨overridable, _, h⟩ := bind_eq_ok_iff.mp h
    obtain rfl := Except.ok.inj h
    rfl
  | boolean | number | text | list =>
    obtain ⟨expression, _, h⟩ := bind_eq_ok_iff.mp h
    obtain rfl := Except.ok.inj h
    rfl

/-- An input has the name that its entry gives. -/
theorem names_of_readInput_eq_ok {input : Input} (h : readInput key item = .ok input) :
    item.Names input.name := by
  cases item with
  | text name =>
    obtain rfl := Except.ok.inj h
    exact .inl rfl
  | map entries =>
    obtain ⟨⟨name, said⟩, hpair, hvalue⟩ := bind_eq_ok_iff.mp h
    obtain rfl := onePair_eq_ok_iff.mp hpair
    rw [name_of_readInputValue_eq_ok hvalue]
    exact .inr ⟨said, rfl⟩
  | _ => cases h

/-- A pair of a name and an expression was read from a map that holds nothing else. -/
theorem exists_pair_of_eq_ok {entries : Mapping} {make : String → String → α} {thing : α}
    (h : (do
      let (name, value) ← onePair key entries
      let expression ← readExpression key name value
      return make name expression) = .ok thing) :
    ∃ name said expression, entries = [(name, said)] ∧ thing = make name expression := by
  obtain ⟨⟨name, said⟩, hpair, hvalue⟩ := bind_eq_ok_iff.mp h
  obtain ⟨expression, _, hmade⟩ := bind_eq_ok_iff.mp hvalue
  exact ⟨name, said, expression, onePair_eq_ok_iff.mp hpair, (Except.ok.inj hmade).symm⟩

/-- An output has the name that its entry gives. -/
theorem names_of_readOutput_eq_ok {output : Output} (h : readOutput key item = .ok output) :
    item.Names output.name := by
  cases item with
  | text name =>
    obtain rfl := Except.ok.inj h
    exact .inl rfl
  | map entries =>
    obtain ⟨name, said, expression, rfl, rfl⟩ := exists_pair_of_eq_ok h
    exact .inr ⟨said, rfl⟩
  | _ => cases h

/-- A result has the name that its entry gives. -/
theorem names_of_readResult_eq_ok {result : ResultBinding}
    (h : readResult key item = .ok result) : item.Names result.name := by
  cases item with
  | text name =>
    obtain rfl := Except.ok.inj h
    exact .inl rfl
  | map entries =>
    obtain ⟨name, said, expression, rfl, rfl⟩ :=
      @exists_pair_of_eq_ok _ key entries (fun name content => ResultBinding.mk name (some content))
        result h
    exact .inr ⟨said, rfl⟩
  | _ => cases h

end Entry

/-- What was read item by item was read from a list, and each item gives the thing at its
position. -/
theorem exists_items_of_eq_ok {β : Type} {read : Value → Except Fault α} {make : List α → β}
    {value : Value} {key : String} {result : β}
    (h : (do
      let items ← value.asList key
      let found ← items.mapM read
      return make found) = .ok result) :
    ∃ items found, value = .list items ∧
      List.Forall₂ (fun item thing => read item = .ok thing) items found ∧
        result = make found := by
  obtain ⟨items, hitems, hrest⟩ := bind_eq_ok_iff.mp h
  obtain ⟨found, hfound, hmade⟩ := bind_eq_ok_iff.mp hrest
  exact ⟨items, found, Value.asList_eq_ok_iff.mp hitems, mapM_eq_ok_iff.mp hfound,
    (Except.ok.inj hmade).symm⟩

/-- The arguments of an invocation are declared by the value under its reference. -/
theorem Keyword.declares_of_readArguments_eq_ok {reference : String} {value : Value}
    {inputs : List Input} (h : readArguments reference value = .ok inputs) :
    Declares (Entry.readInput reference) Input.name (some value) inputs := by
  cases value with
  | null => exact (Except.ok.inj h).symm
  | list items =>
    have hitems : items.mapM (Entry.readInput reference) = .ok inputs := h
    exact (mapM_eq_ok_iff.mp hitems).imp fun item input hread =>
      ⟨hread, Entry.names_of_readInput_eq_ok hread⟩
  | _ => cases h

/-- A keyword reads a list item by item and binds what the items declare, also where there are
none. -/
structure Keyword.ReadsItems (keyword : Keyword) (read : Value → Except Fault α)
    (nameOf : α → String) (make : List α → Binding) : Prop where
  /-- A value is read as a list of items. -/
  readValue_eq : ∀ value, keyword.readValue keyword.text value = do
    let items ← value.asList keyword.text
    let found ← items.mapM read
    return some (make found)
  /-- An absent value declares nothing. -/
  absent_eq : keyword.absent = some (make [])
  /-- What an item declares has the name that the item gives. -/
  names : ∀ item thing, read item = .ok thing → item.Names (nameOf thing)

/-- The keyword of inputs reads them item by item. -/
theorem Keyword.readsItems_inputs :
    Keyword.inputs.ReadsItems (Entry.readInput "inputs") Input.name Binding.inputs :=
  ⟨fun _ => rfl, rfl, fun _ _ => Entry.names_of_readInput_eq_ok⟩

/-- The keyword of outputs reads them item by item. -/
theorem Keyword.readsItems_outputs :
    Keyword.outputs.ReadsItems (Entry.readOutput "outputs") Output.name Binding.outputs :=
  ⟨fun _ => rfl, rfl, fun _ _ => Entry.names_of_readOutput_eq_ok⟩

/-- The keyword of results reads them item by item. -/
theorem Keyword.readsItems_results :
    Keyword.results.ReadsItems (Entry.readResult "results") ResultBinding.name Binding.results :=
  ⟨fun _ => rfl, rfl, fun _ _ => Entry.names_of_readResult_eq_ok⟩

/-- Where a keyword reads items, it always binds something, and that is what stands under it. -/
theorem Keyword.ReadsItems.exists_declares {read : Value → Except Fault α} {nameOf : α → String}
    {make : List α → Binding} (hkeyword : keyword.ReadsItems read nameOf make)
    (h : readKeyword entries keyword = .ok binding) :
    ∃ found, binding = some (make found) ∧
      Declares read nameOf (entries.lookup? keyword.text) found := by
  unfold readKeyword Keyword.convert at h
  split at h
  · next hvalue =>
    rw [hvalue]
    exact ⟨[], (Except.ok.inj h).symm.trans hkeyword.absent_eq, rfl⟩
  · next hvalue =>
    rw [hvalue]
    exact ⟨[], (Except.ok.inj h).symm.trans hkeyword.absent_eq, rfl⟩
  · next value _ hvalue =>
    rw [hkeyword.readValue_eq] at h
    obtain ⟨items, found, rfl, hitems, hbinding⟩ := exists_items_of_eq_ok h
    rw [hvalue]
    exact ⟨found, hbinding, hitems.imp fun item thing hread =>
      ⟨hread, hkeyword.names item thing hread⟩⟩

end Taskflow
