import Taskflow.Proofs.Keyword.Bindings

/-!
# The faults of reading a value

Whatever stands under a keyword, reading it finds faults of form only: it never misses a part of
the structure and never follows a reference. The main statements say so of the value under a
keyword, of the bindings of a map, and of the check of its keys.
-/

namespace Taskflow

/-- A fault that concerns the form of keys and values. -/
def Fault.IsFormal (fault : Fault) : Prop := fault.area = .validation

namespace Value

/-- A value that is no map has the wrong form. -/
theorem asMap_isFormal (value : Value) (key : String) :
    RefusesOnly Fault.IsFormal (value.asMap key) := by
  cases value with
  | map entries => exact .ok entries
  | _ => exact .error rfl

/-- A value that is no list has the wrong form. -/
theorem asList_isFormal (value : Value) (key : String) :
    RefusesOnly Fault.IsFormal (value.asList key) := by
  cases value with
  | list items => exact .ok items
  | _ => exact .error rfl

/-- A value without a text has the wrong form. -/
theorem asText_isFormal (value : Value) (key : String) :
    RefusesOnly Fault.IsFormal (value.asText key) := by
  unfold asText
  split
  · exact .ok _
  · exact .error rfl

/-- A value that is neither null nor a map has the wrong form for a body. -/
theorem asBody_isFormal (value : Value) (key : String) :
    RefusesOnly Fault.IsFormal (value.asBody key) := by
  cases value with
  | null => exact .ok []
  | map entries => exact .ok entries
  | _ => exact .error rfl

end Value

namespace Entry

/-- A map with more or fewer pairs than one has the wrong form. -/
theorem onePair_isFormal (key : String) (entries : Mapping) :
    RefusesOnly Fault.IsFormal (onePair key entries) := by
  unfold onePair
  split
  · exact .ok _
  · exact .error rfl

/-- A value that is no expression has the wrong form. -/
theorem readExpression_isFormal (key name : String) (value : Value) :
    RefusesOnly Fault.IsFormal (readExpression key name value) := by
  unfold readExpression
  split
  · exact .ok _
  · exact .error rfl

/-- A property that does not exist is a fault of form. -/
theorem checkProperties_isFormal (key name : String) (properties : Mapping) :
    RefusesOnly Fault.IsFormal (checkProperties key name properties) := by
  unfold checkProperties
  split
  · exact .error rfl
  · exact .ok ()

/-- A default that is no expression has the wrong form. -/
theorem readDefault_isFormal (key name : String) (properties : Mapping) :
    RefusesOnly Fault.IsFormal (readDefault key name properties) := by
  unfold readDefault
  split
  · exact .ok none
  · exact .ok none
  · exact (readExpression_isFormal key name _).bind fun _ _ => .ok _

/-- A flag that is no boolean has the wrong form. -/
theorem readFlag_isFormal (key name : String) (properties : Mapping) (property : String)
    (preset : Bool) :
    RefusesOnly Fault.IsFormal (readFlag key name properties property preset) := by
  unfold readFlag
  split
  · exact .ok preset
  · exact .ok preset
  · exact .ok _
  · exact .error rfl

/-- The properties of an input have faults of form only. -/
theorem readProperties_isFormal (key name : String) (properties : Mapping) :
    RefusesOnly Fault.IsFormal (readProperties key name properties) := by
  have hflag := readFlag_isFormal key name properties
  refine (checkProperties_isFormal key name properties).bind fun _ _ => ?_
  refine (readDefault_isFormal key name properties).bind fun expression _ => ?_
  refine (hflag Input.requiredProperty true).bind fun required _ => ?_
  refine (hflag Input.encryptedProperty false).bind fun encrypted _ => ?_
  exact (hflag Input.overridableProperty false).bind fun overridable _ => .ok _

/-- What stands beside the name of an input has faults of form only. -/
theorem readInputValue_isFormal (key name : String) (value : Value) :
    RefusesOnly Fault.IsFormal (readInputValue key name value) := by
  unfold readInputValue
  split
  · exact .ok _
  · exact readProperties_isFormal key name _
  · exact (readExpression_isFormal key name value).bind fun _ _ => .ok _

/-- An input has faults of form only. -/
theorem readInput_isFormal (key : String) (value : Value) :
    RefusesOnly Fault.IsFormal (readInput key value) := by
  unfold readInput
  split
  · exact .ok _
  · exact (onePair_isFormal key _).bind fun pair _ => readInputValue_isFormal key pair.1 pair.2
  · exact .error rfl

/-- An output has faults of form only. -/
theorem readOutput_isFormal (key : String) (value : Value) :
    RefusesOnly Fault.IsFormal (readOutput key value) := by
  unfold readOutput
  split
  · exact .ok _
  · refine (onePair_isFormal key _).bind fun pair _ => ?_
    exact (readExpression_isFormal key pair.1 pair.2).bind fun _ _ => .ok _
  · exact .error rfl

/-- A result has faults of form only. -/
theorem readResult_isFormal (key : String) (value : Value) :
    RefusesOnly Fault.IsFormal (readResult key value) := by
  unfold readResult
  split
  · exact .ok _
  · refine (onePair_isFormal key _).bind fun pair _ => ?_
    exact (readExpression_isFormal key pair.1 pair.2).bind fun _ _ => .ok _
  · exact .error rfl

/-- A value that is no name of a result has the wrong form. -/
theorem readResultName_isFormal (key : String) (value : Value) :
    RefusesOnly Fault.IsFormal (readResultName key value) := by
  unfold readResultName
  split
  · exact .ok _
  · exact .error rfl

/-- A value that is no target has the wrong form. -/
theorem readTarget_isFormal (key : String) (entry : String × Value) :
    RefusesOnly Fault.IsFormal (readTarget key entry) := by
  unfold readTarget
  split
  · exact .ok _
  · exact .error rfl

/-- A required property that is absent or blank is a fault of form. -/
theorem readRequired_isFormal (key : String) (entries : Mapping) (property : String) :
    RefusesOnly Fault.IsFormal (readRequired key entries property) := by
  unfold readRequired
  dsimp only
  split
  · exact .ok _
  · exact .error rfl

/-- An action has faults of form only. -/
theorem readJavaAction_isFormal (key : String) (entries : Mapping) :
    RefusesOnly Fault.IsFormal (readJavaAction key entries) := by
  have hrequired := readRequired_isFormal key entries
  refine (hrequired JavaAction.classProperty).bind fun className _ => ?_
  exact (hrequired JavaAction.methodProperty).bind fun methodName _ => .ok _

end Entry

namespace LoopClause

/-- A blank expression and a blank name are faults of form. -/
theorem over_isFormal (binder : Binder) (expression : List Char) (inParallel : Bool) :
    RefusesOnly Fault.IsFormal (binder.over expression inParallel) := by
  cases binder with
  | element varName =>
    rw [Binder.over, LoopStatement.overList_eq]
    split
    · exact .ok _
    · exact .error rfl
  | entry keyName valueName =>
    rw [Binder.over, LoopStatement.overMap_eq]
    split
    · exact .error rfl
    · split
      · exact .error rfl
      · split
        · exact .error rfl
        · exact .ok _

/-- What cannot be bound is a fault of form. -/
theorem readBinder_isFormal (text : List Char) :
    RefusesOnly Fault.IsFormal (readBinder text) := by
  unfold readBinder
  split
  · exact .ok _
  · split
    · exact .ok _
    · exact .error rfl

/-- A clause has faults of form only. -/
theorem read_isFormal (clause : String) (inParallel : Bool) :
    RefusesOnly Fault.IsFormal (read clause inParallel) := by
  have hchars : RefusesOnly Fault.IsFormal (readChars clause.toList inParallel) := by
    unfold readChars
    split
    · exact over_isFormal _ _ inParallel
    · exact (readBinder_isFormal _).bind fun binder _ => over_isFormal binder _ inParallel
  unfold read
  split
  · exact .ok none
  · exact hchars.bind fun _ _ => .ok _

end LoopClause

/-- A list that is read item by item has faults of form only if its items do. -/
theorem items_isFormal {α β : Type} {read : Value → Except Fault α} (make : List α → β)
    (value : Value) (key : String) (hread : ∀ item, RefusesOnly Fault.IsFormal (read item)) :
    RefusesOnly Fault.IsFormal (do
      let items ← value.asList key
      let found ← items.mapM read
      return make found) := by
  refine (value.asList_isFormal key).bind fun items _ => ?_
  have hitems : RefusesOnly Fault.IsFormal (items.mapM read) := .mapM fun item _ => hread item
  exact hitems.bind fun _ _ => .ok _

namespace Keyword

/-- The arguments of an invocation have faults of form only. -/
theorem readArguments_isFormal (reference : String) (value : Value) :
    RefusesOnly Fault.IsFormal (readArguments reference value) := by
  unfold readArguments
  split
  · exact .ok []
  · refine (Value.asList_isFormal value reference).bind fun items _ => ?_
    exact .mapM fun item _ => Entry.readInput_isFormal reference item

/-- An invocation has faults of form only. -/
theorem readInvocation_isFormal (entries : Mapping) :
    RefusesOnly Fault.IsFormal (readInvocation entries) := by
  unfold readInvocation
  split
  · exact (readArguments_isFormal _ _).bind fun _ _ => .ok _
  · exact .ok none

/-- A list of outputs has faults of form only. -/
theorem readOutputs_isFormal (key : String) (value : Value) :
    RefusesOnly Fault.IsFormal (readOutputs key value) :=
  items_isFormal _ value key (Entry.readOutput_isFormal key)

/-- The value under a keyword has faults of form only. -/
theorem readValue_isFormal (keyword : Keyword) (key : String) (value : Value) :
    RefusesOnly Fault.IsFormal (keyword.readValue key value) := by
  cases keyword with
  | inputs => exact items_isFormal _ value key (Entry.readInput_isFormal key)
  | outputs | publish | aggregate => exact readOutputs_isFormal key value
  | results => exact items_isFormal _ value key (Entry.readResult_isFormal key)
  | javaAction =>
    refine (Value.asMap_isFormal value key).bind fun entries _ => ?_
    exact (Entry.readJavaAction_isFormal key entries).bind fun _ _ => .ok _
  | pythonAction => exact (Value.asText_isFormal value key).bind fun _ _ => .ok _
  | invoke =>
    exact (Value.asMap_isFormal value key).bind fun entries _ => readInvocation_isFormal entries
  | loop | parallelLoop =>
    refine (Value.asText_isFormal value key).bind fun clause _ => ?_
    exact (LoopClause.read_isFormal clause _).bind fun _ _ => .ok _
  | navigate =>
    refine (Value.asMap_isFormal value key).bind fun entries _ => ?_
    have htargets : RefusesOnly Fault.IsFormal (entries.mapM (Entry.readTarget key)) :=
      .mapM fun entry _ => Entry.readTarget_isFormal key entry
    exact htargets.bind fun _ _ => .ok _
  | breakOn => exact items_isFormal _ value key (Entry.readResultName_isFormal key)

end Keyword

/-- What a keyword names in a map has faults of form only. -/
theorem readKeyword_isFormal (entries : Mapping) (keyword : Keyword) :
    RefusesOnly Fault.IsFormal (readKeyword entries keyword) := by
  unfold readKeyword Keyword.convert
  split
  · exact .ok _
  · exact .ok _
  · exact keyword.readValue_isFormal _ _

/-- Reading the bindings of a map finds faults of form only. -/
theorem readBindings_isFormal (entries : Mapping) (keywords : List Keyword) :
    RefusesOnly Fault.IsFormal (readBindings entries keywords) := by
  refine .of_describedBy (describedBy_readBindings entries keywords) fun fault hfault => ?_
  obtain ⟨keyword, _, hkeyword⟩ := List.mem_map.mp hfault
  exact readKeyword_isFormal entries keyword fault (faultOf_eq_some_iff.mp hkeyword)

/-- A key that is not legal is a fault of form. -/
theorem checkKeys_isFormal (entries : Mapping) (legal : List Keyword) (reserved : List String)
    (context : String) : RefusesOnly Fault.IsFormal (checkKeys entries legal reserved context) := by
  unfold checkKeys
  split
  · exact .error rfl
  · exact .ok ()

end Taskflow
