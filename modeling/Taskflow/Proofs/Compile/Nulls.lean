import Taskflow.Proofs.Compile.Revised

/-!
# Null and absent keys

A key that holds null says no more than a key that is not there. The main statement says that an
executable is compiled to the same result or fault once entries with null are left out: those with
a legal key in its body, in its action and in the bodies of its tasks, a branch for failures that is
null, and the properties of inputs and arguments that are null, as long as no map is emptied and no
two keys of one map are equal up to case.
-/

namespace Taskflow

open Text

/-- The edit that leaves out entries with null under some keys. -/
def Edit.dropNulls (mayGo : String → Prop) : Edit where
  respells _ := False
  leavesOut entry := entry.2 = .null ∧ mayGo entry.1

/-- Leaving out null under legal keys is harmless. -/
theorem Edit.harmless_dropNulls {mayGo : String → Prop} {legal : List String}
    (hlegal : ∀ key, mayGo key → lowerCase key ∈ legal) :
    (Edit.dropNulls mayGo).Harmless legal where
  respelled _ _ hkey := hkey.elim
  leftOut entry hentry := hlegal entry.1 hentry.2
  leftOut_null _ hentry := congrArg Value.isNull hentry.1

namespace Entry

variable {key name property : String} {properties properties' : Mapping} {preset : Bool}

/-- The default of an input is read from what is given as such. -/
theorem readDefault_eq (key name : String) (properties : Mapping) :
    readDefault key name properties =
      match Value.given? (properties.get? Input.defaultProperty) with
      | none => .ok none
      | some value => (readExpression key name value).map some := by
  unfold readDefault
  cases properties.get? Input.defaultProperty with
  | none => rfl
  | some value => cases value <;> rfl

/-- A flag of an input is read from what is given as such. -/
theorem readFlag_eq (key name : String) (properties : Mapping) (property : String) (preset : Bool) :
    readFlag key name properties property preset =
      match Value.given? (properties.get? property) with
      | none => .ok preset
      | some (.boolean value) => .ok value
      | some other => .error (.invalidEntry key (.notBoolean property name other.shape)) := by
  unfold readFlag
  cases properties.get? property with
  | none => rfl
  | some value => cases value <;> rfl

/-- An input is the same without those of its properties that are null. -/
theorem readProperties_eq_of_dropNulls
    (h : Edited (.dropNulls (· ∈ Input.properties)) (fun _ value value' => value = value')
      properties properties') :
    readProperties key name properties = readProperties key name properties' := by
  have hkeys := h.find?_keys_eq (fun property => !Input.properties.contains property)
    (fun _ _ hkey => hkey.elim) (fun entry hentry => by simpa using hentry.2)
  have hgiven := h.given?_get?_eq (fun _ hkey => hkey)
    (fun _ hentry => congrArg Value.isNull hentry.1)
  have hcheck : checkProperties key name properties = checkProperties key name properties' := by
    rw [checkProperties, checkProperties, hkeys]
  have hdefault : readDefault key name properties = readDefault key name properties' := by
    rw [readDefault_eq, readDefault_eq, hgiven]
  have hflag : ∀ property preset, readFlag key name properties property preset =
      readFlag key name properties' property preset := by
    intro property preset
    rw [readFlag_eq, readFlag_eq, hgiven]
  simp only [readProperties, hcheck, hdefault, hflag]

end Entry

namespace Compile

/-- An item that declares an input or gives an argument, without properties that are null. -/
inductive InputThinned : Value → Value → Prop
  | same (item : Value) : InputThinned item item
  | properties (name : String) {properties properties' : Mapping}
      (h : Edited (.dropNulls (· ∈ Input.properties)) (fun _ value value' => value = value')
        properties properties') :
      InputThinned (.map [(name, .map properties)]) (.map [(name, .map properties')])

/-- A thinned item declares the same input. -/
theorem readInput_eq_of_thinned {item item' : Value} (key : String) (h : InputThinned item item') :
    Entry.readInput key item = Entry.readInput key item' := by
  cases h with
  | same => rfl
  | properties name hproperties => exact Entry.readProperties_eq_of_dropNulls hproperties

/-- Leave out null under the legal keys of an executable, of its action and of its tasks, a branch
for failures that is null, and properties of inputs and arguments that are null. -/
def thinning (settings : Settings) : Revision where
  own := .dropNulls fun key =>
    lowerCase key ∈ legalKeys executableKeywords (executableKeys settings)
  action := .dropNulls fun key =>
    lowerCase key ∈ legalKeys (Registry.standard.inScope .action) []
  workflow := .dropNulls fun key => key = onFailureKey
  task := .dropNulls fun key =>
    lowerCase key ∈ legalKeys taskKeywords (Context.taskKeys ⟨settings, .empty⟩)
  input := InputThinned

/-- An executable is compiled to the same result or fault without entries that are null. -/
theorem executable_eq_of_thinned (settings : Settings) (file : SourceFile) (name : String)
    {body body' : Mapping} (hdistinct : DistinctKeys body)
    (h : (thinning settings).Revised body body') :
    executable settings file name body = executable settings file name body' := by
  have hown : (thinning settings).own.Harmless
      (legalKeys executableKeywords (executableKeys settings)) :=
    Edit.harmless_dropNulls fun _ hkey => hkey
  have haction : (thinning settings).action.Harmless
      (legalKeys (Registry.standard.inScope .action) []) :=
    Edit.harmless_dropNulls fun _ hkey => hkey
  have htask : (thinning settings).task.Harmless
      (legalKeys taskKeywords (Context.taskKeys ⟨settings, file.imports⟩)) :=
    Edit.harmless_dropNulls fun _ hkey => hkey
  have hworkflow : (thinning settings).KeepsTasks := by
    refine ⟨fun _ hkey => hkey, fun entry hentry => ?_⟩
    exact ⟨hentry.2, congrArg Value.isNull hentry.1⟩
  have hinput : (thinning settings).KeepsInputs := fun key _ _ => readInput_eq_of_thinned key
  exact executable_eq_of_revised
    (Revision.unnoticed_of_distinctKeys hdistinct hinput hown haction hworkflow htask) h

/-- A flow with null under a keyword of its body, of its task, of an input and of an argument, and
in place of the branch for failures. -/
def nullBody : Mapping :=
  [("inputs", .list [.map [("target", .map [("default", .null), ("required", .boolean true)])]]),
    ("outputs", .null),
    ("workflow", .map
      [("build", .map
          [("do", .map [("ops.build", .list [.map [("log", .map [("encrypted", .null)])]])]),
            ("loop", .null)]),
        ("on_failure", .null)])]

/-- The flow without null. -/
def thinnedBody : Mapping :=
  [("inputs", .list [.map [("target", .map [("required", .boolean true)])]]),
    ("workflow", .map
      [("build", .map [("do", .map [("ops.build", .list [.map [("log", .map [])]])])])])]

/-- The flow gives the same result with null and without. -/
theorem executable_eq_of_nullBody :
    DistinctKeys nullBody ∧ (thinning {}).Revised nullBody thinnedBody ∧
      ∃ compiled,
        executable {} ((SourceFile.empty "build.sl" "user" .flow).withImport "ops" "user.ops")
          "build" nullBody = .ok compiled ∧
        executable {} ((SourceFile.empty "build.sl" "user" .flow).withImport "ops" "user.ops")
          "build" thinnedBody = .ok compiled := by
  have hdistinct : DistinctKeys nullBody := distinctKeys_of_flow (by decide) rfl rfl (by decide)
  have hinput : InputThinned
      (.map [("target", .map [("default", .null), ("required", .boolean true)])])
      (.map [("target", .map [("required", .boolean true)])]) :=
    .properties "target" (.leaveOut ⟨rfl, by decide⟩ (by decide) (.keep (.inl rfl) rfl .nil))
  have hargument : InputThinned (.map [("log", .map [("encrypted", .null)])])
      (.map [("log", .map [])]) :=
    .properties "log" (.leaveOut ⟨rfl, by decide⟩ (by decide) .nil)
  have htask : (thinning {}).TaskRevised
      (.map [("do", .map [("ops.build", .list [.map [("log", .map [("encrypted", .null)])]])]),
        ("loop", .null)])
      (.map [("do", .map [("ops.build", .list [.map [("log", .map [])]])])]) :=
    .body ⟨.keep (.inl rfl) (.arguments (by decide) "ops.build" (.cons hargument .nil))
      (.leaveOut ⟨rfl, by decide⟩ (by decide) .nil), fun _ => List.cons_ne_nil _ _⟩
  have hrevised : (thinning {}).Revised nullBody thinnedBody := by
    refine ⟨.keep (.inl rfl) (.inputs (by decide) (.cons hinput .nil)) (.leaveOut ⟨rfl, by decide⟩
      (by decide) (.keep (.inl rfl) (.workflow (by decide) ⟨?_, fun _ => ?_⟩) .nil)),
      fun _ => List.cons_ne_nil _ _⟩
    · exact .keep (.inl rfl) htask (.leaveOut ⟨rfl, rfl⟩ (by decide) .nil)
    · exact List.cons_ne_nil _ _
  obtain ⟨compiled, hcompiled⟩ := faultOf_eq_none_iff.mp
    (show faultOf (executable {}
      ((SourceFile.empty "build.sl" "user" .flow).withImport "ops" "user.ops") "build"
      nullBody) = none by decide +kernel)
  refine ⟨hdistinct, hrevised, compiled, hcompiled, ?_⟩
  rw [← executable_eq_of_thinned {} _ "build" hdistinct hrevised]
  exact hcompiled

end Compile

end Taskflow
