import Taskflow.Proofs.Compile.Reordered
import Taskflow.Proofs.Keyword.Edited
import Taskflow.Proofs.Keyword.Reached

/-!
# Revisions that compilation does not notice

A revision edits the maps of an executable: its body, its action, the map of its tasks, the bodies
of the tasks, and the items that declare inputs and arguments. Whether compilation takes notice is
decided map by map, by the check of keys and by what the names of the place find. The main statement
says that an executable is compiled to the same result or fault if every map is edited unnoticed.
-/

namespace Taskflow

open Text

/-- Runs agree that have the same outcome. -/
def Agreement.exact : Agreement where
  rel left right := left = right
  refl _ := rfl
  bind := by
    rintro α β left _ next next' rfl hnext
    cases left with
    | error fault => rfl
    | ok value => exact hnext value rfl rfl

/-- Items that are read alike one by one are read alike in turn. -/
theorem mapM_eq_of_forall₂ {α β : Type} {run : α → Except Fault β} {items items' : List α}
    (h : List.Forall₂ (fun item item' => run item = run item') items items') :
    items.mapM run = items'.mapM run := by
  induction h with
  | nil => rfl
  | cons hitem _ ih => rw [List.mapM_cons, List.mapM_cons, hitem, ih]

/-- A keyword reads what is given under it. -/
theorem readKeyword_eq (entries : Mapping) (keyword : Keyword) :
    readKeyword entries keyword =
      match Value.given? (entries.lookup? keyword.text) with
      | none => .ok keyword.absent
      | some value => keyword.readValue keyword.text value := by
  unfold readKeyword
  cases entries.lookup? keyword.text with
  | none => rfl
  | some value => cases value <;> rfl

/-- Where related values are read alike, a keyword reads the same in two maps. -/
theorem readKeyword_eq_of_rel {entries entries' : Mapping} {keyword : Keyword}
    {related : Value → Value → Prop}
    (h : Option.Rel related (Value.given? (entries.lookup? keyword.text))
      (Value.given? (entries'.lookup? keyword.text)))
    (hread : ∀ value value', related value value' →
      keyword.readValue keyword.text value = keyword.readValue keyword.text value') :
    readKeyword entries keyword = readKeyword entries' keyword := by
  rw [readKeyword_eq, readKeyword_eq]
  rcases none_or_some_of_rel h with ⟨hnone, hnone'⟩ | ⟨value, value', hfound, hfound', hrelated⟩
  · rw [hnone, hnone']
  · rw [hfound, hfound']
    exact hread value value' hrelated

/-- If the value is a map, no two of its keys are equal up to case. -/
def Value.HasDistinctKeys : Value → Prop
  | .map entries => Mapping.CaselessDistinct entries
  | _ => True

instance (value : Value) : Decidable value.HasDistinctKeys :=
  match value with
  | .map entries => inferInstanceAs (Decidable (Mapping.CaselessDistinct entries))
  | .null | .boolean _ | .number _ | .text _ | .list _ => inferInstanceAs (Decidable True)

namespace Compile

variable {settings : Settings} {context : Context} {file : SourceFile} {name key : String}
  {body body' declared declared' entries entries' : Mapping} {value value' : Value}

/-- A reference is read from what is given under its keyword. -/
theorem taskReference_eq (name : String) (body : Mapping) :
    taskReference name body =
      match Value.given? (body.lookup? Keyword.invoke.text) with
      | some (.map [(reference, _)]) => .ok reference
      | _ => .error (.noReferenceInformation name) := by
  unfold taskReference
  cases body.lookup? Keyword.invoke.text with
  | none => rfl
  | some value => cases value <;> rfl

/-- A map that must be filled is read from what is given under its key. -/
theorem filledMap_eq (key : String) (missing : Fault) (body : Mapping) :
    filledMap key missing body =
      match Value.given? (body.lookup? key) with
      | some (.map (entry :: entries)) => .ok (entry :: entries)
      | some (.list _) => .error (.expectedMap key)
      | _ => .error missing := by
  unfold filledMap
  cases body.lookup? key with
  | none => rfl
  | some value => cases value <;> rfl

/-- The branch for failures is read from what is given under its key. -/
theorem failureEntries_eq (declared : Mapping) :
    failureEntries declared =
      match Value.given? (declared.get? onFailureKey) with
      | none => .ok []
      | some value => value.asBody onFailureKey := by
  unfold failureEntries
  cases declared.get? onFailureKey with
  | none => rfl
  | some value => cases value <;> rfl

/-- A map and its edited form, which is empty only if the map is. -/
structure Revises (edit : Edit) (changes : String → Value → Value → Prop)
    (entries entries' : Mapping) : Prop where
  /-- The map is edited. -/
  edited : Edited edit changes entries entries'
  /-- An entry remains. -/
  remains : entries ≠ [] → entries' ≠ []

/-- Both forms are empty or neither is. -/
theorem Revises.isEmpty_eq {edit : Edit} {changes : String → Value → Value → Prop}
    (h : Revises edit changes entries entries') : entries.isEmpty = entries'.isEmpty := by
  cases entries with
  | nil =>
    cases h.edited
    rfl
  | cons entry rest =>
    have hremains : entries' ≠ [] := h.remains (List.cons_ne_nil entry rest)
    rw [List.isEmpty_eq_false_iff.mpr hremains]
    rfl

/-- How the maps of an executable may be edited, place by place. -/
structure Revision where
  /-- The edit of the body of the executable. -/
  own : Edit
  /-- The edit of the action. -/
  action : Edit
  /-- The edit of the map of all tasks. -/
  workflow : Edit
  /-- The edit of the body of each task. -/
  task : Edit
  /-- What may become of an item that declares an input or gives an argument. -/
  input : Value → Value → Prop

namespace Revision

variable (revision : Revision)

/-- What may become of a value in the body of a task: it stays, or the arguments of the invocation
are revised item by item. -/
inductive TaskPart : String → Value → Value → Prop
  | same (key : String) (value : Value) : TaskPart key value value
  | arguments {key : String} (hkey : caselessEq key Keyword.invoke.text = true)
      (reference : String) {items items' : List Value}
      (hitems : List.Forall₂ revision.input items items') :
      TaskPart key (.map [(reference, .list items)]) (.map [(reference, .list items')])

/-- What may become of a task: it stays, or its body is revised. -/
inductive TaskRevised : Value → Value → Prop
  | same (value : Value) : TaskRevised value value
  | body {entries entries' : Mapping}
      (hbody : Revises revision.task revision.TaskPart entries entries') :
      TaskRevised (.map entries) (.map entries')

/-- What may become of the branch for failures: it stays, or its tasks are revised. -/
inductive BranchRevised : Value → Value → Prop
  | same (value : Value) : BranchRevised value value
  | tasks {entries entries' : Mapping}
      (htasks : Edited .keepAll (fun _ => revision.TaskRevised) entries entries') :
      BranchRevised (.map entries) (.map entries')

/-- What may become of a value among the tasks of a flow. -/
def FlowPart (key : String) (value value' : Value) : Prop :=
  if key = onFailureKey then revision.BranchRevised value value'
  else revision.TaskRevised value value'

/-- What may become of a value in the body of an executable: it stays, or the inputs, the action or
the tasks are revised. -/
inductive Part : String → Value → Value → Prop
  | same (key : String) (value : Value) : Part key value value
  | inputs {key : String} (hkey : caselessEq key Keyword.inputs.text = true)
      {items items' : List Value} (hitems : List.Forall₂ revision.input items items') :
      Part key (.list items) (.list items')
  | action {key : String} (hkey : caselessEq key actionKey = true) {declared declared' : Mapping}
      (haction :
        Revises revision.action (fun _ value value' => value = value') declared declared') :
      Part key (.map declared) (.map declared')
  | workflow {key : String} (hkey : caselessEq key workflowKey = true)
      {declared declared' : Mapping}
      (htasks : Revises revision.workflow revision.FlowPart declared declared') :
      Part key (.map declared) (.map declared')

/-- The body of an executable and its revised form. -/
def Revised (body body' : Mapping) : Prop := Revises revision.own revision.Part body body'

end Revision

/-- The names that compilation looks up in the body of an executable: those of inputs, outputs and
results, and that of the tasks in a file of a flow or that of the action in a file of operations. -/
def partNames (kind : FileKind) : List String :=
  executableKeywords.map Keyword.text ++
    match kind with
    | .flow => [workflowKey]
    | .operations => [actionKey]
    | .other _ => []

namespace Revision

variable (revision : Revision)

/-- A revised item declares the same input. -/
def KeepsInputs : Prop :=
  ∀ key item item', revision.input item item' → Entry.readInput key item = Entry.readInput key item'

/-- In the map of all tasks every name keeps its case, and nothing is left out but a branch for
failures that is null. -/
def KeepsTasks : Prop :=
  (∀ key, ¬revision.workflow.respells key) ∧
    ∀ entry, revision.workflow.leavesOut entry → entry.1 = onFailureKey ∧ entry.2.isNull = true

/-- The edit of the body of a task is not noticed. -/
def TaskUnnoticed (context : Context) (value : Value) : Prop :=
  ∀ body : Mapping, value = .map body →
    revision.task.Unnoticed (legalKeys taskKeywords context.taskKeys)
      (taskKeywords.map Keyword.text) body

/-- Compilation does not notice a revision of the body of an executable. -/
structure Unnoticed (settings : Settings) (file : SourceFile) (body : Mapping) : Prop where
  /-- The same inputs are declared. -/
  input : revision.KeepsInputs
  /-- The edit of the body is not noticed. -/
  own : revision.own.Unnoticed (legalKeys executableKeywords (executableKeys settings))
    (partNames file.kind) body
  /-- The edit of the action is not noticed. -/
  action : ∀ declared : Mapping, body.lookup? actionKey = some (.map declared) →
    revision.action.Unnoticed (legalKeys (Registry.standard.inScope .action) [])
      ((Registry.standard.inScope .action).map Keyword.text) declared
  /-- The tasks stay, up to what is in them. -/
  workflow : revision.KeepsTasks
  /-- The edits of the bodies of tasks are not noticed. -/
  task : ∀ declared : Mapping, body.lookup? workflowKey = some (.map declared) →
    ∀ entry ∈ mainEntries declared ++ handlerEntries declared,
      revision.TaskUnnoticed ⟨settings, file.imports⟩ entry.2

end Revision

section

variable {revision : Revision}

/-- A value in the body of a task stays null or stays something else. -/
theorem Revision.TaskPart.isNull_eq (h : revision.TaskPart key value value') :
    value.isNull = value'.isNull := by
  cases h <;> rfl

/-- A task stays null or stays something else. -/
theorem Revision.TaskRevised.isNull_eq (h : revision.TaskRevised value value') :
    value.isNull = value'.isNull := by
  cases h <;> rfl

/-- A branch for failures stays null or stays something else. -/
theorem Revision.BranchRevised.isNull_eq (h : revision.BranchRevised value value') :
    value.isNull = value'.isNull := by
  cases h <;> rfl

/-- A value among the tasks stays null or stays something else. -/
theorem Revision.FlowPart.isNull_eq (h : revision.FlowPart key value value') :
    value.isNull = value'.isNull := by
  unfold FlowPart at h
  split at h
  · exact h.isNull_eq
  · exact h.isNull_eq

/-- A value in the body of an executable stays null or stays something else. -/
theorem Revision.Part.isNull_eq (h : revision.Part key value value') :
    value.isNull = value'.isNull := by
  cases h <;> rfl

/-- A keyword of a task reads the same from a revised value. -/
theorem readValue_eq_of_taskPart
    (hinput : revision.KeepsInputs) {keyword : Keyword} (hkey : caselessEq key keyword.text = true)
    (h : revision.TaskPart key value value') :
    keyword.readValue keyword.text value = keyword.readValue keyword.text value' := by
  cases h with
  | same => rfl
  | @arguments hinvoke reference items items' hitems =>
    obtain rfl : keyword = .invoke := Keyword.eq_of_caselessEq hkey hinvoke
    have harguments : Keyword.readArguments reference (.list items) =
        Keyword.readArguments reference (.list items') :=
      mapM_eq_of_forall₂ (hitems.imp fun item item' => hinput reference item item')
    change Keyword.readInvocation [(reference, .list items)] =
      Keyword.readInvocation [(reference, .list items')]
    rw [Keyword.readInvocation, Keyword.readInvocation, harguments]

/-- Compilation sees the same in the revised body of a task. -/
theorem bodiesAgree_of_revises
    (hinput : revision.KeepsInputs)
    (hedit : revision.task.Unnoticed (legalKeys taskKeywords context.taskKeys)
      (taskKeywords.map Keyword.text) body)
    (h : Revises revision.task revision.TaskPart body body') :
    BodiesAgree .exact context context name body body' := by
  have hgiven : ∀ keyword ∈ taskKeywords,
      Option.Rel (fun value value' => ∃ key, caselessEq key keyword.text = true ∧
          revision.TaskPart key value value')
        (Value.given? (body.lookup? keyword.text)) (Value.given? (body'.lookup? keyword.text)) :=
    fun keyword hkeyword => h.edited.given?_lookup?_rel
      (fun key value value' hpart => hpart.isNull_eq) hedit (List.mem_map_of_mem hkeyword)
  refine ⟨h.isEmpty_eq, h.edited.checkKeys_eq hedit.toTouchesLegal, fun keyword hkeyword => ?_, ?_⟩
  · apply readKeyword_eq_of_rel (hgiven keyword hkeyword)
    rintro value value' ⟨key, hkey, hpart⟩
    exact readValue_eq_of_taskPart hinput hkey hpart
  · rw [taskReference_eq, taskReference_eq]
    rcases none_or_some_of_rel (hgiven .invoke (by decide)) with
      ⟨hnone, hnone'⟩ | ⟨value, value', hfound, hfound', key, _, hpart⟩
    · rw [hnone, hnone']
    · rw [hfound, hfound']
      cases hpart <;> rfl

/-- Compilation sees the same in a revised task. -/
theorem entriesAgree_of_taskRevised {entry entry' : String × Value}
    (hinput : revision.KeepsInputs)
    (hedit : revision.TaskUnnoticed context entry.2)
    (h : entry.1 = entry'.1 ∧ revision.TaskRevised entry.2 entry'.2) :
    EntriesAgree .exact context context entry entry' := by
  obtain ⟨name, value⟩ := entry
  obtain ⟨name', value'⟩ := entry'
  obtain ⟨rfl, hvalue⟩ := h
  cases hvalue with
  | same => exact EntriesAgree.refl _ _ _
  | body hbody => exact ⟨rfl, .given (bodiesAgree_of_revises hinput (hedit _ rfl) hbody)⟩

/-- Compilation sees the same in revised tasks. -/
theorem forall₂_entriesAgree_of_taskRevised
    (hinput : revision.KeepsInputs)
    (hedit : ∀ entry ∈ entries, revision.TaskUnnoticed context entry.2)
    (h : List.Forall₂ (fun entry entry' => entry.1 = entry'.1 ∧
      revision.TaskRevised entry.2 entry'.2) entries entries') :
    List.Forall₂ (EntriesAgree .exact context context) entries entries' :=
  ((List.forall₂_and_left _ _).mpr ⟨hedit, h⟩).imp fun _ _ ⟨hentry, hrevised⟩ =>
    entriesAgree_of_taskRevised hinput hentry hrevised

/-- The main tasks are revised one by one. -/
theorem forall₂_mainEntries (hworkflow : revision.KeepsTasks)
    (h : Edited revision.workflow revision.FlowPart declared declared') :
    List.Forall₂ (fun entry entry' => entry.1 = entry'.1 ∧
      revision.TaskRevised entry.2 entry'.2) (mainEntries declared) (mainEntries declared') := by
  unfold mainEntries
  induction h with
  | nil => exact .nil
  | @keep key key' value value' rest rest' hkey hvalue _ ih =>
    obtain rfl : key = key' := hkey.resolve_right fun hspelled => hworkflow.1 key hspelled.1
    by_cases hbranch : key = onFailureKey
    · rw [List.filter_cons_of_neg (by simpa using hbranch),
        List.filter_cons_of_neg (by simpa using hbranch)]
      exact ih
    · rw [Revision.FlowPart, if_neg hbranch] at hvalue
      rw [List.filter_cons_of_pos (by simpa using hbranch),
        List.filter_cons_of_pos (by simpa using hbranch)]
      exact .cons ⟨rfl, hvalue⟩ ih
  | @leaveOut entry rest rest' hentry _ _ ih =>
    rw [List.filter_cons_of_neg (by simpa using (hworkflow.2 entry hentry).1)]
    exact ih

/-- What handles failures stands in the map that is given under its key. -/
theorem handlerEntries_of_given
    (h : Value.given? (declared.get? onFailureKey) = some (.map entries)) :
    handlerEntries declared = entries := by
  rw [handlerEntries, Value.eq_of_given?_eq_some h]

/-- Compilation sees the same in the revised branch for failures. -/
theorem endAlike_failureEntries_of_edited
    (hinput : revision.KeepsInputs)
    (hworkflow : revision.KeepsTasks)
    (hedit : ∀ entry ∈ handlerEntries declared, revision.TaskUnnoticed context entry.2)
    (h : Edited revision.workflow revision.FlowPart declared declared') :
    EndAlike (List.Forall₂ (EntriesAgree .exact context context)) (failureEntries declared)
      (failureEntries declared') := by
  have hrel := h.given?_get?_rel (fun key value value' hpart => hpart.isNull_eq) hworkflow.1
    (fun entry hentry => (hworkflow.2 entry hentry).2) onFailureKey
  rw [failureEntries_eq, failureEntries_eq]
  rcases none_or_some_of_rel hrel with ⟨hnone, hnone'⟩ | ⟨value, value', hfound, hfound', hpart⟩
  · rw [hnone, hnone']
    exact .given .nil
  · rw [hfound, hfound']
    rw [Revision.FlowPart, if_pos rfl] at hpart
    cases hpart with
    | same =>
      exact EndAlike.refl (fun _ => List.forall₂_same.mpr fun _ _ => EntriesAgree.refl _ _ _) _
    | tasks htasks =>
      rw [handlerEntries_of_given hfound] at hedit
      exact .given (forall₂_entriesAgree_of_taskRevised hinput hedit htasks.forall₂_of_keepAll)

/-- Compilation sees the same in a revised action. -/
theorem actionsAgree_of_revises
    (hedit : revision.action.Unnoticed (legalKeys (Registry.standard.inScope .action) [])
      ((Registry.standard.inScope .action).map Keyword.text) declared)
    (h : Revises revision.action (fun _ value value' => value = value') declared declared') :
    ActionsAgree .exact declared declared' := by
  refine ⟨h.edited.checkKeys_eq hedit.toTouchesLegal, fun keyword hkeyword => ?_⟩
  have hgiven := h.edited.given?_lookup?_rel
    (fun key value value' hsame => congrArg Value.isNull hsame) hedit
    (List.mem_map_of_mem hkeyword)
  apply readKeyword_eq_of_rel hgiven
  rintro value _ ⟨key, _, rfl⟩
  rfl

/-- Maps that must be filled are read alike if what is given under their key agrees. -/
theorem endAlike_filledMap_of_rel {related : Mapping → Mapping → Prop}
    {changes : Value → Value → Prop} {missing : Fault}
    (hrefl : ∀ entries, related entries entries)
    (h : Option.Rel changes (Value.given? (body.lookup? key)) (Value.given? (body'.lookup? key)))
    (hmaps : ∀ value value', body.lookup? key = some value → changes value value' →
      MapsAgree related (some value) (some value')) :
    EndAlike related (filledMap key missing body) (filledMap key missing body') := by
  rcases none_or_some_of_rel h with ⟨hnone, hnone'⟩ | ⟨value, value', hfound, hfound', hchange⟩
  · rw [filledMap_eq, filledMap_eq, hnone, hnone']
    exact .refused missing
  · have hlookup := Value.eq_of_given?_eq_some hfound
    apply endAlike_filledMap hrefl
    rw [hlookup, Value.eq_of_given?_eq_some hfound']
    exact hmaps value value' hlookup hchange

/-- A keyword of an executable reads the same from a revised value. -/
theorem readValue_eq_of_part (hinput : revision.KeepsInputs) {keyword : Keyword}
    (hkeyword : keyword ∈ executableKeywords) (hkey : caselessEq key keyword.text = true)
    (h : revision.Part key value value') :
    keyword.readValue keyword.text value = keyword.readValue keyword.text value' := by
  have hother := (by decide : ∀ keyword ∈ executableKeywords,
    caselessEq actionKey keyword.text = false ∧ caselessEq workflowKey keyword.text = false)
  obtain ⟨haction, hworkflow⟩ := hother keyword hkeyword
  cases h with
  | same => rfl
  | @inputs hinputs items items' hitems =>
    obtain rfl : keyword = .inputs := Keyword.eq_of_caselessEq hkey hinputs
    have hread : items.mapM (Entry.readInput Keyword.inputs.text) =
        items'.mapM (Entry.readInput Keyword.inputs.text) :=
      mapM_eq_of_forall₂ (hitems.imp fun item item' => hinput _ item item')
    have hlist : ∀ found : List Value, Keyword.inputs.readValue Keyword.inputs.text (.list found) =
        (found.mapM (Entry.readInput Keyword.inputs.text) >>= fun inputs =>
          .ok (some (.inputs inputs))) := fun _ => rfl
    rw [hlist, hlist, hread]
  | action hown =>
    rw [caselessEq_of_both hown hkey] at haction
    cases haction
  | workflow hown =>
    rw [caselessEq_of_both hown hkey] at hworkflow
    cases hworkflow

/-- Compilation sees the same in the tasks that stand under their key. -/
theorem mapsAgree_of_part_workflow (hrevision : revision.Unnoticed settings file body)
    (hlookup : body.lookup? workflowKey = some value) (hkey : caselessEq key workflowKey = true)
    (h : revision.Part key value value') :
    MapsAgree (TasksAgree .exact ⟨settings, file.imports⟩ ⟨settings, file.imports⟩) (some value)
      (some value') := by
  cases h with
  | same => exact .same _
  | inputs hown => exact absurd (caselessEq_of_both hown hkey) (by decide)
  | action hown => exact absurd (caselessEq_of_both hown hkey) (by decide)
  | workflow _ htasks =>
    have hedit := hrevision.task _ hlookup
    refine .maps htasks.isEmpty_eq ⟨?_, ?_⟩
    · exact forall₂_entriesAgree_of_taskRevised hrevision.input
        (fun entry hentry => hedit entry (List.mem_append_left _ hentry))
        (forall₂_mainEntries hrevision.workflow htasks.edited)
    · exact endAlike_failureEntries_of_edited hrevision.input hrevision.workflow
        (fun entry hentry => hedit entry (List.mem_append_right _ hentry)) htasks.edited

/-- Compilation sees the same in the action that stands under its key. -/
theorem mapsAgree_of_part_action (hrevision : revision.Unnoticed settings file body)
    (hlookup : body.lookup? actionKey = some value) (hkey : caselessEq key actionKey = true)
    (h : revision.Part key value value') :
    MapsAgree (ActionsAgree .exact) (some value) (some value') := by
  cases h with
  | same => exact .same _
  | inputs hown => exact absurd (caselessEq_of_both hown hkey) (by decide)
  | action _ haction =>
    exact .maps haction.isEmpty_eq (actionsAgree_of_revises (hrevision.action _ hlookup) haction)
  | workflow hown => exact absurd (caselessEq_of_both hown hkey) (by decide)

/-- An executable is compiled to the same result or fault after a revision that compilation does not
notice. -/
theorem executable_eq_of_revised (hrevision : revision.Unnoticed settings file body)
    (h : revision.Revised body body') :
    executable settings file name body = executable settings file name body' := by
  have hgiven : ∀ found ∈ partNames file.kind,
      Option.Rel (fun value value' => ∃ key, caselessEq key found = true ∧
          revision.Part key value value')
        (Value.given? (body.lookup? found)) (Value.given? (body'.lookup? found)) :=
    fun found hfound => h.edited.given?_lookup?_rel
      (fun key value value' hpart => hpart.isNull_eq) hrevision.own hfound
  have hagree : ExecutablesAgree .exact settings settings file name body body' := {
    isEmpty_eq := h.isEmpty_eq
    policy_eq := rfl
    keys := h.edited.checkKeys_eq hrevision.own.toTouchesLegal
    read := by
      intro keyword hkeyword
      have hname : keyword.text ∈ partNames file.kind :=
        List.mem_append_left _ (List.mem_map_of_mem hkeyword)
      apply readKeyword_eq_of_rel (hgiven keyword.text hname)
      rintro value value' ⟨key, hkey, hpart⟩
      exact readValue_eq_of_part hrevision.input hkeyword hkey hpart
    tasks := by
      intro hkind
      have hname : workflowKey ∈ partNames file.kind := by simp [partNames, hkind]
      apply endAlike_filledMap_of_rel (TasksAgree.refl _ _) (hgiven workflowKey hname)
      rintro value value' hlookup ⟨key, hkey, hpart⟩
      exact mapsAgree_of_part_workflow hrevision hlookup hkey hpart
    action := by
      intro hkind
      have hname : actionKey ∈ partNames file.kind := by simp [partNames, hkind]
      apply endAlike_filledMap_of_rel (ActionsAgree.refl _) (hgiven actionKey hname)
      rintro value value' hlookup ⟨key, hkey, hpart⟩
      exact mapsAgree_of_part_action hrevision hlookup hkey hpart }
  exact rel_executable hagree

/-- Where no two keys of a map are equal up to case, compilation does not notice a revision by
harmless edits. -/
theorem Revision.unnoticed_of_distinctKeys (hdistinct : DistinctKeys body)
    (hinput : revision.KeepsInputs)
    (hown : revision.own.Harmless (legalKeys executableKeywords (executableKeys settings)))
    (haction : revision.action.Harmless (legalKeys (Registry.standard.inScope .action) []))
    (hworkflow : revision.KeepsTasks)
    (htask : revision.task.Harmless
      (legalKeys taskKeywords (Context.taskKeys ⟨settings, file.imports⟩))) :
    revision.Unnoticed settings file body where
  input := hinput
  own := hown.unnoticed hdistinct.own _
  action declared hdeclared := haction.unnoticed (hdistinct.action declared hdeclared) _
  workflow := hworkflow
  task := by
    intro declared hdeclared entry hentry taskBody hbody
    have hkeys : taskBody.CaselessDistinct := by
      rcases List.mem_append.mp hentry with hmain | hhandler
      · exact hdistinct.main declared hdeclared entry hmain taskBody hbody
      · exact hdistinct.branch declared hdeclared entry hhandler taskBody hbody
    exact htask.unnoticed hkeys _

/-- The keys of a flow without an action are distinct if those of its body and of its tasks are. -/
theorem distinctKeys_of_flow (hown : body.CaselessDistinct)
    (haction : body.lookup? actionKey = none)
    (hworkflow : body.lookup? workflowKey = some (.map declared))
    (htasks : ∀ entry ∈ mainEntries declared ++ handlerEntries declared,
      entry.2.HasDistinctKeys) : DistinctKeys body := by
  have hdeclared : ∀ found : Mapping, body.lookup? workflowKey = some (.map found) →
      found = declared := by
    intro found hfound
    rw [hworkflow] at hfound
    exact (Value.map.inj (Option.some.inj hfound)).symm
  have hbody : ∀ entry ∈ mainEntries declared ++ handlerEntries declared, ∀ taskBody : Mapping,
      entry.2 = .map taskBody → taskBody.CaselessDistinct := by
    intro entry hentry taskBody hvalue
    have hkeys := htasks entry hentry
    rwa [hvalue] at hkeys
  refine ⟨hown, fun found hfound => ?_, fun found hfound => ?_, fun found hfound => ?_⟩
  · rw [haction] at hfound
    cases hfound
  · obtain rfl := hdeclared found hfound
    exact fun entry hentry => hbody entry (List.mem_append_left _ hentry)
  · obtain rfl := hdeclared found hfound
    exact fun entry hentry => hbody entry (List.mem_append_right _ hentry)

end

end Compile

end Taskflow
