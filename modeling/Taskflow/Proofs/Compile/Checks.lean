import Taskflow.Proofs.Compile.Accepted

/-!
# The checks of an executable

What an executable must satisfy, as one list of checks in a fixed order. Each check looks at the
body on its own and reports one fault. The main statement says that an executable is accepted
exactly if all checks pass, and that otherwise the first one that fails gives the fault.
-/

namespace Taskflow.Checks

open Text

/-- The entries of a map; anything else has none. -/
def entriesOf : Option Value → Mapping
  | some (.map entries) => entries
  | _ => []

/-- There must be an entry. -/
def filled (entries : Mapping) (fault : Fault) : Option Fault :=
  if entries.isEmpty then some fault else none

/-- A map with entries must stand under a key. A list there has a fault of its own. -/
def filledMap (key : String) (missing : Fault) : Option Value → Option Fault
  | some (.map (_ :: _)) => none
  | some (.list _) => some (.expectedMap key)
  | _ => some missing

/-- A map must stand under a key, or nothing, or null. -/
def optionalMap (key : String) : Option Value → Option Fault
  | none | some .null | some (.map _) => none
  | some (.list _) => some (.expectedMap key)
  | some other => some (.shapeMismatch key .mapping other.shape)

/-- The lower-case form of every key must be legal. -/
def keys (legal : List String) (context : String) (entries : Mapping) : List (Option Fault) :=
  entries.keys.map fun key =>
    if lowerCase key ∈ legal then none else some (.unknownKeyword key context)

/-- The value under each keyword must be one that the keyword can read. -/
def values (keywords : List Keyword) (entries : Mapping) : List (Option Fault) :=
  keywords.map fun keyword => faultOf (readKeyword entries keyword)

/-- A task must invoke one reference. -/
def invoked (name : String) : Option Value → Option Fault
  | some (.map [_]) => none
  | _ => some (.noReferenceInformation name)

/-- The reference that a task invokes must resolve, unless it may be kept as it is. -/
def resolved (context : Compile.Context) : Option Value → Option Fault
  | some (.map [(reference, _)]) =>
    match context.settings.referencePolicy with
    | .strict => faultOf (Reference.resolve reference context.imports)
    | .lenient => none
  | _ => none

/-- The keys that may stand in a task, in lower case. -/
def taskKeys (settings : Settings) : List String :=
  ["do", "loop", "parallel_loop", "publish", "navigate", "aggregate", "break"] ++
    settings.extraTaskKeywords.map lowerCase

/-- The checks of one task. -/
def ofTask (context : Compile.Context) : String × Value → List (Option Fault)
  | (name, value) =>
    let body := entriesOf (some value)
    optionalMap name (some value) :: filled body (.taskHasNoData name) ::
      (keys (taskKeys context.settings) name body ++
        (values [.invoke, .loop, .parallelLoop, .publish, .navigate, .aggregate, .breakOn] body ++
          [invoked name (body.lookup? "do"), resolved context (body.lookup? "do")]))

/-- The checks of a flow: of the tasks of its branch for failures, and then of its main tasks. -/
def ofFlow (context : Compile.Context) (name : String) (body : Mapping) : List (Option Fault) :=
  let declared := entriesOf (body.lookup? "workflow")
  let onFailure := declared.get? "on_failure"
  let main := declared.filter fun entry => entry.1 != "on_failure"
  filledMap "workflow" (.noWorkflowData name) (body.lookup? "workflow") ::
    optionalMap "on_failure" onFailure ::
      ((entriesOf onFailure).flatMap (ofTask context) ++
        (filled main .noTasks :: main.flatMap (ofTask context)))

/-- The checks of an operation. -/
def ofOperation (name : String) (body : Mapping) : List (Option Fault) :=
  let declared := entriesOf (body.lookup? "action")
  filledMap "action" (.noActionData name) (body.lookup? "action") ::
    (keys ["java_action", "python_script"] "action data" declared ++
      values [.javaAction, .pythonAction] declared)

/-- The keys that may stand in an executable, in lower case. -/
def executableKeys (settings : Settings) : List String :=
  ["inputs", "outputs", "results", "action", "workflow", "name"] ++
    settings.extraExecutableKeywords.map lowerCase

/-- The checks of what an executable runs. -/
def ofContent (settings : Settings) (file : SourceFile) (name : String) (body : Mapping) :
    List (Option Fault) :=
  match file.kind with
  | .flow => ofFlow ⟨settings, file.imports⟩ name body
  | .operations => ofOperation name body
  | .other _ => [some (.unsupportedFileKind file.fileName)]

/-- The checks of an executable. -/
def ofExecutable (settings : Settings) (file : SourceFile) (name : String) (body : Mapping) :
    List (Option Fault) :=
  filled body (.emptyExecutable name) ::
    (keys (executableKeys settings) name body ++
      (values [.inputs, .outputs, .results] body ++ ofContent settings file name body))

variable {settings : Settings} {context : Compile.Context} {name target : String}
  {body entries : Mapping} {next : Option String}

/-- Checking keys fails with the first key that is not legal. -/
theorem describedBy_checkKeys (legal : List Keyword) (reserved : List String) (place : String)
    (entries : Mapping) :
    DescribedBy (checkKeys entries legal reserved place)
      (keys (legalKeys legal reserved) place entries) := by
  unfold DescribedBy firstFault keys checkKeys
  rw [List.findSome?_map]
  induction entries.keys with
  | nil => rfl
  | cons key rest ih =>
    by_cases hlegal : lowerCase key ∈ legalKeys legal reserved
    · simpa [hlegal] using ih
    · simp [hlegal, faultOf]

/-- Only which keys are legal matters, not in which order they are listed. -/
theorem keys_congr {legal legal' : List String} (h : ∀ key, key ∈ legal ↔ key ∈ legal')
    (place : String) (entries : Mapping) :
    keys legal place entries = keys legal' place entries := by
  simp only [keys, h]

/-- A body is read from null or a map. -/
theorem describedBy_asBody (name : String) (value : Value) :
    DescribedBy (value.asBody name) [optionalMap name (some value)] := by
  cases value <;> rfl

/-- A body that was read holds the entries of the value. -/
theorem eq_entriesOf_of_asBody {value : Value} (h : value.asBody name = .ok body) :
    body = entriesOf (some value) := by
  rcases Value.asBody_eq_ok_iff.mp h with rfl | ⟨rfl, rfl⟩
  · rfl
  · rfl

/-- The keys of a task, with those that are both keywords and reserved listed once. -/
theorem mem_legalKeys_task {key : String} :
    key ∈ legalKeys Compile.taskKeywords context.taskKeys ↔ key ∈ taskKeys context.settings := by
  have hkeywords : Compile.taskKeywords.map Keyword.text =
      ["do", "loop", "parallel_loop", "publish", "navigate", "aggregate", "break"] := by rfl
  have hreserved : context.taskKeys.map lowerCase =
      "do" :: "navigate" :: context.settings.extraTaskKeywords.map lowerCase := by rfl
  rw [legalKeys, hkeywords, hreserved, taskKeys, List.mem_append, List.mem_append]
  constructor
  · intro h
    rcases h with h | h
    · exact .inl h
    · rcases List.mem_cons.mp h with rfl | h
      · exact .inl (by simp)
      · rcases List.mem_cons.mp h with rfl | h
        · exact .inl (by simp)
        · exact .inr h
  · intro h
    rcases h with h | h
    · exact .inl h
    · exact .inr (List.mem_cons_of_mem _ (List.mem_cons_of_mem _ h))

/-- The reference of a task is the only key under its keyword. -/
theorem describedBy_taskReference (name : String) (body : Mapping) :
    DescribedBy (Compile.taskReference name body) [invoked name (body.lookup? "do")] := by
  have htext : Keyword.invoke.text = "do" := by rfl
  unfold Compile.taskReference
  rw [htext]
  cases body.lookup? "do" with
  | none => rfl
  | some value =>
    cases value with
    | map entries =>
      match entries with
      | [] | [_] | _ :: _ :: _ => rfl
    | _ => rfl

/-- The reference of a task is resolved under the policy of the settings. -/
theorem describedBy_resolveWith {reference : String}
    (h : Compile.taskReference name body = .ok reference) :
    DescribedBy
      (Reference.resolveWith context.settings.referencePolicy reference context.imports)
      [resolved context (body.lookup? "do")] := by
  obtain ⟨arguments, hlookup⟩ := Compile.lookup?_of_taskReference_eq_ok h
  have htext : Keyword.invoke.text = "do" := by rfl
  rw [← htext, hlookup]
  unfold resolved
  cases context.settings.referencePolicy with
  | strict =>
    rw [Reference.resolveWith_strict]
    exact DescribedBy.own _
  | lenient =>
    rw [Reference.resolveWith_lenient]
    rfl

/-- Compiling a task fails with the fault of its first check that fails, whichever task is next
and wherever its failures lead. -/
theorem describedBy_task (context : Compile.Context) (name : String) (value : Value)
    (next : Option String) (target : String) :
    DescribedBy (value.asBody name >>= fun body => Compile.task context name body next target)
      (ofTask context (name, value)) := by
  refine (describedBy_asBody name value).bind fun body hbody => ?_
  -- From here on the body is what the other checks look at, the entries of the value.
  obtain rfl := eq_entriesOf_of_asBody hbody
  refine DescribedBy.guarded fun _ => ?_
  have hkeys := describedBy_checkKeys Compile.taskKeywords context.taskKeys name
    (entriesOf (some value))
  rw [keys_congr (fun _ => mem_legalKeys_task)] at hkeys
  refine hkeys.bind fun _ _ => ?_
  have hbefore := describedBy_readBindings (entriesOf (some value))
    (Registry.standard.inScope .beforeTask)
  have hafter := describedBy_readBindings (entriesOf (some value))
    (Registry.standard.inScope .afterTask)
  refine hbefore.bind fun before _ => hafter.bind fun after _ => ?_
  refine (describedBy_taskReference name _).bind fun reference hreference => ?_
  exact (describedBy_resolveWith hreference).map _

/-- Compiling tasks fails with the first check that fails in any of them. -/
theorem describedBy_tasks (context : Compile.Context) (target : String) (entries : Mapping) :
    DescribedBy (Compile.tasks context target entries) (entries.flatMap (ofTask context)) := by
  induction entries with
  | nil => exact DescribedBy.ok []
  | cons entry rest ih =>
    obtain ⟨name, value⟩ := entry
    have hfirst := describedBy_task context name value (rest.head?.map Prod.fst) target
    have hboth := hfirst.bind fun first _ => ih.map (first :: ·)
    -- The checks take the body and its task together, the run one after the other.
    rw [bind_assoc] at hboth
    exact hboth

/-- A map that must be filled is refused if a list, no map, or an empty map stands there. -/
theorem describedBy_filledMap (key : String) (missing : Fault) (body : Mapping) :
    DescribedBy (Compile.filledMap key missing body)
      [filledMap key missing (body.lookup? key)] := by
  unfold Compile.filledMap
  cases body.lookup? key with
  | none => rfl
  | some value =>
    cases value with
    | map entries => cases entries <;> rfl
    | _ => rfl

/-- What was read from a map that must be filled are the entries under its key. -/
theorem eq_entriesOf_of_filledMap {key : String} {missing : Fault}
    (h : Compile.filledMap key missing body = .ok entries) :
    entries = entriesOf (body.lookup? key) := by
  rw [Compile.lookup?_of_filledMap_eq_ok h]
  rfl

/-- The branch for failures is read from a map, from null, or from nothing. -/
theorem describedBy_failureEntries (declared : Mapping) :
    DescribedBy (Compile.failureEntries declared)
      [optionalMap "on_failure" (declared.get? "on_failure")] := by
  unfold Compile.failureEntries Compile.onFailureKey
  cases declared.get? "on_failure" with
  | none => rfl
  | some value => exact describedBy_asBody "on_failure" value

/-- A branch for failures that was read holds the entries under its key. -/
theorem eq_entriesOf_of_failureEntries {declared : Mapping}
    (h : Compile.failureEntries declared = .ok entries) :
    entries = entriesOf (declared.get? "on_failure") := by
  rw [Compile.eq_handlerEntries_of_failureEntries h]
  rfl

/-- Compiling the tasks of a flow fails with its first check that fails. -/
theorem describedBy_workflow (context : Compile.Context) (name : String) (body : Mapping) :
    DescribedBy (Compile.workflow context name body) (ofFlow context name body) := by
  refine (describedBy_filledMap _ _ body).bind fun declared hdeclared => ?_
  obtain rfl := eq_entriesOf_of_filledMap hdeclared
  refine (describedBy_failureEntries _).bind fun failures hfailures => ?_
  obtain rfl := eq_entriesOf_of_failureEntries hfailures
  -- Main tasks are checked behind the branch, whose first task only decides where they fail to.
  refine (describedBy_tasks context _ _).bind fun handlers _ => ?_
  have hmain : DescribedBy
      (Compile.mainTasks context (Compile.failureTarget handlers)
        (Compile.mainEntries (entriesOf (body.lookup? "workflow")))) _ :=
    DescribedBy.guarded fun _ => describedBy_tasks context _ _
  exact hmain.map _

/-- Compiling the action of an operation fails with its first check that fails. -/
theorem describedBy_action (name : String) (body : Mapping) :
    DescribedBy (Compile.action name body) (ofOperation name body) := by
  refine (describedBy_filledMap _ _ body).bind fun declared hdeclared => ?_
  obtain rfl := eq_entriesOf_of_filledMap hdeclared
  refine (describedBy_checkKeys _ [] _ _).bind fun _ _ => ?_
  exact describedBy_readBindings _ (Registry.standard.inScope .action)

/-- The signature of an executable is read from its inputs, its outputs and its results. -/
theorem describedBy_signature (namespaceName name : String) (body : Mapping) :
    DescribedBy (Compile.signature namespaceName name body)
      (values [.inputs, .outputs, .results] body) := by
  have hbefore := describedBy_readBindings body (Registry.standard.inScope .beforeExecutable)
  have hafter := describedBy_readBindings body (Registry.standard.inScope .afterExecutable)
  exact hbefore.bind fun before _ => hafter.map _

/-- What an executable runs is compiled by the kind of its file. -/
theorem describedBy_content (settings : Settings) (file : SourceFile) (name : String)
    (body : Mapping) (signature : Signature) :
    DescribedBy (Compile.content settings file name body signature)
      (ofContent settings file name body) := by
  unfold Compile.content ofContent
  cases file.kind with
  | flow => exact (describedBy_workflow _ name body).map _
  | operations => exact (describedBy_action name body).map _
  | other kind => rfl

/-- Compiling an executable fails with its first check that fails. -/
theorem describedBy_executable (settings : Settings) (file : SourceFile) (name : String)
    (body : Mapping) :
    DescribedBy (Compile.executable settings file name body)
      (ofExecutable settings file name body) := by
  refine DescribedBy.guarded fun _ => ?_
  refine (describedBy_checkKeys Compile.executableKeywords _ name body).bind fun _ _ => ?_
  refine (describedBy_signature file.namespaceName name body).bind fun signature _ => ?_
  exact describedBy_content settings file name body signature

end Taskflow.Checks

namespace Taskflow.Compile

/-- An executable is accepted exactly if all of its checks pass, and refused with a fault exactly
if the first check that fails reports that fault. -/
theorem executable_reports_first_failing_check (settings : Settings) (file : SourceFile)
    (name : String) (body : Mapping) :
    ((∃ compiled, executable settings file name body = .ok compiled) ↔
        ∀ check ∈ Checks.ofExecutable settings file name body, check = none) ∧
      ∀ fault, executable settings file name body = .error fault ↔
        ∃ passed rest,
          Checks.ofExecutable settings file name body = passed ++ some fault :: rest ∧
            ∀ check ∈ passed, check = none := by
  have hchecks := Checks.describedBy_executable settings file name body
  unfold DescribedBy at hchecks
  constructor
  · rw [← faultOf_eq_none_iff, hchecks]
    exact firstFault_eq_none_iff
  · intro fault
    rw [← faultOf_eq_some_iff, hchecks]
    exact firstFault_eq_some_iff

/-- A handler without data is reported before a main task in front of it that has none either. -/
example :
    faultOf (executable {} (.empty "release.sl" "user" .flow) "release"
      [("workflow", .map
        [("deploy", .null), ("on_failure", .map [("undo", .null)])])]) =
      some (.taskHasNoData "undo") := by decide +kernel

end Taskflow.Compile
