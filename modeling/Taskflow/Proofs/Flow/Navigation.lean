import Taskflow.Proofs.Compile.Accepted

/-!
# The navigation of compiled tasks

A task goes on where its own navigation says, if it gives one, and otherwise by default: to the
next entry of its sequence on success and to a target of failures that the whole sequence shares.
The main statement describes every task of an accepted flow by the entry that it comes from.
-/

namespace Taskflow.Compile

variable {context : Context} {name target : String} {body : Mapping} {next : Option String}

/-- The navigation that a task gives itself: a map with entries under the keyword, whatever the
case of its ASCII letters. -/
def ownNavigation? : Value → Option Mapping
  | .map body =>
    match Mapping.lookup? body Keyword.navigate.text with
    | some (.map (entry :: entries)) => some (entry :: entries)
    | _ => none
  | _ => none

/-- A navigation is made of the targets that a map writes down and of nothing else. -/
def IsMadeOf (navigation : Navigation) (written : Mapping) : Prop :=
  ∃ targets : List (String × String),
    written = targets.map (fun (result, target) => (result, .text target)) ∧
      navigation = Dict.ofList targets

/-- Only one navigation is made of what a map writes down. -/
theorem IsMadeOf.unique {navigation navigation' : Navigation} {written : Mapping}
    (h : IsMadeOf navigation written) (h' : IsMadeOf navigation' written) :
    navigation = navigation' := by
  obtain ⟨targets, htargets, rfl⟩ := h
  obtain ⟨targets', htargets', rfl⟩ := h'
  have hinjective : Function.Injective fun (pair : String × String) =>
      (pair.1, Value.text pair.2) := by
    rintro ⟨result, target⟩ ⟨result', target'⟩ heq
    simpa using heq
  rw [List.map_injective_iff.mpr hinjective (htargets.symm.trans htargets')]

/-- Where a task goes on: as it says itself, or else to one target on success and to another one
on failure. -/
def GoesOn (value : Value) (onSuccess onFailure : String) (navigation : Navigation) : Prop :=
  match ownNavigation? value with
  | some written => IsMadeOf navigation written
  | none => navigation.toList = [(failureResult, onFailure), (successResult, onSuccess)]

/-- Without a navigation of its own a task has a target for success and one for failure. -/
theorem GoesOn.get?_eq {value : Value} {onSuccess onFailure : String} {navigation : Navigation}
    (h : GoesOn value onSuccess onFailure navigation) (hown : ownNavigation? value = none) :
    navigation.get? successResult = some onSuccess ∧
      navigation.get? failureResult = some onFailure := by
  rw [GoesOn, hown] at h
  have hne : successResult ≠ failureResult := by decide
  constructor
  · rw [Dict.get?, h, Dict.find?, if_neg hne, Dict.find?, if_pos rfl]
  · rw [Dict.get?, h, Dict.find?, if_pos rfl]

/-- The default has exactly one target for success and one for failure. -/
theorem toList_defaultNavigation (next : Option String) (target : String) :
    (defaultNavigation next target).toList =
      [(failureResult, target), (successResult, next.getD successResult)] := rfl

/-- Targets that could be read are the texts in the map. -/
theorem eq_map_of_readTargets {key : String} {written : Mapping}
    {targets : List (String × String)} (h : written.mapM (Entry.readTarget key) = .ok targets) :
    written = targets.map fun (result, target) => (result, .text target) := by
  induction written generalizing targets with
  | nil =>
    obtain rfl : [] = targets := Except.ok.inj h
    rfl
  | cons entry rest ih =>
    obtain ⟨result, value⟩ := entry
    rw [List.mapM_cons] at h
    obtain ⟨first, hfirst, h⟩ := bind_eq_ok_iff.mp h
    obtain ⟨others, hothers, h⟩ := bind_eq_ok_iff.mp h
    obtain rfl : first :: others = targets := Except.ok.inj h
    cases value with
    | text target =>
      obtain rfl : (result, target) = first := Except.ok.inj hfirst
      rw [List.map_cons, ← ih hothers]
    | _ => cases hfirst

/-- The navigation of a task that gives none is the default. -/
theorem taskNavigation_of_ownNavigation?_eq_none {after : Bindings}
    (hafter : readKeyword body .navigate = .ok (after.get? Keyword.navigate.text))
    (hown : ownNavigation? (.map body) = none) :
    taskNavigation after next target = defaultNavigation next target := by
  unfold readKeyword at hafter
  unfold taskNavigation
  simp only [ownNavigation?] at hown
  cases hvalue : body.lookup? Keyword.navigate.text with
  | none =>
    rw [hvalue] at hafter
    rw [← Except.ok.inj hafter]
    rfl
  | some value =>
    rw [hvalue] at hafter hown
    cases value with
    | null =>
      rw [← Except.ok.inj hafter]
      rfl
    | map written =>
      cases written with
      | nil =>
        rw [← Except.ok.inj hafter]
        rfl
      | cons entry entries => cases hown
    | boolean | number | text | list => cases hafter

/-- The navigation of a task that gives one is made of it alone. -/
theorem taskNavigation_of_ownNavigation?_eq_some {after : Bindings} {written : Mapping}
    (hafter : readKeyword body .navigate = .ok (after.get? Keyword.navigate.text))
    (hown : ownNavigation? (.map body) = some written) :
    IsMadeOf (taskNavigation after next target) written := by
  unfold readKeyword at hafter
  simp only [ownNavigation?] at hown
  split at hown
  · next entry entries hvalue =>
    obtain rfl := Option.some.inj hown
    rw [hvalue] at hafter
    obtain ⟨read, hread, hafter⟩ := bind_eq_ok_iff.mp hafter
    obtain rfl : entry :: entries = read := Except.ok.inj hread
    obtain ⟨targets, htargets, hbinding⟩ := bind_eq_ok_iff.mp hafter
    have hwritten := eq_map_of_readTargets htargets
    have hfilled : (Dict.ofList targets).isEmpty = false := by
      rw [Dict.isEmpty_ofList]
      cases targets with
      | nil => cases hwritten
      | cons first others => rfl
    refine ⟨targets, hwritten, ?_⟩
    simp [taskNavigation, ← Except.ok.inj hbinding, hfilled]
  · cases hown

/-- A compiled task goes on as its value says, or else to the next task and to the target of
failures. -/
theorem goesOn_of_task_eq_ok {value : Value} {compiled : Task}
    (hbody : value.asBody name = .ok body)
    (h : task context name body next target = .ok compiled) :
    GoesOn value (next.getD successResult) target compiled.navigation := by
  obtain ⟨hne, _, _, after, _, _, _, hafter, _, _, rfl⟩ := exists_of_task_eq_ok h
  obtain rfl : value = .map body :=
    (Value.asBody_eq_ok_iff.mp hbody).resolve_right fun hnull => hne hnull.2
  have hread : readKeyword body .navigate = .ok (after.get? Keyword.navigate.text) :=
    (readsAs_of_readBindings hafter).read .navigate (by decide)
  unfold GoesOn
  cases hown : ownNavigation? (.map body) with
  | none =>
    rw [taskNavigation_of_ownNavigation?_eq_none hread hown]
    exact toList_defaultNavigation next target
  | some written => exact taskNavigation_of_ownNavigation?_eq_some hread hown

variable {declared : Mapping} {main handlers : List Task}

namespace FlowParts

/-- The main tasks have the names of the main entries. -/
theorem main_names (parts : FlowParts context body declared main handlers) :
    main.map Task.name = (mainEntries declared).keys := names_of_tasks_eq_ok parts.main_eq

/-- The handlers have the names of the entries of the branch. -/
theorem handlers_names (parts : FlowParts context body declared main handlers) :
    handlers.map Task.name = (handlerEntries declared).keys :=
  names_of_tasks_eq_ok parts.handlers_eq

/-- All tasks have the names of the main entries and then those of the branch. -/
theorem names_eq (parts : FlowParts context body declared main handlers) :
    (main ++ handlers).map Task.name =
      (mainEntries declared).keys ++ (handlerEntries declared).keys := by
  rw [List.map_append, parts.main_names, parts.handlers_names]

/-- There are as many main tasks as main entries. -/
theorem main_length (parts : FlowParts context body declared main handlers) :
    main.length = (mainEntries declared).length := by
  simpa [Mapping.keys] using congrArg List.length parts.main_names

/-- Main tasks fail to the first entry of the branch, if there is one. -/
theorem failureTarget_eq (parts : FlowParts context body declared main handlers) :
    failureTarget handlers =
      ((handlerEntries declared).head?.map Prod.fst).getD failureResult := by
  have hfirst := congrArg List.head? parts.handlers_names
  rw [Mapping.keys, List.head?_map, List.head?_map] at hfirst
  rw [failureTarget, hfirst]

/-- Each main entry stands for the task at its position. -/
theorem main_goesOn (parts : FlowParts context body declared main handlers) {i : Nat}
    {entry : String × Value} (hentry : (mainEntries declared)[i]? = some entry) :
    ∃ compiled, (main ++ handlers)[i]? = some compiled ∧
      GoesOn entry.2 (((mainEntries declared)[i + 1]?.map Prod.fst).getD successResult)
        (((handlerEntries declared).head?.map Prod.fst).getD failureResult)
        compiled.navigation := by
  obtain ⟨taskBody, compiled, hbody, htask, hat⟩ :=
    getElem?_of_tasks_eq_ok parts.main_eq hentry
  have hlt : i < main.length := (List.getElem?_eq_some_iff.mp hat).1
  refine ⟨compiled, ?_, ?_⟩
  · rw [List.getElem?_append_left hlt, hat]
  · rw [← parts.failureTarget_eq]
    exact goesOn_of_task_eq_ok hbody htask

/-- Each entry of the branch stands for the task at its position behind the main tasks. -/
theorem handlers_goesOn (parts : FlowParts context body declared main handlers) {j : Nat}
    {entry : String × Value} (hentry : (handlerEntries declared)[j]? = some entry) :
    ∃ compiled, (main ++ handlers)[(mainEntries declared).length + j]? = some compiled ∧
      GoesOn entry.2 (((handlerEntries declared)[j + 1]?.map Prod.fst).getD successResult)
        failureResult compiled.navigation := by
  obtain ⟨taskBody, compiled, hbody, htask, hat⟩ :=
    getElem?_of_tasks_eq_ok parts.handlers_eq hentry
  refine ⟨compiled, ?_, goesOn_of_task_eq_ok hbody htask⟩
  rw [← parts.main_length, List.getElem?_append_right (Nat.le_add_right ..),
    Nat.add_sub_cancel_left, hat]

end FlowParts

/-- An accepted body of a flow is compiled to a flow whose tasks are those of its workflow: the
main entries, of which there is one at least, and then those of the branch for failures, in
order. A task that gives its own navigation has exactly that one. Any other main task goes to the
next main entry on success and to the first entry of the branch on failure, and any other task of
the branch goes to the next one on success; where there is no such entry, the flow ends. -/
theorem flow_tasks_of_entries {settings : Settings} {file : SourceFile} {compiled : Executable}
    (hkind : file.kind = .flow) (h : executable settings file name body = .ok compiled) :
    ∃ signature workflow declared, compiled = .flow signature workflow ∧
      body.lookup? workflowKey = some (.map declared) ∧
      mainEntries declared ≠ [] ∧
      workflow.tasks.map Task.name =
        (mainEntries declared).keys ++ (handlerEntries declared).keys ∧
      (∀ i entry, (mainEntries declared)[i]? = some entry →
        ∃ compiled, workflow.tasks[i]? = some compiled ∧
          GoesOn entry.2 (((mainEntries declared)[i + 1]?.map Prod.fst).getD successResult)
            (((handlerEntries declared).head?.map Prod.fst).getD failureResult)
            compiled.navigation) ∧
      (∀ j entry, (handlerEntries declared)[j]? = some entry →
        ∃ compiled, workflow.tasks[(mainEntries declared).length + j]? = some compiled ∧
          GoesOn entry.2 (((handlerEntries declared)[j + 1]?.map Prod.fst).getD successResult)
            failureResult compiled.navigation) := by
  obtain ⟨signature, workflow, rfl⟩ := exists_flow_of_kind hkind h
  obtain ⟨declared, main, handlers, parts, htasks⟩ := exists_parts_of_flow h
  refine ⟨signature, workflow, declared, rfl, parts.declared_eq, parts.main_ne_nil, ?_, ?_, ?_⟩
  · rw [htasks, parts.names_eq]
  · intro i entry hentry
    rw [htasks]
    exact parts.main_goesOn hentry
  · intro j entry hentry
    rw [htasks]
    exact parts.handlers_goesOn hentry

/-- A file of one flow that may invoke the operations of one namespace. -/
def releaseFile : SourceFile :=
  (SourceFile.empty "release.sl" "user" .flow).withImport "ops" "user.ops"

/-- A branch for failures stands in front of the main tasks and has a task named like its own
key; the last main task navigates on its own. -/
def releaseEntries : Mapping :=
  [("on_failure", .map
      [("on_failure", .map [("do", .map [("ops.undo", .list [])])]),
        ("report", .map [("do", .map [("ops.report", .null)])])]),
    ("deploy", .map [("do", .map [("ops.deploy", .list [])])]),
    ("verify", .map [("do", .map [("ops.verify", .list [])]),
      ("NAVIGATE", .map [("TIMEOUT", .text "deploy"), ("FAILURE", .text "report")])])]

/-- The tasks of this release and where they go on. -/
theorem flow_tasks_of_release :
    ∃ signature workflow,
      executable {} releaseFile "release" [("Workflow", .map releaseEntries)] =
        .ok (.flow signature workflow) ∧
      workflow.tasks.map Task.name = ["deploy", "verify", "on_failure", "report"] ∧
      (∃ deploy, workflow.tasks[0]? = some deploy ∧
        deploy.navigation.toList = [("FAILURE", "on_failure"), ("SUCCESS", "verify")]) ∧
      (∃ verify, workflow.tasks[1]? = some verify ∧
        IsMadeOf verify.navigation [("TIMEOUT", .text "deploy"), ("FAILURE", .text "report")]) ∧
      ∃ report, workflow.tasks[3]? = some report ∧
        report.navigation.toList = [("FAILURE", "FAILURE"), ("SUCCESS", "SUCCESS")] := by
  obtain ⟨compiled, h⟩ := faultOf_eq_none_iff.mp
    (show faultOf (executable {} releaseFile "release" [("Workflow", .map releaseEntries)]) = none
      by decide +kernel)
  obtain ⟨signature, workflow, declared, rfl, hdeclared, _, hnames, hmain, hhandlers⟩ :=
    flow_tasks_of_entries rfl h
  obtain rfl : releaseEntries = declared := Value.map.inj (Option.some.inj hdeclared)
  exact ⟨signature, workflow, h, hnames, hmain 0 _ rfl, hmain 1 _ rfl, hhandlers 1 _ rfl⟩

end Taskflow.Compile
