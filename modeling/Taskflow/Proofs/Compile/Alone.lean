import Taskflow.Proofs.Compile.Checks
import Taskflow.Proofs.Compile.WellFormed
import Taskflow.Proofs.Flow.Navigation

/-!
# Tasks on their own

A task is compiled from its own entry. Of the tasks around it, compilation only looks at the name
of the next one and at the first that handles failures, and these only decide where the task goes
on by default. The main statement says that every task of an accepted flow is compiled to the same
in a flow that has no other task.
-/

namespace Taskflow.Compile

variable {context : Context} {settings : Settings} {file : SourceFile}
  {name target flowName : String} {body : Mapping} {next : Option String}
  {entry : String × Value} {compiled : Task}

/-- A task that is compiled in one place is compiled in any other one, and goes on alike if it says
where to go. -/
theorem exists_task_elsewhere (h : task context name body next target = .ok compiled)
    (next' : Option String) (target' : String) :
    ∃ navigation, task context name body next' target' = .ok { compiled with navigation } ∧
      (ownNavigation? (.map body) ≠ none → navigation = compiled.navigation) := by
  obtain ⟨hne, hkeys, before, after, reference, referenceId, hbefore, hafter, hreference, hid,
    rfl⟩ := exists_of_task_eq_ok h
  refine ⟨taskNavigation after next' target', ?_, fun hown => ?_⟩
  · rw [task, if_neg (by simpa using hne)]
    refine bind_eq_ok_iff.mpr ⟨(), hkeys, bind_eq_ok_iff.mpr ⟨before, hbefore, ?_⟩⟩
    refine bind_eq_ok_iff.mpr ⟨after, hafter, bind_eq_ok_iff.mpr ⟨reference, hreference, ?_⟩⟩
    exact bind_eq_ok_iff.mpr ⟨referenceId, hid, rfl⟩
  · obtain ⟨written, hwritten⟩ := Option.ne_none_iff_exists'.mp hown
    have hread : readKeyword body .navigate = .ok (after.get? Keyword.navigate.text) :=
      (readsAs_of_readBindings hafter).read .navigate (by decide)
    exact (taskNavigation_of_ownNavigation?_eq_some hread hwritten).unique
      (taskNavigation_of_ownNavigation?_eq_some hread hwritten)

/-- A task that has no other one behind it and no handler of failures makes a workflow. -/
theorem workflow_single (hname : entry.1 ≠ onFailureKey) {taskBody : Mapping}
    (hbody : entry.2.asBody entry.1 = .ok taskBody)
    (htask : task context entry.1 taskBody none failureResult = .ok compiled) :
    workflow context flowName [(workflowKey, .map [entry])] = .ok ⟨[compiled]⟩ := by
  have hbranch : failureEntries [entry] = .ok [] := by
    simp [failureEntries, Mapping.get?, Mapping.entryAt?, hname]
  have hentries : mainEntries [entry] = [entry] := by simp [mainEntries, hname]
  have hmain : mainTasks context (failureTarget []) (mainEntries [entry]) = .ok [compiled] := by
    rw [hentries]
    exact tasks_cons_eq_ok_iff.mpr ⟨taskBody, compiled, [], hbody, htask, rfl, rfl⟩
  refine bind_eq_ok_iff.mpr ⟨[entry], rfl, bind_eq_ok_iff.mpr ⟨[], hbranch, ?_⟩⟩
  exact bind_eq_ok_iff.mpr ⟨[], rfl, bind_eq_ok_iff.mpr ⟨[compiled], hmain, rfl⟩⟩

/-- A body that holds nothing but tasks declares nothing else. -/
theorem readKeyword_of_tasks (value : Value) {keyword : Keyword}
    (h : keyword ∈ executableKeywords) :
    readKeyword [(workflowKey, value)] keyword = .ok keyword.absent := by
  have hnone : Mapping.entryNamed? [(workflowKey, value)] keyword.text = none := by
    refine Mapping.entryNamed?_eq_none_iff.mpr fun entry hentry => ?_
    obtain rfl := List.mem_singleton.mp hentry
    exact (by decide : ∀ keyword ∈ executableKeywords,
      Text.caselessEq workflowKey keyword.text = false) keyword h
  rw [readKeyword, Mapping.lookup?, hnone]
  rfl

/-- A flow is accepted if its tasks are and nothing else is declared. -/
theorem exists_executable_of_workflow (hkind : file.kind = .flow) {value : Value}
    {compiled : Workflow}
    (h : workflow ⟨settings, file.imports⟩ flowName [(workflowKey, value)] = .ok compiled) :
    ∃ signature, executable settings file flowName [(workflowKey, value)] =
      .ok (.flow signature compiled) := by
  have hkeys : checkKeys [(workflowKey, value)] executableKeywords (executableKeys settings)
      flowName = .ok () := by
    refine checkKeys_eq_ok_iff.mpr fun key hkey => List.mem_append_right _ ?_
    obtain rfl : key = workflowKey := by simpa [Mapping.keys] using hkey
    exact List.mem_map_of_mem (by simp [executableKeys])
  obtain ⟨declared, hdeclared⟩ : ∃ declared,
      signature file.namespaceName flowName [(workflowKey, value)] = .ok declared := by
    rw [← faultOf_eq_none_iff, Checks.describedBy_signature, firstFault_eq_none_iff]
    intro check hcheck
    obtain ⟨keyword, hkeyword, rfl⟩ := List.mem_map.mp hcheck
    have hlegal := (by decide : ∀ keyword ∈ [Keyword.inputs, .outputs, .results],
      keyword ∈ executableKeywords) keyword hkeyword
    rw [readKeyword_of_tasks value hlegal]
    rfl
  refine ⟨declared, bind_eq_ok_iff.mpr ⟨(), hkeys, bind_eq_ok_iff.mpr ⟨declared, hdeclared, ?_⟩⟩⟩
  rw [content, hkind]
  exact bind_eq_ok_iff.mpr ⟨compiled, h, rfl⟩

/-- A task depends on its entry alone. -/
structure StandsAlone (settings : Settings) (file : SourceFile) (entry : String × Value)
    (compiled : Task) : Prop where
  /-- The task has the name of the entry. -/
  name_eq : compiled.name = entry.1
  /-- A flow of any name with no other entry has this task only, and the task goes on alike if it
  says where to go. The entry must not be taken for a branch that handles failures. -/
  alone : entry.1 ≠ onFailureKey → ∀ flowName, ∃ signature navigation,
    executable settings file flowName [(workflowKey, .map [entry])] =
        .ok (.flow signature ⟨[{ compiled with navigation }]⟩) ∧
      (ownNavigation? entry.2 ≠ none → navigation = compiled.navigation)
  /-- The task invokes the one reference under its keyword, with the arguments that are declared
  under this reference. -/
  invokes : ∃ (body : Mapping) (reference : String) (value : Value) (arguments : List Input),
    entry.2 = .map body ∧
    body.lookup? "do" = some (.map [(reference, value)]) ∧
    Reference.resolveWith settings.referencePolicy reference file.imports =
      .ok compiled.referenceId ∧
    compiled.before.get? "do" = some (.inputs arguments) ∧
    Declares (Entry.readInput reference) Input.name (some value) arguments

/-- A task that was compiled from an entry depends on it alone. -/
theorem CompiledFrom.standsAlone (hkind : file.kind = .flow)
    (h : CompiledFrom ⟨settings, file.imports⟩ entry compiled) :
    StandsAlone settings file entry compiled := by
  obtain ⟨body, next, target, hbody, htask⟩ := h
  obtain ⟨hne, _, before, after, reference, referenceId, hbefore, _, hreference, hid, hcompiled⟩ :=
    exists_of_task_eq_ok htask
  have hvalue : entry.2 = .map body :=
    (Value.asBody_eq_ok_iff.mp hbody).resolve_right fun hnull => hne hnull.2
  obtain ⟨value, hlookup⟩ := lookup?_of_taskReference_eq_ok hreference
  obtain ⟨arguments, harguments, hdeclared⟩ := exists_arguments_of_readBindings hlookup hbefore
  refine ⟨by rw [hcompiled], fun hname flowName => ?_, ?_⟩
  · obtain ⟨navigation, halone, hown⟩ := exists_task_elsewhere htask none failureResult
    have hworkflow : workflow ⟨settings, file.imports⟩ flowName [(workflowKey, .map [entry])] =
        .ok ⟨[{ compiled with navigation }]⟩ := workflow_single hname hbody halone
    obtain ⟨signature, hflow⟩ := exists_executable_of_workflow hkind hworkflow
    exact ⟨signature, navigation, hflow, hvalue ▸ hown⟩
  · rw [hcompiled]
    exact ⟨body, reference, value, arguments, hvalue, hlookup, hid, harguments, hdeclared⟩

/-- Every task of an accepted flow, one that handles failures too, depends on its own entry alone:
in a flow without any other task it is compiled to the same. -/
theorem tasks_stand_alone {compiled : Executable} (hkind : file.kind = .flow)
    (h : executable settings file name body = .ok compiled) :
    ∃ signature workflow declared, compiled = .flow signature workflow ∧
      body.lookup? workflowKey = some (.map declared) ∧
      List.Forall₂ (StandsAlone settings file) (mainEntries declared ++ handlerEntries declared)
        workflow.tasks := by
  obtain ⟨signature, workflow, rfl⟩ := exists_flow_of_kind hkind h
  obtain ⟨declared, main, handlers, parts, htasks⟩ := exists_parts_of_flow h
  refine ⟨signature, workflow, declared, rfl, parts.declared_eq, ?_⟩
  rw [htasks]
  exact parts.compiledFrom.imp fun _ _ hfrom => hfrom.standsAlone hkind

/-- The last task of a release says where to go, so in a flow of its own it is the same. -/
theorem tasks_stand_alone_of_release :
    ∃ signature workflow last alone,
      executable {} releaseFile "release" [("Workflow", .map releaseEntries)] =
        .ok (.flow signature workflow) ∧
      workflow.tasks[1]? = some last ∧
      executable {} releaseFile "verification" [(workflowKey, .map (releaseEntries.drop 2))] =
        .ok (.flow alone ⟨[last]⟩) := by
  obtain ⟨compiled, h⟩ := faultOf_eq_none_iff.mp
    (show faultOf (executable {} releaseFile "release" [("Workflow", .map releaseEntries)]) = none
      by decide +kernel)
  obtain ⟨signature, workflow, declared, rfl, hdeclared, htasks⟩ := tasks_stand_alone rfl h
  obtain rfl : releaseEntries = declared := Value.map.inj (Option.some.inj hdeclared)
  obtain ⟨hlength, hstands⟩ := List.forall₂_iff_get.mp htasks
  have hlt : 1 < workflow.tasks.length := by rw [← hlength]; decide
  obtain ⟨alone, navigation, hflow, hown⟩ :=
    (hstands 1 (by decide) hlt).alone (by decide) "verification"
  obtain rfl := hown (by decide)
  exact ⟨signature, workflow, workflow.tasks[1], alone, h, List.getElem?_eq_getElem hlt, hflow⟩

end Taskflow.Compile
