import Taskflow.Compile.Executable
import Taskflow.Proofs.Keyword.Bindings

/-!
# What an accepted executable is compiled from

Compilation runs through many steps, each of which may refuse. This file says once what has
been done when they all succeeded, so that no later argument opens the steps again. The main
statements say that the tasks of an accepted flow are its compiled main entries and then the
compiled entries of its branch for failures, and that the action of an accepted operation was
read from the map under its key.
-/

namespace Taskflow.Compile

variable {context : Context} {settings : Settings} {file : SourceFile} {name target : String}
  {body declared entries : Mapping} {next : Option String}

/-- What has been read and resolved when a task was compiled. -/
theorem exists_of_task_eq_ok {compiled : Task}
    (h : task context name body next target = .ok compiled) :
    body ≠ [] ∧ checkKeys body taskKeywords context.taskKeys name = .ok () ∧
      ∃ before after reference referenceId,
        readBindings body (Registry.standard.inScope .beforeTask) = .ok before ∧
        readBindings body (Registry.standard.inScope .afterTask) = .ok after ∧
        taskReference name body = .ok reference ∧
        Reference.resolveWith context.settings.referencePolicy reference context.imports =
          .ok referenceId ∧
        compiled = ⟨name, before, after.erase Keyword.navigate.text,
          taskNavigation after next target, referenceId⟩ := by
  unfold task at h
  split at h
  · cases h
  · next hbody =>
    obtain ⟨_, hkeys, h⟩ := bind_eq_ok_iff.mp h
    obtain ⟨before, hbefore, h⟩ := bind_eq_ok_iff.mp h
    obtain ⟨after, hafter, h⟩ := bind_eq_ok_iff.mp h
    obtain ⟨reference, hreference, h⟩ := bind_eq_ok_iff.mp h
    obtain ⟨referenceId, hid, h⟩ := bind_eq_ok_iff.mp h
    refine ⟨by simpa using hbody, hkeys, before, after, reference, referenceId, hbefore, hafter,
      hreference, hid, (Except.ok.inj h).symm⟩

/-- Compiling tasks compiles the first and then the others. -/
theorem tasks_cons_eq_ok_iff {value : Value} {rest : Mapping} {compiled : List Task} :
    tasks context target ((name, value) :: rest) = .ok compiled ↔
      ∃ body first others, value.asBody name = .ok body ∧
        task context name body (rest.head?.map Prod.fst) target = .ok first ∧
        tasks context target rest = .ok others ∧ compiled = first :: others := by
  rw [tasks]
  simp only [bind_eq_ok_iff]
  constructor
  · rintro ⟨body, hbody, first, hfirst, others, hothers, h⟩
    exact ⟨body, first, others, hbody, hfirst, hothers, (Except.ok.inj h).symm⟩
  · rintro ⟨body, first, others, hbody, hfirst, hothers, rfl⟩
    exact ⟨body, hbody, first, hfirst, others, hothers, rfl⟩

/-- Compiled tasks have the names of their entries, in order. -/
theorem names_of_tasks_eq_ok {compiled : List Task}
    (h : tasks context target entries = .ok compiled) :
    compiled.map Task.name = entries.keys := by
  induction entries generalizing compiled with
  | nil =>
    obtain rfl : [] = compiled := Except.ok.inj h
    rfl
  | cons entry rest ih =>
    obtain ⟨body, first, others, _, hfirst, hothers, rfl⟩ := tasks_cons_eq_ok_iff.mp h
    obtain ⟨_, _, _, _, _, _, _, _, _, _, rfl⟩ := exists_of_task_eq_ok hfirst
    rw [List.map_cons, ih hothers]
    rfl

/-- Each entry was compiled with the name of the entry behind it. -/
theorem getElem?_of_tasks_eq_ok {compiled : List Task}
    (h : tasks context target entries = .ok compiled) {i : Nat} {entry : String × Value}
    (hentry : entries[i]? = some entry) :
    ∃ body found, entry.2.asBody entry.1 = .ok body ∧
      task context entry.1 body (entries[i + 1]?.map Prod.fst) target = .ok found ∧
      compiled[i]? = some found := by
  induction entries generalizing compiled i with
  | nil => simp at hentry
  | cons head rest ih =>
    obtain ⟨body, first, others, hbody, hfirst, hothers, rfl⟩ := tasks_cons_eq_ok_iff.mp h
    cases i with
    | zero =>
      obtain rfl : head = entry := by simpa using hentry
      refine ⟨body, first, hbody, ?_, rfl⟩
      simpa [List.head?_eq_getElem?] using hfirst
    | succ i => exact ih hothers (by simpa using hentry)

/-- A task was compiled from an entry, whichever task comes next and wherever its failures
lead. -/
def CompiledFrom (context : Context) (entry : String × Value) (compiled : Task) : Prop :=
  ∃ body next target, entry.2.asBody entry.1 = .ok body ∧
    task context entry.1 body next target = .ok compiled

/-- Each task was compiled from the entry at its position. -/
theorem compiledFrom_of_tasks_eq_ok {compiled : List Task}
    (h : tasks context target entries = .ok compiled) :
    List.Forall₂ (CompiledFrom context) entries compiled := by
  induction entries generalizing compiled with
  | nil =>
    obtain rfl : [] = compiled := Except.ok.inj h
    exact .nil
  | cons entry rest ih =>
    obtain ⟨body, first, others, hbody, hfirst, hothers, rfl⟩ := tasks_cons_eq_ok_iff.mp h
    exact .cons ⟨body, _, target, hbody, hfirst⟩ (ih hothers)

/-- A reference that was read is the only key under its keyword. -/
theorem lookup?_of_taskReference_eq_ok {reference : String}
    (h : taskReference name body = .ok reference) :
    ∃ arguments, body.lookup? Keyword.invoke.text = some (.map [(reference, arguments)]) := by
  unfold taskReference at h
  split at h
  · next other arguments hlookup =>
    exact ⟨arguments, by rw [hlookup, Except.ok.inj h]⟩
  · cases h

/-- A map that had to be filled stands under its key, with the entries that were read. -/
theorem lookup?_of_filledMap_eq_ok {key : String} {missing : Fault}
    (h : filledMap key missing body = .ok entries) : body.lookup? key = some (.map entries) := by
  unfold filledMap at h
  split at h
  · next heq =>
    rw [heq, Except.ok.inj h]
  · cases h
  · cases h

/-- The entries that handle failures: those under their key, if a map stands there. -/
def handlerEntries (declared : Mapping) : Mapping :=
  match declared.get? onFailureKey with
  | some (.map entries) => entries
  | _ => []

/-- The branch for failures, once it is accepted, is what stands under its key. -/
theorem eq_handlerEntries_of_failureEntries {failures : Mapping}
    (h : failureEntries declared = .ok failures) : failures = handlerEntries declared := by
  unfold failureEntries at h
  unfold handlerEntries
  cases hvalue : declared.get? onFailureKey with
  | none =>
    rw [hvalue] at h
    exact (Except.ok.inj h).symm
  | some value =>
    rw [hvalue] at h
    cases value with
    | null | map => exact (Except.ok.inj h).symm
    | _ => cases h

/-- The tasks that a flow declares, and what they were compiled to: first the handlers of
failures, then the main tasks, which fail to the first handler. -/
structure FlowParts (context : Context) (body declared : Mapping) (main handlers : List Task) :
    Prop where
  /-- The tasks stand in a map under their key. -/
  declared_eq : body.lookup? workflowKey = some (.map declared)
  /-- There is a main task. -/
  main_ne_nil : mainEntries declared ≠ []
  /-- The main entries were compiled to the main tasks. -/
  main_eq : tasks context (failureTarget handlers) (mainEntries declared) = .ok main
  /-- The entries of the branch were compiled to the handlers. -/
  handlers_eq : tasks context failureResult (handlerEntries declared) = .ok handlers

/-- All tasks were compiled from the main entries and then those of the branch. -/
theorem FlowParts.compiledFrom {main handlers : List Task}
    (parts : FlowParts context body declared main handlers) :
    List.Forall₂ (CompiledFrom context) (mainEntries declared ++ handlerEntries declared)
      (main ++ handlers) :=
  List.rel_append (compiledFrom_of_tasks_eq_ok parts.main_eq)
    (compiledFrom_of_tasks_eq_ok parts.handlers_eq)

/-- A compiled workflow consists of its main tasks and then its handlers. -/
theorem exists_parts_of_workflow {compiled : Workflow}
    (h : workflow context name body = .ok compiled) :
    ∃ declared main handlers, FlowParts context body declared main handlers ∧
      compiled.tasks = main ++ handlers := by
  unfold workflow at h
  obtain ⟨declared, hdeclared, h⟩ := bind_eq_ok_iff.mp h
  obtain ⟨failures, hfailures, h⟩ := bind_eq_ok_iff.mp h
  obtain ⟨handlers, hhandlers, h⟩ := bind_eq_ok_iff.mp h
  obtain ⟨main, hmain, h⟩ := bind_eq_ok_iff.mp h
  have hlookup := lookup?_of_filledMap_eq_ok hdeclared
  rw [eq_handlerEntries_of_failureEntries hfailures] at hhandlers
  unfold mainTasks at hmain
  split at hmain
  · cases hmain
  · next hempty =>
    refine ⟨declared, main, handlers, ⟨hlookup, by simpa using hempty, hmain, hhandlers⟩, ?_⟩
    rw [← Except.ok.inj h]

/-- The content of an accepted executable was compiled once its signature was read. -/
theorem exists_of_executable_eq_ok {compiled : Executable}
    (h : executable settings file name body = .ok compiled) :
    ∃ declared, signature file.namespaceName name body = .ok declared ∧
      content settings file name body declared = .ok compiled := by
  unfold executable at h
  split at h
  · cases h
  · obtain ⟨_, _, h⟩ := bind_eq_ok_iff.mp h
    exact bind_eq_ok_iff.mp h

/-- Whatever an executable runs, its signature is the one that was read. -/
theorem signature_of_content_eq_ok {declared : Signature} {compiled : Executable}
    (h : content settings file name body declared = .ok compiled) :
    compiled.signature = declared := by
  unfold content at h
  split at h
  · obtain ⟨workflow, _, hflow⟩ := bind_eq_ok_iff.mp h
    rw [← Except.ok.inj hflow]
    rfl
  · obtain ⟨bindings, _, hoperation⟩ := bind_eq_ok_iff.mp h
    rw [← Except.ok.inj hoperation]
    rfl
  · cases h

/-- From the file of a flow only a flow is compiled. -/
theorem exists_flow_of_kind {compiled : Executable} (hkind : file.kind = .flow)
    (h : executable settings file name body = .ok compiled) :
    ∃ signature workflow, compiled = .flow signature workflow := by
  obtain ⟨declared, _, hcontent⟩ := exists_of_executable_eq_ok h
  unfold content at hcontent
  rw [hkind] at hcontent
  obtain ⟨workflow, _, hflow⟩ := bind_eq_ok_iff.mp hcontent
  exact ⟨declared, workflow, (Except.ok.inj hflow).symm⟩

/-- The tasks of an accepted flow are its compiled main entries and then its compiled
handlers. -/
theorem exists_parts_of_flow {signature : Signature} {compiled : Workflow}
    (h : executable settings file name body = .ok (.flow signature compiled)) :
    ∃ declared main handlers, FlowParts ⟨settings, file.imports⟩ body declared main handlers ∧
      compiled.tasks = main ++ handlers := by
  obtain ⟨declared, _, hcontent⟩ := exists_of_executable_eq_ok h
  unfold content at hcontent
  split at hcontent
  · obtain ⟨workflow, hworkflow, hflow⟩ := bind_eq_ok_iff.mp hcontent
    obtain ⟨-, rfl⟩ : declared = signature ∧ workflow = compiled := by
      simpa [pure, Except.pure] using hflow
    exact exists_parts_of_workflow hworkflow
  · obtain ⟨_, _, hoperation⟩ := bind_eq_ok_iff.mp hcontent
    cases hoperation
  · cases hcontent

/-- The same for the entries that are known to stand under the key of the tasks. -/
theorem exists_parts_of_declared {signature : Signature} {compiled : Workflow}
    (h : executable settings file name body = .ok (.flow signature compiled))
    (hdeclared : body.lookup? workflowKey = some (.map declared)) :
    ∃ main handlers, FlowParts ⟨settings, file.imports⟩ body declared main handlers ∧
      compiled.tasks = main ++ handlers := by
  obtain ⟨found, main, handlers, parts, htasks⟩ := exists_parts_of_flow h
  have heq : found = declared := by
    simpa using parts.declared_eq.symm.trans hdeclared
  exact ⟨main, handlers, heq ▸ parts, htasks⟩

/-- The action of an accepted operation was read from the map under its key, in which no keys stand
but those of actions. -/
theorem exists_declared_of_operation {signature : Signature} {bindings : Bindings}
    (h : executable settings file name body = .ok (.operation signature bindings)) :
    ∃ declared, body.lookup? actionKey = some (.map declared) ∧
      checkKeys declared (Registry.standard.inScope .action) [] actionContext = .ok () ∧
      readBindings declared (Registry.standard.inScope .action) = .ok bindings := by
  obtain ⟨_, _, hcontent⟩ := exists_of_executable_eq_ok h
  unfold content at hcontent
  split at hcontent
  · obtain ⟨_, _, hflow⟩ := bind_eq_ok_iff.mp hcontent
    cases hflow
  · obtain ⟨found, haction, hoperation⟩ := bind_eq_ok_iff.mp hcontent
    obtain ⟨-, rfl⟩ : _ = signature ∧ found = bindings := by
      simpa [pure, Except.pure] using hoperation
    obtain ⟨declared, hdeclared, haction⟩ := bind_eq_ok_iff.mp haction
    obtain ⟨_, hkeys, hread⟩ := bind_eq_ok_iff.mp haction
    exact ⟨declared, lookup?_of_filledMap_eq_ok hdeclared, hkeys, hread⟩
  · cases hcontent

end Taskflow.Compile
