import Taskflow.Proofs.Compile.Accepted
import Taskflow.Proofs.Keyword.Kinds

/-!
# Accepted executables are well-formed

The bindings of a compiled executable stand in dictionaries whose type says nothing of the texts
under which they stand. The main statement says that whatever compilation accepts has bindings
of the right kind under the right texts only: every task invokes something and leads somewhere,
every loop is canonical and parallel only where that was asked for, and the signature declares
what the lists of the body declare.
-/

namespace Taskflow

/-- The bindings that may stand before a task, each under its text. -/
inductive Binding.BeforeTask : String → Binding → Prop
  | arguments (inputs : List Input) : BeforeTask "do" (.inputs inputs)
  | loop {statement : LoopStatement} (hparallel : statement.isParallel = false)
      (hcanonical : statement.Canonical) : BeforeTask "loop" (.loop statement)
  | parallelLoop {statement : LoopStatement} (hparallel : statement.isParallel = true)
      (hcanonical : statement.Canonical) : BeforeTask "parallel_loop" (.loop statement)

/-- The bindings that may stand after a task, each under its text. -/
inductive Binding.AfterTask : String → Binding → Prop
  | publish (outputs : List Output) : AfterTask "publish" (.outputs outputs)
  | aggregate (outputs : List Output) : AfterTask "aggregate" (.outputs outputs)
  | breakOn (names : List String) : AfterTask "break" (.names names)

/-- The bindings that an operation may run, each under its text. -/
inductive Binding.OfAction : String → Binding → Prop
  | java {action : JavaAction} (hclass : LoopStatement.HasText action.className)
      (hmethod : LoopStatement.HasText action.methodName) :
      OfAction "java_action" (.javaAction action)
  | script (code : String) : OfAction "python_script" (.script code)

/-- A signature declares what stands in the lists of a body, and binds nothing else. -/
structure Signature.DeclaredIn (body : Mapping) (signature : Signature) : Prop where
  /-- There is one input for each item under the key of inputs. -/
  inputs : Declares (Entry.readInput "inputs") Input.name (body.lookup? "inputs") signature.inputs
  /-- There is one output for each item under the key of outputs. -/
  outputs :
    Declares (Entry.readOutput "outputs") Output.name (body.lookup? "outputs") signature.outputs
  /-- There is one result for each item under the key of results. -/
  results :
    Declares (Entry.readResult "results") ResultBinding.name (body.lookup? "results")
      signature.results
  /-- Nothing else is bound before the executable runs. -/
  before_eq : signature.before = .empty
  /-- Nothing else is bound after the executable ran. -/
  after_eq : signature.after = .empty

/-- A task leads somewhere, invokes something, and has bindings of the right kind. -/
structure Task.WellFormed (task : Task) : Prop where
  /-- The task leads somewhere. -/
  leads : task.navigation.isEmpty = false
  /-- The arguments of the invocation are always there. -/
  invokes : ∃ arguments, task.before.get? "do" = some (.inputs arguments)
  /-- Only an invocation and loops stand before the task. -/
  before : ∀ key binding, task.before.get? key = some binding → Binding.BeforeTask key binding
  /-- Only outputs and result names stand after the task; the navigation does not. -/
  after : ∀ key binding, task.after.get? key = some binding → Binding.AfterTask key binding

/-- An operation has nothing but actions, and a flow has tasks, all of them well-formed. -/
def Executable.WellFormed : Executable → Prop
  | .operation _ action =>
    ∀ key binding, action.get? key = some binding → Binding.OfAction key binding
  | .flow _ workflow => workflow.tasks ≠ [] ∧ ∀ task ∈ workflow.tasks, task.WellFormed

namespace Compile

variable {settings : Settings} {file : SourceFile} {context : Context}
  {namespaceName name target key : String} {body entries : Mapping} {next : Option String}
  {bindings before after : Bindings} {binding : Binding}

/-- What was read for the start of a task may stand there. -/
theorem beforeTask_of_readBindings
    (h : readBindings body (Registry.standard.inScope .beforeTask) = .ok before)
    (hbinding : before.get? key = some binding) : Binding.BeforeTask key binding := by
  obtain ⟨keyword, hscope, rfl, hmakes⟩ := exists_makes_of_readBindings h hbinding
  cases hmakes with
  | arguments inputs => exact .arguments inputs
  | loop hparallel hcanonical => exact .loop hparallel hcanonical
  | parallelLoop hparallel hcanonical => exact .parallelLoop hparallel hcanonical
  | _ => exact absurd hscope (by decide)

/-- What was read for the end of a task may stand there once the navigation is taken out. -/
theorem afterTask_of_readBindings
    (h : readBindings body (Registry.standard.inScope .afterTask) = .ok after)
    (hbinding : (after.erase Keyword.navigate.text).get? key = some binding) :
    Binding.AfterTask key binding := by
  rw [Dict.get?_erase] at hbinding
  split at hbinding
  · cases hbinding
  · next hnavigate =>
    obtain ⟨keyword, hscope, rfl, hmakes⟩ := exists_makes_of_readBindings h hbinding
    cases hmakes with
    | publish outputs => exact .publish outputs
    | aggregate outputs => exact .aggregate outputs
    | names names => exact .breakOn names
    | navigation targets => exact absurd rfl hnavigate
    | _ => exact absurd hscope (by decide)

/-- What was read in an action is an action. -/
theorem ofAction_of_readBindings
    (h : readBindings entries (Registry.standard.inScope .action) = .ok bindings)
    (hbinding : bindings.get? key = some binding) : Binding.OfAction key binding := by
  obtain ⟨keyword, hscope, rfl, hmakes⟩ := exists_makes_of_readBindings h hbinding
  cases hmakes with
  | javaAction hclass hmethod => exact .java hclass hmethod
  | script code => exact .script code
  | _ => exact absurd hscope (by decide)

/-- The default navigation leads somewhere. -/
theorem isEmpty_defaultNavigation (next : Option String) (target : String) :
    (defaultNavigation next target).isEmpty = false :=
  Dict.isEmpty_insert _ _ _

/-- Every task leads somewhere: an empty navigation counts as none. -/
theorem isEmpty_taskNavigation (after : Bindings) (next : Option String) (target : String) :
    (taskNavigation after next target).isEmpty = false := by
  unfold taskNavigation
  split
  · split
    · exact isEmpty_defaultNavigation next target
    · next hempty => simpa using hempty
  · exact isEmpty_defaultNavigation next target

/-- A task has the arguments that are declared for what it invokes. -/
theorem exists_arguments_of_readBindings {reference : String} {value : Value}
    (hlookup : body.lookup? Keyword.invoke.text = some (.map [(reference, value)]))
    (hbefore : readBindings body (Registry.standard.inScope .beforeTask) = .ok before) :
    ∃ arguments, before.get? Keyword.invoke.text = some (.inputs arguments) ∧
      Declares (Entry.readInput reference) Input.name (some value) arguments := by
  have hread := (readsAs_of_readBindings hbefore).read .invoke (by decide)
  rw [readKeyword, hlookup] at hread
  obtain ⟨pairs, hpairs, hinvocation⟩ := bind_eq_ok_iff.mp hread
  obtain rfl : [(reference, value)] = pairs := Except.ok.inj hpairs
  obtain ⟨arguments, harguments, hmade⟩ := bind_eq_ok_iff.mp hinvocation
  exact ⟨arguments, (Except.ok.inj hmade).symm,
    Keyword.declares_of_readArguments_eq_ok harguments⟩

/-- Every compiled task is well-formed. -/
theorem wellFormed_of_task_eq_ok {compiled : Task}
    (h : task context name body next target = .ok compiled) : compiled.WellFormed := by
  obtain ⟨_, _, before, after, reference, _, hbefore, hafter, hreference, _, rfl⟩ :=
    exists_of_task_eq_ok h
  obtain ⟨value, hlookup⟩ := lookup?_of_taskReference_eq_ok hreference
  obtain ⟨arguments, harguments, _⟩ := exists_arguments_of_readBindings hlookup hbefore
  exact {
    leads := isEmpty_taskNavigation after next target
    invokes := ⟨arguments, harguments⟩
    before := fun _ _ => beforeTask_of_readBindings hbefore
    after := fun _ _ => afterTask_of_readBindings hafter }

/-- Every one of several compiled tasks is well-formed. -/
theorem wellFormed_of_tasks_eq_ok {compiled : List Task}
    (h : tasks context target entries = .ok compiled) : ∀ task ∈ compiled, task.WellFormed := by
  induction entries generalizing compiled with
  | nil =>
    obtain rfl : [] = compiled := Except.ok.inj h
    exact fun _ hmem => absurd hmem List.not_mem_nil
  | cons entry rest ih =>
    obtain ⟨body, first, others, _, hfirst, hothers, rfl⟩ := tasks_cons_eq_ok_iff.mp h
    intro task hmem
    rcases List.mem_cons.mp hmem with rfl | hmem
    · exact wellFormed_of_task_eq_ok hfirst
    · exact ih hothers task hmem

/-- Without the inputs nothing is bound before an executable. -/
theorem erase_inputs_of_readBindings
    (h : readBindings body (Registry.standard.inScope .beforeExecutable) = .ok before) :
    before.erase Keyword.inputs.text = .empty := by
  refine Dict.ext_get? fun key => ?_
  rw [Dict.get?_erase, Dict.get?_empty]
  split
  · rfl
  · next hinputs =>
    refine (readsAs_of_readBindings h).absent key fun keyword hmem htext => ?_
    rw [Registry.mem_inScope_standard] at hmem
    cases keyword with
    | inputs => exact hinputs htext.symm
    | _ => exact absurd hmem (by decide)

/-- Without the outputs and results nothing is bound after an executable. -/
theorem erase_results_of_readBindings
    (h : readBindings body (Registry.standard.inScope .afterExecutable) = .ok after) :
    (after.erase Keyword.outputs.text).erase Keyword.results.text = .empty := by
  refine Dict.ext_get? fun key => ?_
  rw [Dict.get?_erase, Dict.get?_erase, Dict.get?_empty]
  split
  · rfl
  · next hresults =>
    split
    · rfl
    · next houtputs =>
      refine (readsAs_of_readBindings h).absent key fun keyword hmem htext => ?_
      rw [Registry.mem_inScope_standard] at hmem
      cases keyword with
      | outputs => exact houtputs htext.symm
      | results => exact hresults htext.symm
      | _ => exact absurd hmem (by decide)

/-- The signature that is read for a body declares what stands there. -/
theorem declaredIn_of_signature_eq_ok {compiled : Signature}
    (h : signature namespaceName name body = .ok compiled) : compiled.DeclaredIn body := by
  obtain ⟨before, hbefore, hrest⟩ := bind_eq_ok_iff.mp h
  obtain ⟨after, hafter, hmade⟩ := bind_eq_ok_iff.mp hrest
  obtain rfl := Except.ok.inj hmade
  have hreadsBefore := readsAs_of_readBindings hbefore
  have hreadsAfter := readsAs_of_readBindings hafter
  obtain ⟨inputs, hinputs, hinputsDeclared⟩ :=
    Keyword.readsItems_inputs.exists_declares (hreadsBefore.read .inputs (by decide))
  obtain ⟨outputs, houtputs, houtputsDeclared⟩ :=
    Keyword.readsItems_outputs.exists_declares (hreadsAfter.read .outputs (by decide))
  obtain ⟨results, hresults, hresultsDeclared⟩ :=
    Keyword.readsItems_results.exists_declares (hreadsAfter.read .results (by decide))
  refine ⟨?_, ?_, ?_, erase_inputs_of_readBindings hbefore, erase_results_of_readBindings hafter⟩
  · dsimp only [inputsOf]
    rw [hinputs]
    exact hinputsDeclared
  · dsimp only [outputsOf]
    rw [houtputs]
    exact houtputsDeclared
  · dsimp only [resultsOf]
    rw [hresults]
    exact hresultsDeclared

/-- Whatever compilation accepts is well-formed and declares what stands in its body. -/
theorem wellFormed_of_executable_eq_ok {compiled : Executable}
    (h : executable settings file name body = .ok compiled) :
    compiled.signature.DeclaredIn body ∧ compiled.WellFormed := by
  obtain ⟨declared, hsignature, hcontent⟩ := exists_of_executable_eq_ok h
  have hkept := signature_of_content_eq_ok hcontent
  refine ⟨hkept ▸ declaredIn_of_signature_eq_ok hsignature, ?_⟩
  cases compiled with
  | operation signature action =>
    obtain ⟨_, _, _, haction⟩ := exists_declared_of_operation h
    exact fun _ _ => ofAction_of_readBindings haction
  | flow signature workflow =>
    obtain ⟨declared, main, handlers, parts, htasks⟩ := exists_parts_of_flow h
    have hnames := names_of_tasks_eq_ok parts.main_eq
    constructor
    · rw [htasks]
      intro hnone
      obtain ⟨rfl, -⟩ := List.append_eq_nil_iff.mp hnone
      exact parts.main_ne_nil (List.map_eq_nil_iff.mp hnames.symm)
    · rw [htasks]
      intro task hmem
      rcases List.mem_append.mp hmem with hmem | hmem
      · exact wellFormed_of_tasks_eq_ok parts.main_eq task hmem
      · exact wellFormed_of_tasks_eq_ok parts.handlers_eq task hmem

/-- A flow that deploys to hosts in turn and cleans up in parallel if that fails. -/
def deployBody : Mapping :=
  [("Inputs", .list [.text "hosts", .map [("port", .text "22")]]), ("results", .null),
    ("workflow", .map
      [("deploy", .map
        [("loop", .text " host  in hosts "), ("do", .map [("ops.deploy", .list [.text "host"])]),
          ("publish", .list [.text "log"]), ("break", .list [.text "FAILURE"])]),
      ("on_failure", .map
        [("clean", .map
          [("parallel_loop", .text "id , address in  known[0] "),
            ("do", .map [("ops.clean", .null)]), ("navigate", .map [])])])])]

/-- The flow is accepted, so all of it is well-formed. -/
theorem wellFormed_of_deployBody :
    ∃ compiled,
      executable {} ((SourceFile.empty "deploy.sl" "user" .flow).withImport "ops" "user.ops")
        "deploy" deployBody = .ok compiled ∧
      compiled.signature.DeclaredIn deployBody ∧ compiled.WellFormed := by
  obtain ⟨compiled, hcompiled⟩ := faultOf_eq_none_iff.mp
    (show faultOf (executable {}
      ((SourceFile.empty "deploy.sl" "user" .flow).withImport "ops" "user.ops")
      "deploy" deployBody) = none by decide +kernel)
  exact ⟨compiled, hcompiled, wellFormed_of_executable_eq_ok hcompiled⟩

end Compile

end Taskflow
