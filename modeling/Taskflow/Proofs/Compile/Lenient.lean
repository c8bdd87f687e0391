import Taskflow.Proofs.Compile.Accepted
import Taskflow.Proofs.Keyword.Refusals

/-!
# Strict and lenient compilation

The policy for references changes one step of a compilation, the resolving of the reference of a
task. The strict and the lenient run therefore go the same way until the strict one ends with the
fault of a reference, where the lenient one goes on. The main statement compares the outcomes of
both for an executable and for a file.
-/

namespace Taskflow

/-- A fault that does not concern a reference. -/
def Fault.IsLocal (fault : Fault) : Prop := fault.area ≠ .reference

/-- A fault of form concerns no reference. -/
theorem Fault.IsFormal.isLocal {fault : Fault} (h : fault.IsFormal) : fault.IsLocal := by
  intro hreference
  rw [Fault.IsFormal, hreference] at h
  cases h

/-- A missing part of the structure is no reference. -/
theorem Fault.isLocal_of_structural {fault : Fault} (h : fault.area = .structural) :
    fault.IsLocal := by
  intro hreference
  rw [hreference] at h
  cases h

variable {α β : Type}

/-- A run relaxes another one if it ends like the other one, unless that ends with the fault of a
reference, and never ends with such a fault itself. -/
structure Relaxes (strict lenient : Except Fault α) : Prop where
  /-- The relaxed run has no fault of a reference. -/
  isLocal : RefusesOnly Fault.IsLocal lenient
  /-- The runs agree up to a fault of a reference. -/
  agree : strict = lenient ∨ ∃ fault, strict = .error fault ∧ fault.area = .reference

namespace Relaxes

/-- A run without faults of references relaxes itself. -/
theorem refl {run : Except Fault α} (h : RefusesOnly Fault.IsLocal run) : Relaxes run run :=
  ⟨h, .inl rfl⟩

/-- A run with faults of form only relaxes itself. -/
theorem of_isFormal {run : Except Fault α} (h : RefusesOnly Fault.IsFormal run) :
    Relaxes run run := refl (h.mono fun _ => Fault.IsFormal.isLocal)

/-- Runs in two steps are related if their steps are. -/
theorem bind {strict lenient : Except Fault α} {nextStrict nextLenient : α → Except Fault β}
    (hrun : Relaxes strict lenient)
    (hnext : ∀ value, lenient = .ok value → Relaxes (nextStrict value) (nextLenient value)) :
    Relaxes (strict >>= nextStrict) (lenient >>= nextLenient) := by
  refine ⟨hrun.isLocal.bind fun value hvalue => (hnext value hvalue).isLocal, ?_⟩
  rcases hrun.agree with rfl | ⟨fault, rfl, hfault⟩
  · cases strict with
    | error fault => exact .inl rfl
    | ok value => exact (hnext value rfl).agree
  · exact .inr ⟨fault, rfl, hfault⟩

/-- What is made of the results does not matter. -/
theorem map {strict lenient : Except Fault α} (hrun : Relaxes strict lenient) (f : α → β) :
    Relaxes (strict >>= fun value => .ok (f value)) (lenient >>= fun value => .ok (f value)) :=
  hrun.bind fun value _ => refl (.ok (f value))

/-- Running item by item is related if every item is. -/
theorem mapM {strict lenient : α → Except Fault β}
    (h : ∀ item, Relaxes (strict item) (lenient item)) (items : List α) :
    Relaxes (items.mapM strict) (items.mapM lenient) := by
  induction items with
  | nil => exact refl (.ok [])
  | cons item rest ih =>
    rw [List.mapM_cons, List.mapM_cons]
    exact (h item).bind fun first _ => ih.map (first :: ·)

end Relaxes

/-- A reference that does not resolve is a fault only of the strict policy. -/
theorem Reference.relaxes_resolveWith (reference : String) (imports : Imports) :
    Relaxes (resolveWith .strict reference imports) (resolveWith .lenient reference imports) := by
  rw [resolveWith_strict, resolveWith_lenient]
  refine ⟨.ok _, ?_⟩
  unfold resolve
  split
  · exact .inr ⟨_, rfl, rfl⟩
  · split
    · exact .inr ⟨_, rfl, rfl⟩
    · exact .inl rfl

namespace Compile

variable {settings : Settings} {imports : Imports} {name target : String} {body : Mapping}

/-- What the tasks of a file share under a policy. -/
def policyContext (settings : Settings) (imports : Imports) (policy : ReferencePolicy) : Context :=
  ⟨settings.withPolicy policy, imports⟩

/-- A task that names no reference misses a part of its structure. -/
theorem taskReference_isLocal (name : String) (body : Mapping) :
    RefusesOnly Fault.IsLocal (taskReference name body) := by
  unfold taskReference
  split
  · exact .ok _
  · exact .error (Fault.isLocal_of_structural rfl)

/-- Compiling a task follows the policy in one step only, the resolving of its reference. -/
theorem relaxes_task (settings : Settings) (imports : Imports) (name : String) (body : Mapping)
    (next : Option String) (target : String) :
    Relaxes (task (policyContext settings imports .strict) name body next target)
      (task (policyContext settings imports .lenient) name body next target) := by
  unfold task
  split
  · exact .refl (.error (Fault.isLocal_of_structural rfl))
  · refine (Relaxes.of_isFormal (checkKeys_isFormal body taskKeywords _ name)).bind fun _ _ => ?_
    refine (Relaxes.of_isFormal (readBindings_isFormal body _)).bind fun before _ => ?_
    refine (Relaxes.of_isFormal (readBindings_isFormal body _)).bind fun after _ => ?_
    refine (Relaxes.refl (taskReference_isLocal name body)).bind fun reference _ => ?_
    exact (Reference.relaxes_resolveWith reference imports).map _

/-- Compiling tasks in order follows the policy in the references of the tasks only. -/
theorem relaxes_tasks (settings : Settings) (imports : Imports) (target : String)
    (entries : Mapping) :
    Relaxes (tasks (policyContext settings imports .strict) target entries)
      (tasks (policyContext settings imports .lenient) target entries) := by
  induction entries with
  | nil => exact .refl (.ok [])
  | cons entry rest ih =>
    obtain ⟨name, value⟩ := entry
    refine (Relaxes.of_isFormal (value.asBody_isFormal name)).bind fun body _ => ?_
    refine (relaxes_task settings imports name body _ target).bind fun first _ => ?_
    exact ih.map (first :: ·)

/-- A map that must be filled is no reference. -/
theorem filledMap_isLocal {key : String} {missing : Fault} (hmissing : missing.IsLocal)
    (body : Mapping) : RefusesOnly Fault.IsLocal (filledMap key missing body) := by
  unfold filledMap
  split
  · exact .ok _
  · exact .error (Fault.IsFormal.isLocal rfl)
  · exact .error hmissing

/-- A branch for failures that cannot be read has the wrong form. -/
theorem failureEntries_isFormal (declared : Mapping) :
    RefusesOnly Fault.IsFormal (failureEntries declared) := by
  unfold failureEntries
  split
  · exact .ok []
  · exact Value.asBody_isFormal _ _

/-- Compiling main tasks follows the policy in the references of the tasks only. -/
theorem relaxes_mainTasks (settings : Settings) (imports : Imports) (target : String)
    (entries : Mapping) :
    Relaxes (mainTasks (policyContext settings imports .strict) target entries)
      (mainTasks (policyContext settings imports .lenient) target entries) := by
  unfold mainTasks
  split
  · exact .refl (.error (Fault.isLocal_of_structural rfl))
  · exact relaxes_tasks settings imports target entries

/-- Compiling the tasks of a flow follows the policy in the references of the tasks only. -/
theorem relaxes_workflow (settings : Settings) (imports : Imports) (name : String)
    (body : Mapping) :
    Relaxes (workflow (policyContext settings imports .strict) name body)
      (workflow (policyContext settings imports .lenient) name body) := by
  have hdeclared : RefusesOnly Fault.IsLocal (declaredTasks name body) :=
    filledMap_isLocal (Fault.isLocal_of_structural rfl) body
  refine (Relaxes.refl hdeclared).bind fun declared _ => ?_
  refine (Relaxes.of_isFormal (failureEntries_isFormal declared)).bind fun failures _ => ?_
  refine (relaxes_tasks settings imports failureResult failures).bind fun handlers _ => ?_
  exact (relaxes_mainTasks settings imports _ (mainEntries declared)).map _

/-- An action has no references. -/
theorem action_isLocal (name : String) (body : Mapping) :
    RefusesOnly Fault.IsLocal (action name body) := by
  have hdeclared : RefusesOnly Fault.IsLocal (declaredAction name body) :=
    filledMap_isLocal (Fault.isLocal_of_structural rfl) body
  refine hdeclared.bind fun declared _ => ?_
  refine ((checkKeys_isFormal declared _ _ _).mono fun _ => Fault.IsFormal.isLocal).bind
    fun _ _ => ?_
  exact (readBindings_isFormal declared _).mono fun _ => Fault.IsFormal.isLocal

/-- A signature has faults of form only. -/
theorem signature_isFormal (namespaceName name : String) (body : Mapping) :
    RefusesOnly Fault.IsFormal (signature namespaceName name body) := by
  refine (readBindings_isFormal body _).bind fun before _ => ?_
  exact (readBindings_isFormal body _).bind fun after _ => .ok _

/-- Compiling an executable follows the policy in the references of its tasks only. -/
theorem relaxes_executable (settings : Settings) (file : SourceFile) (name : String)
    (body : Mapping) :
    Relaxes (executable (settings.withPolicy .strict) file name body)
      (executable (settings.withPolicy .lenient) file name body) := by
  unfold executable
  split
  · exact .refl (.error (Fault.isLocal_of_structural rfl))
  · refine (Relaxes.of_isFormal (checkKeys_isFormal body executableKeywords _ name)).bind
      fun _ _ => ?_
    refine (Relaxes.of_isFormal (signature_isFormal _ name body)).bind fun declared _ => ?_
    unfold content
    cases file.kind with
    | flow => exact (relaxes_workflow settings file.imports name body).map _
    | operations => exact (Relaxes.refl (action_isLocal name body)).map _
    | other kind => exact .refl (.error (Fault.isLocal_of_structural rfl))

/-- Compiling a file follows the policy in the references of its tasks only. -/
theorem relaxes_file (settings : Settings) (source : SourceFile) :
    Relaxes (Compile.file (settings.withPolicy .strict) source)
      (Compile.file (settings.withPolicy .lenient) source) := by
  refine Relaxes.mapM (fun entry => ?_) source.executables
  obtain ⟨name, body⟩ := entry
  exact relaxes_executable settings source name body

/-- The reference of a task is the strict resolution of what stands under its keyword, where that
succeeds, and otherwise what is written there. -/
def KeepsReference (imports : Imports) (entry : String × Value) (compiled : Task) : Prop :=
  ∃ body reference arguments, entry.2 = .map body ∧
    Mapping.lookup? body "do" = some (.map [(reference, arguments)]) ∧ compiled.name = entry.1 ∧
    (∀ id, Reference.resolve reference imports = .ok id → compiled.referenceId = id) ∧
    ∀ fault, Reference.resolve reference imports = .error fault → compiled.referenceId = reference

/-- A task compiled under the lenient policy keeps a reference that does not resolve. -/
theorem keepsReference_of_compiledFrom {entry : String × Value} {compiled : Task}
    (h : CompiledFrom (policyContext settings imports .lenient) entry compiled) :
    KeepsReference imports entry compiled := by
  obtain ⟨body, next, target, hbody, htask⟩ := h
  obtain ⟨hne, _, _, _, reference, referenceId, _, _, hreference, hid, rfl⟩ :=
    exists_of_task_eq_ok htask
  have hmap : entry.2 = .map body :=
    (Value.asBody_eq_ok_iff.mp hbody).resolve_right fun hnull => hne hnull.2
  obtain ⟨arguments, hlookup⟩ := lookup?_of_taskReference_eq_ok hreference
  have hkept : (Reference.resolve reference imports).toOption.getD reference = referenceId := by
    rw [policyContext, Settings.withPolicy, Reference.resolveWith_lenient] at hid
    exact Except.ok.inj hid
  refine ⟨body, reference, arguments, hmap, hlookup, rfl, ?_, ?_⟩
  · intro id hresolve
    rw [← hkept, hresolve]
    rfl
  · intro fault hresolve
    rw [← hkept, hresolve]
    rfl

/-- What the lenient outcome of a compilation owes to the strict one. -/
structure OnlyDropsReferenceFaults (strict lenient : Except Fault α) : Prop where
  /-- The lenient outcome is no fault of a reference. -/
  not_reference : ∀ fault, lenient = .error fault → fault.area ≠ .reference
  /-- A strict result is the lenient one. -/
  keeps_result : ∀ result, strict = .ok result → lenient = .ok result
  /-- Any other strict fault is the lenient one. -/
  keeps_fault : ∀ fault, strict = .error fault → fault.area ≠ .reference →
    lenient = .error fault

/-- A run that relaxes another one drops its faults of references and nothing else. -/
theorem onlyDropsReferenceFaults_of_relaxes {strict lenient : Except Fault α}
    (h : Relaxes strict lenient) : OnlyDropsReferenceFaults strict lenient := by
  refine ⟨h.isLocal, fun result hresult => ?_, fun fault hfault hlocal => ?_⟩
  · rcases h.agree with heq | ⟨fault, hfault, _⟩
    · exact heq ▸ hresult
    · rw [hfault] at hresult
      cases hresult
  · rcases h.agree with heq | ⟨other, hother, hreference⟩
    · exact heq ▸ hfault
    · obtain rfl : other = fault := Except.error.inj (hother.symm.trans hfault)
      exact absurd hreference hlocal

/-- Only a flow is compiled by the policy. -/
theorem executable_withPolicy_eq (settings : Settings) {file : SourceFile}
    (hkind : file.kind ≠ .flow) (name : String) (body : Mapping)
    (policy other : ReferencePolicy) :
    executable (settings.withPolicy policy) file name body =
      executable (settings.withPolicy other) file name body := by
  unfold executable content
  cases hfile : file.kind with
  | flow => exact absurd hfile hkind
  | operations => rfl
  | other kind => rfl

/-- The lenient policy gives the same executable, file or fault as the strict one, except that it
has no faults of references. Where it accepts what the strict one refuses, the strict fault is
one of a reference, and every task of the flow has the strict resolution of its reference or, if
there is none, the reference as written. -/
theorem lenient_only_drops_reference_faults (settings : Settings) (file : SourceFile)
    (name : String) (body : Mapping) :
    OnlyDropsReferenceFaults (executable (settings.withPolicy .strict) file name body)
        (executable (settings.withPolicy .lenient) file name body) ∧
      OnlyDropsReferenceFaults (Compile.file (settings.withPolicy .strict) file)
        (Compile.file (settings.withPolicy .lenient) file) ∧
      ∀ compiled fault,
        executable (settings.withPolicy .lenient) file name body = .ok compiled →
        executable (settings.withPolicy .strict) file name body = .error fault →
        fault.area = .reference ∧
          ∃ signature workflow declared, compiled = .flow signature workflow ∧
            body.lookup? "workflow" = some (.map declared) ∧
            List.Forall₂ (KeepsReference file.imports)
              (mainEntries declared ++ handlerEntries declared) workflow.tasks := by
  have hrelaxes := relaxes_executable settings file name body
  refine ⟨onlyDropsReferenceFaults_of_relaxes hrelaxes,
    onlyDropsReferenceFaults_of_relaxes (relaxes_file settings file), ?_⟩
  intro compiled fault hlenient hstrict
  have hne : executable (settings.withPolicy .strict) file name body ≠
      executable (settings.withPolicy .lenient) file name body := by
    rw [hlenient, hstrict]
    intro heq
    cases heq
  have hreference : fault.area = .reference := by
    rcases hrelaxes.agree with heq | ⟨other, hother, harea⟩
    · exact absurd heq hne
    · obtain rfl : other = fault := Except.error.inj (hother.symm.trans hstrict)
      exact harea
  have hkind : file.kind = .flow :=
    Decidable.byContradiction fun hkind => hne (executable_withPolicy_eq settings hkind ..)
  obtain ⟨signature, workflow, rfl⟩ := exists_flow_of_kind hkind hlenient
  obtain ⟨declared, main, handlers, parts, htasks⟩ := exists_parts_of_flow hlenient
  refine ⟨hreference, signature, workflow, declared, rfl, parts.declared_eq, ?_⟩
  rw [htasks]
  exact parts.compiledFrom.imp fun _ _ => keepsReference_of_compiledFrom

/-- A file that imports one alias only. -/
def opsFile : SourceFile := (SourceFile.empty "deploy.sl" "user" .flow).withImport "ops" "user.ops"

/-- Two tasks and a handler, of which only the second task invokes what is imported. -/
def unimportedEntries : Mapping :=
  [("fetch", .map [("Do", .map [("http.get", .list [])])]),
    ("deploy", .map [("do", .map [("ops.deploy", .null)])]),
    ("on_failure", .map [("report", .map [("do", .map [("report", .list [])])])])]

/-- The handler is refused first under the strict policy, and all three references are kept under
the lenient one. -/
theorem lenient_keeps_unimported_references :
    executable (Settings.withPolicy {} .strict) opsFile "release"
        [("workflow", .map unimportedEntries)] = .error (.missingAlias "report") ∧
      ∃ signature workflow,
        executable (Settings.withPolicy {} .lenient) opsFile "release"
          [("workflow", .map unimportedEntries)] = .ok (.flow signature workflow) ∧
        List.Forall₂ (KeepsReference opsFile.imports)
          [("fetch", .map [("Do", .map [("http.get", .list [])])]),
            ("deploy", .map [("do", .map [("ops.deploy", .null)])]),
            ("report", .map [("do", .map [("report", .list [])])])] workflow.tasks := by
  have hstrict : executable (Settings.withPolicy {} .strict) opsFile "release"
      [("workflow", .map unimportedEntries)] = .error (.missingAlias "report") :=
    faultOf_eq_some_iff.mp (by decide +kernel)
  obtain ⟨compiled, hlenient⟩ := faultOf_eq_none_iff.mp
    (show faultOf (executable (Settings.withPolicy {} .lenient) opsFile "release"
      [("workflow", .map unimportedEntries)]) = none by decide +kernel)
  obtain ⟨_, _, hdrops⟩ := lenient_only_drops_reference_faults {} opsFile "release"
    [("workflow", .map unimportedEntries)]
  obtain ⟨_, signature, workflow, declared, rfl, hdeclared, hkept⟩ :=
    hdrops compiled _ hlenient hstrict
  obtain rfl : unimportedEntries = declared := Value.map.inj (Option.some.inj hdeclared)
  exact ⟨hstrict, signature, workflow, hlenient, hkept⟩

end Compile

end Taskflow
