import Taskflow.Wire.Executable
import Taskflow.Wire.Settings
import Taskflow.Proofs.Compile.WellFormed
import Taskflow.Proofs.Wire.RoundTrip

/-!
# The hand-off loses nothing

A compiled executable is written for the next stage and read there. Loops are the only part that
reading may refuse, and whatever compilation accepts has valid loops only. The main statement says
that accepted executables come back, as do bindings, loop statements, settings and file kinds, and
that settings come back even without the fields that have their presets.
-/

namespace Taskflow

namespace Compile

variable {settings : Settings} {file : SourceFile} {name key : String} {body : Mapping}
  {statement : LoopStatement}

/-- A loop that may stand before a task is valid. -/
theorem valid_of_beforeTask (h : Binding.BeforeTask key (.loop statement)) : statement.Valid := by
  cases h with
  | loop _ hcanonical => exact hcanonical.valid
  | parallelLoop _ hcanonical => exact hcanonical.valid

/-- The loops of well-formed tasks are valid. -/
theorem haveValidLoops_of_wellFormed {task : Task} (h : task.WellFormed) :
    ∀ bindings ∈ [task.before, task.after], HaveValidLoops bindings := by
  intro bindings hbindings key statement hloop
  rcases List.mem_cons.mp hbindings with rfl | hbindings
  · exact valid_of_beforeTask (h.before key _ hloop)
  · obtain rfl := List.mem_singleton.mp hbindings
    cases h.after key _ hloop

/-- Where nothing is bound, there are no loops. -/
theorem haveValidLoops_empty : HaveValidLoops .empty := nofun

/-- The loops of an accepted executable are valid. -/
theorem haveValidLoops_of_executable_eq_ok {compiled : Executable}
    (h : executable settings file name body = .ok compiled) :
    ∀ bindings ∈ compiled.allBindings, HaveValidLoops bindings := by
  obtain ⟨declared, hsignature, hcontent⟩ := exists_of_executable_eq_ok h
  have hdeclared := declaredIn_of_signature_eq_ok hsignature
  rw [← signature_of_content_eq_ok hcontent] at hdeclared
  -- What a signature declares has fields of its own, so its maps of bindings are empty.
  refine List.forall_mem_cons.mpr ⟨hdeclared.before_eq ▸ haveValidLoops_empty,
    List.forall_mem_cons.mpr ⟨hdeclared.after_eq ▸ haveValidLoops_empty, ?_⟩⟩
  cases compiled with
  | operation signature action =>
    obtain ⟨_, _, _, haction⟩ := exists_declared_of_operation h
    refine List.forall_mem_singleton.mpr fun key statement hget => ?_
    cases ofAction_of_readBindings haction hget
  | flow signature workflow =>
    obtain ⟨_, main, handlers, parts, htasks⟩ := exists_parts_of_flow h
    intro bindings hbindings
    obtain ⟨task, htask, hbindings⟩ := List.mem_flatMap.mp hbindings
    rw [htasks] at htask
    rcases List.mem_append.mp htask with hmain | hhandler
    · have hwell := wellFormed_of_tasks_eq_ok parts.main_eq task hmain
      exact haveValidLoops_of_wellFormed hwell bindings hbindings
    · have hwell := wellFormed_of_tasks_eq_ok parts.handlers_eq task hhandler
      exact haveValidLoops_of_wellFormed hwell bindings hbindings

end Compile

namespace Wire

variable {α : Type}

/-- A signature comes back if its loops are valid. -/
theorem comesBack_signature {signature : Signature}
    (hbefore : HaveValidLoops signature.before) (hafter : HaveValidLoops signature.after) :
    ComesBack ofSignature signature? signature := by
  have hinputs := comesBack_list fun item (_ : item ∈ signature.inputs) => comesBack_input item
  have houtputs := comesBack_list fun item (_ : item ∈ signature.outputs) => comesBack_output item
  have hresults := comesBack_list fun item (_ : item ∈ signature.results) => comesBack_result item
  have hbefore := comesBack_bindings .setAside hbefore
  have hafter := comesBack_bindings .setAside hafter
  refine comesBack_record rfl (fun _ => rfl) rfl (by decide) ?_ ?_
  · simp [(comesBack_text _).readable, hinputs.readable, houtputs.readable, hresults.readable,
      hbefore.readable, hafter.readable]
  · simp [text?, hinputs.read_eq, houtputs.read_eq, hresults.read_eq, hbefore.read_eq,
      hafter.read_eq]

/-- A task comes back if its loops are valid. -/
theorem comesBack_task {task : Task}
    (hvalid : ∀ bindings ∈ [task.before, task.after], HaveValidLoops bindings) :
    ComesBack ofTask task? task := by
  have hbefore := comesBack_bindings .setAside (hvalid task.before (by simp))
  have hafter := comesBack_bindings .setAside (hvalid task.after (by simp))
  have hnavigation := comesBack_navigation task.navigation
  refine comesBack_record rfl (fun _ => rfl) rfl (by decide) ?_ ?_
  · simp [(comesBack_text _).readable, hbefore.readable, hafter.readable, hnavigation.readable]
  · simp [text?, hbefore.read_eq, hafter.read_eq, hnavigation.read_eq]

/-- A workflow comes back if the loops of its tasks are valid. -/
theorem comesBack_workflow {workflow : Workflow}
    (hvalid : ∀ bindings ∈ workflow.tasks.flatMap fun task => [task.before, task.after],
      HaveValidLoops bindings) :
    ComesBack ofWorkflow workflow? workflow := by
  have htasks := comesBack_list fun task (htask : task ∈ workflow.tasks) =>
    comesBack_task fun bindings hbindings =>
      hvalid bindings (List.mem_flatMap.mpr ⟨task, htask, hbindings⟩)
  refine comesBack_record rfl (fun _ => rfl) rfl (by decide) ?_ ?_
  · simp [htasks.readable]
  · simp [htasks.read_eq]

/-- An action comes back if its loops are valid. -/
theorem comesBack_action {action : Bindings} (hvalid : HaveValidLoops action) :
    ComesBack ofAction action? action := by
  have hbindings := comesBack_bindings .setAside hvalid
  refine comesBack_record rfl (fun _ => rfl) rfl (by decide) ?_ ?_
  · simp [hbindings.readable]
  · simp [hbindings.read_eq]

/-- Behind the tag of an executable its signature and what it runs come back. -/
theorem exists_rest_of_tagged {write : α → Json} {read? : Json → Option α}
    {signature : Signature} {part : α} (kind name : String) (hname : name ≠ "signature")
    (htag : kindTag ∉ ["signature", name])
    (hsignature : ComesBack ofSignature signature? signature) (hpart : ComesBack write read? part) :
    ∃ rest, tagged? kindTag (.object [(kindTag, .text kind), ("signature", ofSignature signature),
        (name, write part)]) = some (.text kind, rest) ∧
      signatureAnd? name read? rest = some (signature, part) := by
  have hrest : ComesBack
      (fun pair => .object [("signature", ofSignature pair.1), (name, write pair.2)])
      (signatureAnd? name read?) (signature, part) := by
    refine comesBack_record rfl (fun _ => rfl) rfl (by simpa using hname.symm) ?_ ?_
    · simp [hsignature.readable, hpart.readable]
    · simp [hsignature.read_eq, hpart.read_eq]
  exact ⟨_, tagged?_cons htag rfl hrest.readable, hrest.read_eq⟩

/-- An executable comes back if its loops are valid. -/
theorem executable?_ofExecutable {executable : Executable}
    (hvalid : ∀ bindings ∈ executable.allBindings, HaveValidLoops bindings) :
    executable? (ofExecutable executable) = some executable := by
  obtain ⟨hbefore, hafter, hcontent⟩ :
      HaveValidLoops executable.signature.before ∧ HaveValidLoops executable.signature.after ∧ _ :=
    by simpa only [Executable.allBindings, List.forall_mem_cons] using hvalid
  cases executable with
  | operation signature action =>
    have hsignature : ComesBack ofSignature signature? signature :=
      comesBack_signature hbefore hafter
    have haction := comesBack_action (List.forall_mem_singleton.mp hcontent)
    obtain ⟨rest, htag, hrest⟩ :=
      exists_rest_of_tagged "operation" "action" (by decide) (by decide) hsignature haction
    have hplace : tagIndex? .inPlace executableKinds (.text "operation") = some 0 := rfl
    rw [executable?, ofExecutable, htag]
    simp [hplace, hrest]
  | flow signature workflow =>
    have hsignature : ComesBack ofSignature signature? signature :=
      comesBack_signature hbefore hafter
    have hworkflow := comesBack_workflow hcontent
    obtain ⟨rest, htag, hrest⟩ :=
      exists_rest_of_tagged "flow" "workflow" (by decide) (by decide) hsignature hworkflow
    have hplace : tagIndex? .inPlace executableKinds (.text "flow") = some 1 := rfl
    rw [executable?, ofExecutable, htag]
    simp [hplace, hrest]

/-- A policy comes back. -/
theorem comesBack_policy (policy : ReferencePolicy) : ComesBack ofPolicy policy? policy := by
  cases policy <;> exact ⟨rfl, rfl⟩

/-- Texts come back. -/
theorem comesBack_texts (texts : List String) :
    ComesBack (fun texts => .array (texts.map Json.text)) (listOf? text?) texts :=
  comesBack_list fun text _ => comesBack_text text

/-- A tree without the members of the given names. -/
def without (dropped : List String) : Json → Json
  | .object members => .object (members.filter fun member => !dropped.contains member.1)
  | tree => tree

/-- Without any names the tree stays as it is. -/
theorem without_nil (tree : Json) : without [] tree = tree := by
  cases tree with
  | object members => simp [without]
  | _ => rfl

/-- Of an object that has the members of just these names, the fields that were not dropped are
left. -/
theorem fields?_without {names dropped : List String} {members : List (String × Json)}
    (hnames : members.map Prod.fst = names) (hdistinct : names.Nodup) :
    fields? names (without dropped (.object members)) =
      some (members.map fun member => if member.1 ∈ dropped then none else some member.2) := by
  subst hnames
  rw [without, fields?, List.mapM_map]
  refine mapM_eq_some fun member hmember => ?_
  have hkept := List.filter_sublist
    (p := fun member : String × Json => !dropped.contains member.1) (l := members)
  by_cases hdropped : member.1 ∈ dropped
  · rw [if_pos hdropped, Function.comp_apply, field?, occurrences_eq_nil]
    intro hmem
    obtain ⟨other, hother, heq⟩ := List.mem_map.mp hmem
    rw [List.mem_filter, heq] at hother
    simp [hdropped] at hother
  · rw [if_neg hdropped]
    refine field?_of_occurrences (occurrences_eq_of_mem (hdistinct.sublist (hkept.map _)) ?_)
    exact List.mem_filter.mpr ⟨hmember, by simpa using hdropped⟩

/-- A field comes back even if it was dropped, as long as it then has its preset. -/
theorem fieldOr?_dropped {write : α → Json} {read? : Json → Option α} {value preset : α}
    {name : String} {dropped : List String} (h : ComesBack write read? value)
    (hpreset : name ∈ dropped → value = preset) :
    fieldOr? preset read? (if name ∈ dropped then none else some (write value)) = some value := by
  split
  · next hdropped => rw [fieldOr?, hpreset hdropped]
  · exact h.read_eq

/-- The fields of settings that were dropped have their presets. -/
structure HasPresets (settings : Settings) (dropped : List String) : Prop where
  /-- The policy has its preset if it was dropped. -/
  policy : "reference_policy" ∈ dropped →
    settings.referencePolicy = ({} : Settings).referencePolicy
  /-- The further keys of executables have their preset if they were dropped. -/
  executableKeywords : "extra_executable_keywords" ∈ dropped →
    settings.extraExecutableKeywords = ({} : Settings).extraExecutableKeywords
  /-- The further keys of tasks have their preset if they were dropped. -/
  taskKeywords : "extra_task_keywords" ∈ dropped →
    settings.extraTaskKeywords = ({} : Settings).extraTaskKeywords

/-- Settings come back without any fields that have their presets. -/
theorem settings?_without {settings : Settings} {dropped : List String}
    (h : HasPresets settings dropped) :
    settings? (without dropped (ofSettings settings)) = some settings := by
  have hfields : optionalFields? settingsFields (without dropped (ofSettings settings)) =
      some [if "reference_policy" ∈ dropped then none
          else some (ofPolicy settings.referencePolicy),
        if "extra_executable_keywords" ∈ dropped then none
          else some (.array (settings.extraExecutableKeywords.map Json.text)),
        if "extra_task_keywords" ∈ dropped then none
          else some (.array (settings.extraTaskKeywords.map Json.text))] :=
    fields?_without rfl (by decide)
  have hpolicy := fieldOr?_dropped (comesBack_policy settings.referencePolicy) h.policy
  have hexecutable :=
    fieldOr?_dropped (comesBack_texts settings.extraExecutableKeywords) h.executableKeywords
  have htask := fieldOr?_dropped (comesBack_texts settings.extraTaskKeywords) h.taskKeywords
  rw [settings?, hfields]
  simp only [Option.bind_eq_bind, Option.bind_some, hpolicy, hexecutable, htask]
  rfl

/-- A file kind comes back. -/
theorem fileKind?_ofFileKind (kind : FileKind) : fileKind? (ofFileKind kind) = some kind := by
  cases kind <;> rfl

/-- What is handed on is read as what was written: compiled executables, bindings and statements
whose loops were built, settings with or without the fields that have their presets, and file
kinds. -/
theorem handOff_comesBack :
    (∀ settings file name body compiled,
      Compile.executable settings file name body = .ok compiled →
        executable? (ofExecutable compiled) = some compiled) ∧
    (∀ arrival binding, (∀ statement, binding = .loop statement → statement.Built) →
      binding? arrival (ofBinding binding) = some binding) ∧
    (∀ arrival statement, LoopStatement.Built statement →
      loop? arrival (ofLoop statement) = some statement) ∧
    (∀ settings, settings? (ofSettings settings) = some settings ∧
      ∀ dropped, HasPresets settings dropped →
        settings? (without dropped (ofSettings settings)) = some settings) ∧
    ∀ kind, fileKind? (ofFileKind kind) = some kind := by
  refine ⟨?_, ?_, ?_, fun settings => ⟨?_, fun _ => settings?_without⟩, fileKind?_ofFileKind⟩
  · intro settings file name body compiled h
    exact executable?_ofExecutable (Compile.haveValidLoops_of_executable_eq_ok h)
  · intro arrival binding hbuilt
    have hvalid : ∀ statement, binding = .loop statement → statement.Valid :=
      fun statement heq => LoopStatement.built_iff_valid.mp (hbuilt statement heq)
    exact (comesBack_binding arrival hvalid).read_eq
  · intro arrival statement hbuilt
    exact (comesBack_loop arrival (LoopStatement.built_iff_valid.mp hbuilt)).read_eq
  · have hnone : HasPresets settings [] := ⟨nofun, nofun, nofun⟩
    simpa only [without_nil] using settings?_without hnone

/-- A flow with loops of both kinds comes back, as do a loop over a map behind its tag and settings
that only name a key for tasks. -/
theorem handOff_of_deployBody :
    (∃ compiled,
      Compile.executable {}
        ((SourceFile.empty "deploy.sl" "user" .flow).withImport "ops" "user.ops") "deploy"
        Compile.deployBody = .ok compiled ∧
      executable? (ofExecutable compiled) = some compiled) ∧
    (LoopStatement.overMap "id" "address" "known[0]" true =
        .ok (.mapFor "id" "address" "known[0]" true) ∧
      binding? .setAside (ofBinding (.loop (.mapFor "id" "address" "known[0]" true))) =
        some (.loop (.mapFor "id" "address" "known[0]" true)) ∧
      loop? .inPlace (ofLoop (.mapFor "id" "address" "known[0]" true)) =
        some (.mapFor "id" "address" "known[0]" true)) ∧
    HasPresets ⟨.strict, [], ["owner"]⟩ ["extra_executable_keywords", "reference_policy"] ∧
    settings? (without ["extra_executable_keywords", "reference_policy"]
      (ofSettings ⟨.strict, [], ["owner"]⟩)) = some ⟨.strict, [], ["owner"]⟩ := by
  obtain ⟨hexecutable, hbinding, hloop, hsettings, -⟩ := handOff_comesBack
  obtain ⟨compiled, hcompiled⟩ := faultOf_eq_none_iff.mp
    (show faultOf (Compile.executable {}
      ((SourceFile.empty "deploy.sl" "user" .flow).withImport "ops" "user.ops") "deploy"
      Compile.deployBody) = none by decide +kernel)
  have hmade : LoopStatement.overMap "id" "address" "known[0]" true =
      .ok (.mapFor "id" "address" "known[0]" true) := by decide
  have hpresets : HasPresets ⟨.strict, [], ["owner"]⟩
      ["extra_executable_keywords", "reference_policy"] :=
    ⟨fun _ => rfl, fun _ => rfl, fun h => absurd h (by decide)⟩
  refine ⟨⟨compiled, hcompiled, hexecutable _ _ _ _ _ hcompiled⟩, ⟨hmade, ?_, ?_⟩, hpresets,
    (hsettings _).2 _ hpresets⟩
  · refine hbinding _ _ fun statement heq => ?_
    obtain rfl := Binding.loop.inj heq
    exact .mapFor hmade
  · exact hloop _ _ (.mapFor hmade)

end Wire

end Taskflow
