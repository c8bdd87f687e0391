import Taskflow.Proofs.Flow.Navigation

/-!
# Following targets by name

A target is the name of a task or the end of the flow, and it is followed by looking for the
first task of that name. So a target leads astray where an earlier task has the name that was
meant for a later one, or where a task is named like the end of the flow. The main statement says
exactly when the default targets of a main task lead where they were meant to.
-/

namespace Taskflow

namespace Workflow

variable {workflow : Workflow} {names : List String} {name : String}

/-- The position of the first task of the given name. -/
def position? (workflow : Workflow) (name : String) : Option Nat :=
  workflow.tasks.findIdx? (·.name == name)

/-- A name leads to a position if the task found under it is the one that stands there, and
nowhere if none is found. -/
def LeadsTo (workflow : Workflow) (name : String) (position : Option Nat) : Prop :=
  workflow.position? name = position ∧
    workflow.task? name = position.bind (workflow.tasks[·]?)

/-- The task of a name is the one at its position. -/
theorem leadsTo_iff {position : Option Nat} :
    workflow.LeadsTo name position ↔ workflow.position? name = position := by
  constructor
  · exact And.left
  · rintro rfl
    exact ⟨rfl, List.find?_eq_bind_findIdx?_getElem?⟩

private theorem position?_eq_findIdx?_names (hnames : workflow.tasks.map Task.name = names) :
    workflow.position? name = names.findIdx? (· == name) := by
  rw [← hnames, List.findIdx?_map]
  rfl

/-- A name leads nowhere exactly if no task has it. -/
theorem leadsTo_none_iff (hnames : workflow.tasks.map Task.name = names) :
    workflow.LeadsTo name none ↔ name ∉ names := by
  rw [leadsTo_iff, position?_eq_findIdx?_names hnames, List.findIdx?_eq_none_iff]
  constructor
  · intro hall hmem
    simpa using hall name hmem
  · intro hmem other hother
    simpa using fun heq : other = name => hmem (heq ▸ hother)

/-- The name of a task leads to it exactly if no task before it has that name too. -/
theorem leadsTo_some_iff {position : Nat} (hnames : workflow.tasks.map Task.name = names)
    (hname : names[position]? = some name) :
    workflow.LeadsTo name (some position) ↔ name ∉ names.take position := by
  obtain ⟨hlt, hat⟩ := List.getElem?_eq_some_iff.mp hname
  rw [leadsTo_iff, position?_eq_findIdx?_names hnames, List.findIdx?_eq_some_iff_getElem]
  constructor
  · rintro ⟨_, _, hearlier⟩ hmem
    obtain ⟨i, hi, heq⟩ := List.mem_take_iff_getElem.mp hmem
    exact hearlier i (by omega) (by simpa using heq)
  · intro hmem
    refine ⟨hlt, by simpa using hat, fun i hi heq => hmem ?_⟩
    exact List.mem_take_iff_getElem.mpr ⟨i, by omega, by simpa using heq⟩

/-- Among distinct names none occurs before its own position. -/
theorem not_mem_take_of_nodup {position : Nat} (hnames : names.Nodup)
    (hname : names[position]? = some name) : name ∉ names.take position := by
  intro hmem
  obtain ⟨hlt, hat⟩ := List.getElem?_eq_some_iff.mp hname
  obtain ⟨i, hi, heq⟩ := List.mem_take_iff_getElem.mp hmem
  have hsame : i = position := (List.getElem_inj hnames).mp (heq.trans hat.symm)
  omega

end Workflow

namespace Compile

variable {settings : Settings} {file : SourceFile} {name : String} {body declared : Mapping}
  {signature : Signature} {workflow : Workflow}

/-- Where success of the main task at a position is meant to lead: to the next main task, or
nowhere behind the last one. -/
def successPosition? (declared : Mapping) (i : Nat) : Option Nat :=
  if i + 1 < (mainEntries declared).length then some (i + 1) else none

/-- Where failure of a main task is meant to lead: to the first task behind the main tasks, or
nowhere without a branch for failures. -/
def failurePosition? (declared : Mapping) : Option Nat :=
  (handlerEntries declared).head?.map fun _ => (mainEntries declared).length

/-- Main entries have distinct names if the declared ones have. -/
theorem nodup_keys_mainEntries (hkeys : declared.keys.Nodup) :
    (mainEntries declared).keys.Nodup :=
  List.Nodup.sublist (List.filter_sublist.map Prod.fst) hkeys

/-- Success leads to the next main task in any case, and to the end unless some task is named
like it. -/
theorem leadsTo_success_iff
    (hnames : workflow.tasks.map Task.name =
      (mainEntries declared).keys ++ (handlerEntries declared).keys)
    (hkeys : declared.keys.Nodup) {i : Nat} (hi : i < (mainEntries declared).length) :
    workflow.LeadsTo (((mainEntries declared)[i + 1]?.map Prod.fst).getD successResult)
        (successPosition? declared i) ↔
      (i + 1 = (mainEntries declared).length →
        successResult ∉ (mainEntries declared).keys ++ (handlerEntries declared).keys) := by
  unfold successPosition?
  by_cases hnext : i + 1 < (mainEntries declared).length
  · have hat := List.getElem?_eq_getElem hnext
    have hname : (mainEntries declared).keys[i + 1]? = some ((mainEntries declared)[i + 1]).1 := by
      rw [Mapping.keys, List.getElem?_map, hat]
      rfl
    have hlength : i + 1 ≤ (mainEntries declared).keys.length := by
      rw [Mapping.keys, List.length_map]
      omega
    have hfull : ((mainEntries declared).keys ++ (handlerEntries declared).keys)[i + 1]? =
        some ((mainEntries declared)[i + 1]).1 := by
      obtain ⟨hlt, _⟩ := List.getElem?_eq_some_iff.mp hname
      rw [List.getElem?_append_left hlt, hname]
    rw [hat, if_pos hnext, Option.map_some, Option.getD_some,
      Workflow.leadsTo_some_iff hnames hfull, List.take_append_of_le_length hlength]
    constructor
    · intro _ hlast
      omega
    · intro _
      exact Workflow.not_mem_take_of_nodup (nodup_keys_mainEntries hkeys) hname
  · have hlast : i + 1 = (mainEntries declared).length := by omega
    rw [if_neg hnext, List.getElem?_eq_none (by omega), Option.map_none, Option.getD_none,
      Workflow.leadsTo_none_iff hnames]
    exact ⟨fun hmem _ => hmem, fun hmem => hmem hlast⟩

private theorem getElem?_behind (front : List String) (name : String) (rest : List String) :
    (front ++ name :: rest)[front.length]? = some name := by
  rw [List.getElem?_append_right (Nat.le_refl _), Nat.sub_self]
  rfl

/-- Failure leads to the first task of the branch unless a main task has its name, and to the end
unless a main task is named like it. -/
theorem leadsTo_failure_iff
    (hnames : workflow.tasks.map Task.name =
      (mainEntries declared).keys ++ (handlerEntries declared).keys) :
    workflow.LeadsTo (((handlerEntries declared).head?.map Prod.fst).getD failureResult)
        (failurePosition? declared) ↔
      (handlerEntries declared = [] → failureResult ∉ (mainEntries declared).keys) ∧
        ∀ first, (handlerEntries declared).head? = some first →
          first.1 ∉ (mainEntries declared).keys := by
  unfold failurePosition?
  cases hbranch : handlerEntries declared with
  | nil =>
    rw [hbranch] at hnames
    have hleads : workflow.LeadsTo failureResult none ↔ _ := Workflow.leadsTo_none_iff hnames
    simpa [Mapping.keys] using hleads
  | cons first rest =>
    rw [hbranch] at hnames
    have hlength : (mainEntries declared).keys.length = (mainEntries declared).length :=
      List.length_map _
    have hname := getElem?_behind (mainEntries declared).keys first.1 (Mapping.keys rest)
    have hleads := Workflow.leadsTo_some_iff hnames hname
    rw [List.take_left] at hleads
    simpa [hlength] using hleads

/-- A main task of an accepted flow that does not navigate on its own has a target for success
and one for failure. Followed by name, success leads to the next main task, and behind the last
one to the end of the flow exactly if no task is named like it. Failure leads to the first task
of the branch exactly if no main task has its name, and without a branch to the end exactly if no
main task is named like it. -/
theorem default_targets_lead_iff
    (h : executable settings file name body = .ok (.flow signature workflow))
    (hdeclared : body.lookup? workflowKey = some (.map declared))
    (hkeys : declared.keys.Nodup) {i : Nat} {entry : String × Value}
    (hentry : (mainEntries declared)[i]? = some entry)
    (hown : ownNavigation? entry.2 = none) :
    ∃ compiled success failure, workflow.tasks[i]? = some compiled ∧
      compiled.navigation.get? successResult = some success ∧
      compiled.navigation.get? failureResult = some failure ∧
      (workflow.LeadsTo success (successPosition? declared i) ↔
        (i + 1 = (mainEntries declared).length →
          successResult ∉ (mainEntries declared).keys ++ (handlerEntries declared).keys)) ∧
      (workflow.LeadsTo failure (failurePosition? declared) ↔
        (handlerEntries declared = [] → failureResult ∉ (mainEntries declared).keys) ∧
          ∀ first, (handlerEntries declared).head? = some first →
            first.1 ∉ (mainEntries declared).keys) := by
  obtain ⟨main, handlers, parts, htasks⟩ := exists_parts_of_declared h hdeclared
  obtain ⟨compiled, hat, hgoes⟩ := parts.main_goesOn hentry
  obtain ⟨hsuccess, hfailure⟩ := hgoes.get?_eq hown
  have hnames := parts.names_eq
  rw [← htasks] at hat hnames
  obtain ⟨hi, _⟩ := List.getElem?_eq_some_iff.mp hentry
  exact ⟨compiled, _, _, hat, hsuccess, hfailure, leadsTo_success_iff hnames hkeys hi,
    leadsTo_failure_iff hnames⟩

/-- Two main tasks and a branch whose only task shares the name of the first one. -/
def sharedNameEntries : Mapping :=
  [("prepare", .map [("do", .map [("ops.prepare", .list [])])]),
    ("deploy", .map [("do", .map [("ops.deploy", .list [])])]),
    ("on_failure", .map [("prepare", .map [("do", .map [("ops.undo", .list [])])])])]

/-- The last main task of this flow succeeds to the end as meant, but its failure does not lead
to the branch. -/
theorem default_targets_lead_of_sharedName :
    ∃ signature workflow,
      executable {} releaseFile "release" [("workflow", .map sharedNameEntries)] =
        .ok (.flow signature workflow) ∧
      ∃ deploy success failure, workflow.tasks[1]? = some deploy ∧
        deploy.navigation.get? successResult = some success ∧
        deploy.navigation.get? failureResult = some failure ∧
        workflow.LeadsTo success none ∧ ¬ workflow.LeadsTo failure (some 2) := by
  obtain ⟨compiled, h⟩ := faultOf_eq_none_iff.mp
    (show faultOf (executable {} releaseFile "release" [("workflow", .map sharedNameEntries)]) =
      none by decide +kernel)
  obtain ⟨signature, workflow, rfl⟩ := exists_flow_of_kind rfl h
  obtain ⟨deploy, success, failure, hat, hsuccess, hfailure, hend, hbranch⟩ :=
    default_targets_lead_iff h (i := 1) rfl (by decide) rfl rfl
  refine ⟨signature, workflow, h, deploy, success, failure, hat, hsuccess, hfailure, ?_, ?_⟩
  · exact hend.mpr fun _ => by decide
  · intro hleads
    exact absurd ((hbranch.mp hleads).2 _ rfl) (by decide)

/-- What this flow is compiled to. -/
def sharedNameWorkflow : Workflow :=
  ⟨[⟨"prepare", Dict.empty.insert "do" (.inputs []), .empty,
      defaultNavigation (some "deploy") "prepare", "user.ops.prepare"⟩,
    ⟨"deploy", Dict.empty.insert "do" (.inputs []), .empty,
      defaultNavigation none "prepare", "user.ops.deploy"⟩,
    ⟨"prepare", Dict.empty.insert "do" (.inputs []), .empty,
      defaultNavigation none failureResult, "user.ops.undo"⟩]⟩

/-- Failure of the second main task leads back to the first one and not to the branch, whose task
of that name is another one. -/
theorem failure_leads_back_of_sharedName :
    executable {} releaseFile "release" [("workflow", .map sharedNameEntries)] =
        .ok (.flow ⟨"user", "release", [], [], [], .empty, .empty⟩ sharedNameWorkflow) ∧
      (sharedNameWorkflow.tasks[1]?.bind fun deploy =>
        deploy.navigation.get? failureResult) = some "prepare" ∧
      sharedNameWorkflow.task? "prepare" = sharedNameWorkflow.tasks[0]? ∧
      sharedNameWorkflow.task? "prepare" ≠ sharedNameWorkflow.tasks[2]? := by
  refine ⟨toOption_eq_some_iff.mp ?_, ?_, ?_, ?_⟩ <;> decide +kernel

end Compile

end Taskflow
