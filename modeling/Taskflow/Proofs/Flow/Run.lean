import Taskflow.Proofs.Flow.Targets
import Taskflow.Proofs.Flow.Walk

/-!
# Runs of a flow

A run starts at the first task and follows the target of the outcome of each task by name, until
the target names no task. If no task navigates on its own and all names differ, from each other
and from the ends of a flow, then a run is the walk over the positions of its tasks. The main
statement says that every such run ends and only goes forwards.
-/

namespace Taskflow

/-- The target of a task that ends with the given outcome. -/
def Task.target? (task : Task) (outcome : Outcome) : Option String :=
  task.navigation.get? outcome.result

namespace Workflow

/-- The task that a run visits after a number of steps, if it has not stopped before. -/
def visited (workflow : Workflow) (outcomes : Nat → Outcome) : Nat → Option Task
  | 0 => workflow.firstTask?
  | n + 1 =>
    (workflow.visited outcomes n).bind fun task =>
      (task.target? (outcomes n)).bind workflow.task?

/-- A run ends and only goes forwards, first through main tasks and then through the handlers of
the given names. -/
structure RunsForward (workflow : Workflow) (handlerNames : List String)
    (outcomes : Nat → Outcome) : Prop where
  /-- Every task visited has a target for its outcome. -/
  target : ∀ n task, workflow.visited outcomes n = some task →
    ∃ target, task.target? (outcomes n) = some target
  /-- No task is visited twice. -/
  once : ∀ m n earlier later, workflow.visited outcomes m = some earlier →
    workflow.visited outcomes n = some later → earlier.name = later.name → m = n
  /-- The run visits some task and stops after as many steps as there are tasks at the latest. -/
  stops : ∃ steps, 0 < steps ∧ steps ≤ workflow.tasks.length ∧
    ∀ n, workflow.visited outcomes n = none ↔ steps ≤ n
  /-- The target at which the run stops is the end that belongs to the last outcome. -/
  final : ∀ n task target, workflow.visited outcomes n = some task →
    task.target? (outcomes n) = some target → workflow.task? target = none →
    target = (outcomes n).result
  /-- The first handler visited is the first of all, behind a main task that failed. -/
  enters : ∀ n task, workflow.visited outcomes n = some task → task.name ∈ handlerNames →
    (∀ m < n, ∀ earlier, workflow.visited outcomes m = some earlier →
      earlier.name ∉ handlerNames) →
    handlerNames.head? = some task.name ∧
      ∃ m before, n = m + 1 ∧ workflow.visited outcomes m = some before ∧
        before.name ∉ handlerNames ∧ outcomes m = .failure
  /-- Behind a handler only handlers are visited. -/
  stays : ∀ m n earlier later, m ≤ n → workflow.visited outcomes m = some earlier →
    workflow.visited outcomes n = some later → earlier.name ∈ handlerNames →
    later.name ∈ handlerNames

/-- Every task goes on by default: its target for an outcome is the name of the task at the next
position, or else the end of the flow. No name is used twice. -/
structure IsDefault (workflow : Workflow) (names : List String) (mainCount : Nat) : Prop where
  /-- The tasks have the given names. -/
  names_eq : workflow.tasks.map Task.name = names
  /-- The names differ from each other. -/
  nodup : names.Nodup
  /-- The names differ from the ends of a flow. -/
  result_not_mem : ∀ outcome : Outcome, outcome.result ∉ names
  /-- There is a main task. -/
  pos : 0 < mainCount
  /-- Main tasks are among the tasks. -/
  le : mainCount ≤ workflow.tasks.length
  /-- The targets are those of the walk over positions. -/
  target_eq : ∀ position task outcome, workflow.tasks[position]? = some task →
    task.target? outcome =
      some (((nextPosition? mainCount workflow.tasks.length position outcome).bind
        (names[·]?)).getD outcome.result)

namespace IsDefault

variable {workflow : Workflow} {names : List String} {mainCount : Nat}
  {outcomes : Nat → Outcome} {outcome : Outcome}

/-- There are as many names as tasks. -/
theorem length_eq (hdefault : workflow.IsDefault names mainCount) :
    names.length = workflow.tasks.length := by
  rw [← hdefault.names_eq, List.length_map]

/-- There is a task. -/
theorem tasks_pos (hdefault : workflow.IsDefault names mainCount) : 0 < workflow.tasks.length :=
  Nat.lt_of_lt_of_le hdefault.pos hdefault.le

/-- The name at a position belongs to the task there. -/
theorem name_at (hdefault : workflow.IsDefault names mainCount) {position : Nat} {task : Task}
    (hat : workflow.tasks[position]? = some task) : names[position]? = some task.name := by
  rw [← hdefault.names_eq, List.getElem?_map, hat, Option.map_some]

/-- Tasks of one name stand at one position. -/
theorem position_eq (hdefault : workflow.IsDefault names mainCount) {i j : Nat}
    {task other : Task} (hi : workflow.tasks[i]? = some task)
    (hj : workflow.tasks[j]? = some other) (hname : task.name = other.name) : i = j := by
  obtain ⟨_, heq⟩ := List.getElem?_eq_some_iff.mp (hdefault.name_at hi)
  obtain ⟨_, heq'⟩ := List.getElem?_eq_some_iff.mp (hdefault.name_at hj)
  exact (List.getElem_inj hdefault.nodup).mp (heq.trans (hname.trans heq'.symm))

/-- A name is found at its own position only. -/
theorem task?_name_at (hdefault : workflow.IsDefault names mainCount) {position : Nat}
    {name : String} (hname : names[position]? = some name) :
    workflow.task? name = workflow.tasks[position]? := by
  have hleads : workflow.LeadsTo name (some position) :=
    (leadsTo_some_iff hdefault.names_eq hname).mpr
      (not_mem_take_of_nodup hdefault.nodup hname)
  exact hleads.2

/-- No task is found under the end of a flow. -/
theorem task?_result (hdefault : workflow.IsDefault names mainCount) (outcome : Outcome) :
    workflow.task? outcome.result = none :=
  ((leadsTo_none_iff hdefault.names_eq).mpr (hdefault.result_not_mem outcome)).2

/-- Following the target of a task leads to the next position of the walk. -/
theorem task?_target (hdefault : workflow.IsDefault names mainCount) {position : Nat} {task : Task}
    (hat : workflow.tasks[position]? = some task) (outcome : Outcome) :
    (task.target? outcome).bind workflow.task? =
      (nextPosition? mainCount workflow.tasks.length position outcome).bind
        (workflow.tasks[·]?) := by
  rw [hdefault.target_eq position task outcome hat, Option.bind_some]
  cases hnext : nextPosition? mainCount workflow.tasks.length position outcome with
  | none => exact hdefault.task?_result outcome
  | some next =>
    have hlt := (lt_of_nextPosition? hdefault.le hnext).2
    rw [← hdefault.length_eq] at hlt
    have hname := List.getElem?_eq_getElem hlt
    rw [Option.bind_some, Option.bind_some, hname, Option.getD_some,
      hdefault.task?_name_at hname]

/-- A run is the walk over the positions of its tasks. -/
theorem visited_eq (hdefault : workflow.IsDefault names mainCount) (outcomes : Nat → Outcome)
    (n : Nat) :
    workflow.visited outcomes n =
      (walk mainCount workflow.tasks.length outcomes n).bind (workflow.tasks[·]?) := by
  induction n with
  | zero => exact List.head?_eq_getElem?
  | succ n ih =>
    rw [visited, walk, ih]
    cases hwalk : walk mainCount workflow.tasks.length outcomes n with
    | none => rfl
    | some position =>
      have hlt := lt_of_walk hdefault.tasks_pos hdefault.le hwalk
      have hat := List.getElem?_eq_getElem hlt
      rw [Option.bind_some, Option.bind_some, hat, Option.bind_some, hdefault.task?_target hat]

/-- A task is visited at the position that the walk has reached. -/
theorem exists_walk_of_visited (hdefault : workflow.IsDefault names mainCount) {n : Nat}
    {task : Task} (h : workflow.visited outcomes n = some task) :
    ∃ position, walk mainCount workflow.tasks.length outcomes n = some position ∧
      workflow.tasks[position]? = some task :=
  Option.bind_eq_some_iff.mp (hdefault.visited_eq outcomes n ▸ h)

/-- The run stops exactly where the walk does. -/
theorem visited_eq_none_iff (hdefault : workflow.IsDefault names mainCount) (n : Nat) :
    workflow.visited outcomes n = none ↔
      walk mainCount workflow.tasks.length outcomes n = none := by
  rw [hdefault.visited_eq]
  cases hwalk : walk mainCount workflow.tasks.length outcomes n with
  | none => simp
  | some position =>
    have hlt := lt_of_walk hdefault.tasks_pos hdefault.le hwalk
    simp [List.getElem?_eq_getElem hlt]

/-- The handlers are the tasks behind the main tasks. -/
theorem name_mem_drop_iff (hdefault : workflow.IsDefault names mainCount) {position : Nat}
    {task : Task} (hat : workflow.tasks[position]? = some task) :
    task.name ∈ names.drop mainCount ↔ mainCount ≤ position := by
  have hname := hdefault.name_at hat
  obtain ⟨hlt, heq⟩ := List.getElem?_eq_some_iff.mp hname
  rw [List.mem_drop_iff_getElem]
  constructor
  · rintro ⟨i, hi, hi'⟩
    have hsame := (List.getElem_inj hdefault.nodup).mp (hi'.trans heq.symm)
    omega
  · intro hle
    refine ⟨position - mainCount, by omega, ?_⟩
    rw [← heq]
    congr 1
    omega

/-- A run starts at a main task. -/
theorem not_mem_drop_of_visited_zero (hdefault : workflow.IsDefault names mainCount) {task : Task}
    (hvisited : workflow.visited outcomes 0 = some task) : task.name ∉ names.drop mainCount := by
  obtain ⟨position, hwalk, hat⟩ := hdefault.exists_walk_of_visited hvisited
  obtain rfl : 0 = position := Option.some.inj hwalk
  have hpos := hdefault.pos
  rw [hdefault.name_mem_drop_iff hat]
  omega

/-- A step from a main task to a handler leads to the first handler, and the main task failed. -/
theorem enters_of_visited (hdefault : workflow.IsDefault names mainCount) {m : Nat}
    {before task : Task} (hbefore : workflow.visited outcomes m = some before)
    (hmain : before.name ∉ names.drop mainCount)
    (hvisited : workflow.visited outcomes (m + 1) = some task)
    (hhandler : task.name ∈ names.drop mainCount) :
    (names.drop mainCount).head? = some task.name ∧ outcomes m = .failure := by
  obtain ⟨previous, hprevious, hatBefore⟩ := hdefault.exists_walk_of_visited hbefore
  obtain ⟨position, hwalk, hat⟩ := hdefault.exists_walk_of_visited hvisited
  rw [hdefault.name_mem_drop_iff hatBefore] at hmain
  have hle := (hdefault.name_mem_drop_iff hat).mp hhandler
  rw [walk, hprevious, Option.bind_some] at hwalk
  obtain ⟨rfl, hfailure⟩ := eq_mainCount_of_nextPosition? (Nat.lt_of_not_le hmain) hle hwalk
  refine ⟨?_, hfailure⟩
  rw [List.head?_drop, hdefault.name_at hat]

/-- A run of a flow by default ends and only goes forwards. -/
theorem runsForward (hdefault : workflow.IsDefault names mainCount) (outcomes : Nat → Outcome) :
    workflow.RunsForward (names.drop mainCount) outcomes where
  target n task hvisited := by
    obtain ⟨position, _, hat⟩ := hdefault.exists_walk_of_visited hvisited
    exact ⟨_, hdefault.target_eq position task (outcomes n) hat⟩
  once m n earlier later hm hn hname := by
    obtain ⟨position, hwalk, hat⟩ := hdefault.exists_walk_of_visited hm
    obtain ⟨position', hwalk', hat'⟩ := hdefault.exists_walk_of_visited hn
    have hsame := hdefault.position_eq hat hat' hname
    exact walk_injective hdefault.le hwalk (hsame ▸ hwalk')
  stops := by
    obtain ⟨steps, hsteps, hle, hstop⟩ :=
      exists_walk_eq_none_iff hdefault.tasks_pos hdefault.le outcomes
    exact ⟨steps, hsteps, hle, fun n => (hdefault.visited_eq_none_iff n).trans (hstop n)⟩
  final n task target hvisited htarget hend := by
    obtain ⟨position, _, hat⟩ := hdefault.exists_walk_of_visited hvisited
    have hstep := hdefault.task?_target hat (outcomes n)
    have hdef := hdefault.target_eq position task (outcomes n) hat
    rw [htarget, Option.bind_some, hend] at hstep
    cases hnext : nextPosition? mainCount workflow.tasks.length position (outcomes n) with
    | none =>
      rw [htarget, hnext] at hdef
      exact Option.some.inj hdef
    | some next =>
      have hlt := (lt_of_nextPosition? hdefault.le hnext).2
      rw [hnext, Option.bind_some, List.getElem?_eq_getElem hlt] at hstep
      cases hstep
  enters n task hvisited hhandler hearlier := by
    cases n with
    | zero => exact absurd hhandler (hdefault.not_mem_drop_of_visited_zero hvisited)
    | succ m =>
      obtain ⟨before, hbefore, _⟩ := Option.bind_eq_some_iff.mp hvisited
      have hmain := hearlier m (Nat.lt_succ_self m) before hbefore
      obtain ⟨hfirst, hfailure⟩ := hdefault.enters_of_visited hbefore hmain hvisited hhandler
      exact ⟨hfirst, m, before, rfl, hbefore, hmain, hfailure⟩
  stays m n earlier later hle hm hn hhandler := by
    obtain ⟨position, hwalk, hat⟩ := hdefault.exists_walk_of_visited hm
    obtain ⟨position', hwalk', hat'⟩ := hdefault.exists_walk_of_visited hn
    obtain ⟨k, rfl⟩ := Nat.exists_eq_add_of_le hle
    have hstart := (hdefault.name_mem_drop_iff hat).mp hhandler
    have hforward := add_le_of_walk hdefault.le hwalk hwalk'
    exact (hdefault.name_mem_drop_iff hat').mpr (by omega)

end IsDefault

end Workflow

namespace Compile

variable {settings : Settings} {file : SourceFile} {name : String} {body declared : Mapping}
  {signature : Signature} {workflow : Workflow}

namespace FlowParts

variable {context : Context} {main handlers : List Task} {task : Task} {outcome : Outcome}

/-- A main task that does not navigate on its own has the target of the walk. -/
theorem target?_main (parts : FlowParts context body declared main handlers)
    (hown : ∀ entry ∈ mainEntries declared, ownNavigation? entry.2 = none) {position : Nat}
    (hmain : position < (mainEntries declared).keys.length)
    (hat : (main ++ handlers)[position]? = some task) :
    task.target? outcome =
      some (((nextPosition? (mainEntries declared).keys.length
        ((mainEntries declared).keys ++ (handlerEntries declared).keys).length position
          outcome).bind
        (((mainEntries declared).keys ++ (handlerEntries declared).keys)[·]?)).getD
          outcome.result) := by
  have hentry := List.getElem?_eq_getElem (l := mainEntries declared)
    (by rwa [Mapping.keys, List.length_map] at hmain)
  obtain ⟨compiled, hcompiled, hgoes⟩ := parts.main_goesOn hentry
  obtain rfl : compiled = task := Option.some.inj (hcompiled.symm.trans hat)
  obtain ⟨hsuccess, hfailure⟩ := hgoes.get?_eq (hown _ (List.mem_of_getElem? hentry))
  cases outcome with
  | success =>
    rw [name_behind_main hmain, Mapping.keys, List.getElem?_map]
    exact hsuccess
  | failure =>
    rw [name_of_main_failure hmain, Mapping.keys, List.head?_map]
    exact hfailure

/-- A handler that does not navigate on its own has the target of the walk. -/
theorem target?_handler (parts : FlowParts context body declared main handlers)
    (hown : ∀ entry ∈ handlerEntries declared, ownNavigation? entry.2 = none) {j : Nat}
    (hat : (main ++ handlers)[(mainEntries declared).keys.length + j]? = some task) :
    task.target? outcome =
      some (((nextPosition? (mainEntries declared).keys.length
        ((mainEntries declared).keys ++ (handlerEntries declared).keys).length
          ((mainEntries declared).keys.length + j) outcome).bind
        (((mainEntries declared).keys ++ (handlerEntries declared).keys)[·]?)).getD
          outcome.result) := by
  have hlt : j < (handlerEntries declared).length := by
    have hcount := congrArg List.length parts.names_eq
    obtain ⟨hlt, _⟩ := List.getElem?_eq_some_iff.mp hat
    simp only [List.length_map, List.length_append, Mapping.keys] at hcount hlt
    omega
  have hentry := List.getElem?_eq_getElem hlt
  obtain ⟨compiled, hcompiled, hgoes⟩ := parts.handlers_goesOn hentry
  rw [Mapping.keys, List.length_map] at hat
  obtain rfl : compiled = task := Option.some.inj (hcompiled.symm.trans hat)
  obtain ⟨hsuccess, hfailure⟩ := hgoes.get?_eq (hown _ (List.mem_of_getElem? hentry))
  cases outcome with
  | success =>
    rw [name_behind_handler, Mapping.keys, List.getElem?_map]
    exact hsuccess
  | failure =>
    rw [nextPosition?_of_handler_failure]
    exact hfailure

end FlowParts

/-- A flow goes on by default if no task navigates on its own and the names of its tasks differ,
from each other and from the ends of a flow. -/
theorem isDefault_of_flow
    (h : executable settings file name body = .ok (.flow signature workflow))
    (hdeclared : body.lookup? workflowKey = some (.map declared))
    (hown : ∀ entry ∈ mainEntries declared ++ handlerEntries declared,
      ownNavigation? entry.2 = none)
    (hnames : ((mainEntries declared).keys ++ (handlerEntries declared).keys).Nodup)
    (hends : ∀ outcome : Outcome,
      outcome.result ∉ (mainEntries declared).keys ++ (handlerEntries declared).keys) :
    workflow.IsDefault ((mainEntries declared).keys ++ (handlerEntries declared).keys)
      (mainEntries declared).keys.length := by
  obtain ⟨main, handlers, parts, htasks⟩ := exists_parts_of_declared h hdeclared
  have hkeys := parts.names_eq
  rw [← htasks] at hkeys
  have hcount : workflow.tasks.length =
      ((mainEntries declared).keys ++ (handlerEntries declared).keys).length := by
    rw [← hkeys, List.length_map]
  have hmainOwn : ∀ entry ∈ mainEntries declared, ownNavigation? entry.2 = none :=
    fun entry hentry => hown entry (List.mem_append_left _ hentry)
  have hhandlersOwn : ∀ entry ∈ handlerEntries declared, ownNavigation? entry.2 = none :=
    fun entry hentry => hown entry (List.mem_append_right _ hentry)
  refine ⟨hkeys, hnames, hends, ?_, ?_, ?_⟩
  · rw [Mapping.keys, List.length_map]
    exact List.length_pos_iff.mpr parts.main_ne_nil
  · rw [hcount, List.length_append]
    omega
  · intro position task outcome hat
    rw [htasks] at hat
    rw [hcount]
    by_cases hmain : position < (mainEntries declared).keys.length
    · exact parts.target?_main hmainOwn hmain hat
    · obtain ⟨j, rfl⟩ := Nat.exists_eq_add_of_le (Nat.le_of_not_lt hmain)
      exact parts.target?_handler hhandlersOwn hat

/-- Take an accepted flow none of whose tasks navigates on its own, with names that differ from
each other and from the ends of a flow. Whatever the outcomes, a run of it ends and only goes
forwards: every task visited has a target for its outcome, none is visited twice, there are no
more steps than tasks, the run ends as the last outcome says, the first handler is entered from a
main task that failed, and behind it only handlers follow. -/
theorem run_of_flow_runsForward
    (h : executable settings file name body = .ok (.flow signature workflow))
    (hdeclared : body.lookup? workflowKey = some (.map declared))
    (hown : ∀ entry ∈ mainEntries declared ++ handlerEntries declared,
      ownNavigation? entry.2 = none)
    (hnames : ((mainEntries declared).keys ++ (handlerEntries declared).keys).Nodup)
    (hends : ∀ outcome : Outcome,
      outcome.result ∉ (mainEntries declared).keys ++ (handlerEntries declared).keys)
    (outcomes : Nat → Outcome) :
    workflow.RunsForward (handlerEntries declared).keys outcomes := by
  have hdefault := isDefault_of_flow h hdeclared hown hnames hends
  have hruns := hdefault.runsForward outcomes
  rwa [List.drop_left] at hruns

/-- Two main tasks around a branch of two handlers. -/
def rollbackEntries : Mapping :=
  [("deploy", .map [("do", .map [("ops.deploy", .list [])])]),
    ("on_failure", .map
      [("undo", .map [("do", .map [("ops.undo", .list [])]), ("navigate", .map [])]),
        ("report", .map [("do", .map [("ops.report", .null)])])]),
    ("verify", .map [("do", .map [("ops.verify", .list [])])])]

/-- A run of this flow whose second task fails. -/
theorem run_of_rollback_runsForward :
    ∃ signature workflow,
      executable {} releaseFile "release" [("workflow", .map rollbackEntries)] =
        .ok (.flow signature workflow) ∧
      workflow.RunsForward ["undo", "report"]
        (fun n => if n = 1 then .failure else .success) := by
  obtain ⟨compiled, h⟩ := faultOf_eq_none_iff.mp
    (show faultOf (executable {} releaseFile "release" [("workflow", .map rollbackEntries)]) = none
      by decide +kernel)
  obtain ⟨signature, workflow, rfl⟩ := exists_flow_of_kind rfl h
  have hown : (mainEntries rollbackEntries ++ handlerEntries rollbackEntries).all
      (fun entry => (ownNavigation? entry.2).isNone) = true := by decide +kernel
  refine ⟨signature, workflow, h, run_of_flow_runsForward h rfl ?_ (by decide) ?_ _⟩
  · intro entry hentry
    exact Option.isNone_iff_eq_none.mp (List.all_eq_true.mp hown entry hentry)
  · intro outcome
    cases outcome <;> decide

end Compile

end Taskflow
