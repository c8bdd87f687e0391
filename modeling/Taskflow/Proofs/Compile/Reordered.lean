import Taskflow.Proofs.Compile.Accepted
import Taskflow.Proofs.Compile.Agreement
import Taskflow.Proofs.Keyword.Distinct

/-!
# The order of keys

Tasks run in the order of their entries. Everywhere else the order in which keys stand is a matter
of taste: keywords are looked up, and the branch for failures is found wherever it stands. The main
statement says that an executable is compiled alike if the entries of its body, of its action and
of the bodies of its tasks change places, and if the branch for failures does, up to which unknown
key is reported.
-/

namespace Taskflow

open Text

variable {α β : Type}

/-- Outcomes are the same up to which unknown key is reported. -/
def SameUpToKey (left right : Except Fault α) : Prop :=
  left = right ∨ ∃ key key' context, left = .error (.unknownKeyword key context) ∧
    right = .error (.unknownKeyword key' context)

/-- Runs in two steps are the same up to which unknown key is reported if both steps are. -/
def Agreement.upToKey : Agreement where
  rel := SameUpToKey
  refl _ := .inl rfl
  bind := by
    rintro α β left right next next' (rfl | ⟨key, key', context, rfl, rfl⟩) hnext
    · cases left with
      | error fault => exact .inl rfl
      | ok value => exact hnext value rfl rfl
    · exact .inr ⟨key, key', context, rfl, rfl⟩

/-- Checks of the same keys in another order are the same up to which unknown key is reported. -/
theorem sameUpToKey_checkKeys {entries other : Mapping} (hkeys : entries.keys.Perm other.keys)
    (legal : List Keyword) (reserved : List String) (context : String) :
    SameUpToKey (checkKeys entries legal reserved context)
      (checkKeys other legal reserved context) := by
  rcases @checkKeys_eq_ok_or entries legal reserved context with hok | ⟨key, hkey⟩
  · exact .inl (hok.trans (checkKeys_eq_ok_of_perm hkeys hok).symm)
  · rcases @checkKeys_eq_ok_or other legal reserved context with hok | ⟨key', hkey'⟩
    · exact .inl ((checkKeys_eq_ok_of_perm hkeys.symm hok).trans hok.symm)
    · exact .inr ⟨key, key', context, hkey, hkey'⟩

/-- What stands in one list is related to something in the other. -/
theorem exists_of_mem_left {related : α → β → Prop} {left : List α} {right : List β}
    (h : List.Forall₂ related left right) {a : α} (ha : a ∈ left) : ∃ b ∈ right, related a b := by
  induction h with
  | nil => cases ha
  | cons hhead _ ih =>
    rcases List.mem_cons.mp ha with rfl | ha
    · exact ⟨_, List.mem_cons_self, hhead⟩
    · obtain ⟨b, hb, hrelated⟩ := ih ha
      exact ⟨b, List.mem_cons_of_mem _ hb, hrelated⟩

namespace Compile

/-- A task of the same name, with the entries of its body in another order. -/
inductive TaskReordered : String × Value → String × Value → Prop
  | same (entry : String × Value) : TaskReordered entry entry
  | body (name : String) {entries entries' : Mapping} (h : entries.Perm entries') :
      TaskReordered (name, .map entries) (name, .map entries')

/-- A branch for failures with the same tasks in the same order, each with its body reordered. -/
inductive BranchReordered : String × Value → String × Value → Prop
  | same (entry : String × Value) : BranchReordered entry entry
  | tasks (name : String) {entries entries' : Mapping}
      (h : List.Forall₂ TaskReordered entries entries') :
      BranchReordered (name, .map entries) (name, .map entries')

/-- The same main tasks in the same order and the same branch for failures, wherever it stands,
with the bodies of tasks reordered. -/
structure WorkflowReordered (declared declared' : Mapping) : Prop where
  /-- The main tasks keep their order. -/
  main : List.Forall₂ TaskReordered (mainEntries declared) (mainEntries declared')
  /-- The branch for failures stays the same. -/
  branch : List.Forall₂ BranchReordered (declared.filter (·.1 == onFailureKey))
    (declared'.filter (·.1 == onFailureKey))

/-- An entry of the body of an executable, with the action or the tasks reordered. -/
inductive PartReordered : String × Value → String × Value → Prop
  | same (entry : String × Value) : PartReordered entry entry
  | action {key : String} {declared declared' : Mapping} (hkey : caselessEq key actionKey = true)
      (h : declared.Perm declared') : PartReordered (key, .map declared) (key, .map declared')
  | workflow {key : String} {declared declared' : Mapping}
      (hkey : caselessEq key workflowKey = true) (h : WorkflowReordered declared declared') :
      PartReordered (key, .map declared) (key, .map declared')

/-- The same body of an executable but for the order of its entries, of those of its action, of
those in the bodies of its tasks, and for the place of the branch for failures. -/
def Reordered (body body' : Mapping) : Prop :=
  ∃ parts : Mapping, List.Forall₂ PartReordered body parts ∧ parts.Perm body'

/-- In the body of an executable, in its action and in the body of each of its tasks no two keys
are equal up to case. -/
structure DistinctKeys (body : Mapping) : Prop where
  /-- The keys of the body are distinct. -/
  own : body.CaselessDistinct
  /-- The keys of the action are distinct. -/
  action : ∀ declared : Mapping, body.lookup? actionKey = some (.map declared) →
    declared.CaselessDistinct
  /-- The keys in the body of each main task are distinct. -/
  main : ∀ declared : Mapping, body.lookup? workflowKey = some (.map declared) →
    ∀ entry ∈ mainEntries declared, ∀ taskBody : Mapping, entry.2 = .map taskBody →
      taskBody.CaselessDistinct
  /-- The keys in the body of each task that handles failures are distinct. -/
  branch : ∀ declared : Mapping, body.lookup? workflowKey = some (.map declared) →
    ∀ entry ∈ handlerEntries declared, ∀ taskBody : Mapping, entry.2 = .map taskBody →
      taskBody.CaselessDistinct

variable {context : Context} {name key : String} {body body' declared declared' : Mapping}
  {entry entry' : String × Value}

/-- Compilation sees the same in the body of a task in another order. -/
theorem bodiesAgree_of_perm (hdistinct : body.CaselessDistinct) (hperm : body.Perm body') :
    BodiesAgree Agreement.upToKey context context name body body' where
  isEmpty_eq := hperm.isEmpty_eq
  keys := sameUpToKey_checkKeys (hperm.map Prod.fst) _ _ _
  read := fun keyword _ => by rw [readKeyword, readKeyword, Mapping.lookup?_perm hdistinct hperm]
  reference := by rw [taskReference, taskReference, Mapping.lookup?_perm hdistinct hperm]

/-- Compilation sees the same in a task whose body is in another order. -/
theorem entriesAgree_of_taskReordered (h : TaskReordered entry entry')
    (hdistinct : ∀ taskBody : Mapping, entry.2 = .map taskBody → taskBody.CaselessDistinct) :
    EntriesAgree Agreement.upToKey context context entry entry' := by
  cases h with
  | same => exact EntriesAgree.refl _ _ _
  | body name hperm => exact ⟨rfl, .given (bodiesAgree_of_perm (hdistinct _ rfl) hperm)⟩

/-- Compilation sees the same in tasks whose bodies are in another order. -/
theorem forall₂_entriesAgree {entries entries' : Mapping}
    (h : List.Forall₂ TaskReordered entries entries')
    (hdistinct : ∀ entry ∈ entries, ∀ taskBody : Mapping, entry.2 = .map taskBody →
      taskBody.CaselessDistinct) :
    List.Forall₂ (EntriesAgree Agreement.upToKey context context) entries entries' :=
  ((List.forall₂_and_left _ _).mpr ⟨hdistinct, h⟩).imp fun _ _ ⟨hentry, hreordered⟩ =>
    entriesAgree_of_taskReordered hreordered hentry

/-- The value under a key is that of the first of the entries under the key. -/
theorem get?_eq_head? (entries : Mapping) (key : String) :
    entries.get? key = (entries.filter (·.1 == key)).head?.map Prod.snd := by
  rw [List.head?_filter]
  rfl

/-- Compilation sees the same in the branch for failures wherever it stands. -/
theorem endAlike_failureEntries (h : WorkflowReordered declared declared')
    (hdistinct : ∀ entry ∈ handlerEntries declared, ∀ taskBody : Mapping, entry.2 = .map taskBody →
      taskBody.CaselessDistinct) :
    EndAlike (List.Forall₂ (EntriesAgree Agreement.upToKey context context))
      (failureEntries declared) (failureEntries declared') := by
  unfold failureEntries
  unfold handlerEntries at hdistinct
  have hbranch := h.branch
  rw [get?_eq_head?] at hdistinct ⊢
  rw [get?_eq_head?]
  generalize declared.filter (·.1 == onFailureKey) = found,
    declared'.filter (·.1 == onFailureKey) = found' at hbranch hdistinct
  -- Only the first entry under the key of the branch is read.
  cases hbranch with
  | nil => exact .given .nil
  | cons hhead _ =>
    cases hhead with
    | same entry =>
      exact EndAlike.refl (fun _ => List.forall₂_same.mpr fun _ _ => EntriesAgree.refl _ _ _) _
    | tasks name htasks => exact .given (forall₂_entriesAgree htasks hdistinct)

/-- Reordered tasks are as many. -/
theorem WorkflowReordered.isEmpty_eq (h : WorkflowReordered declared declared') :
    declared.isEmpty = declared'.isEmpty := by
  have hlength : ∀ entries : Mapping, entries.length =
      (entries.filter (·.1 == onFailureKey)).length + (mainEntries entries).length := fun entries =>
    List.length_eq_length_filter_add _
  have heq : declared.length = declared'.length := by
    rw [hlength, hlength declared', h.branch.length_eq, h.main.length_eq]
  rw [Bool.eq_iff_iff, List.isEmpty_iff_length_eq_zero, List.isEmpty_iff_length_eq_zero, heq]

/-- Reordering keeps the key of a part. -/
theorem PartReordered.key_eq (h : PartReordered entry entry') : entry.1 = entry'.1 := by
  cases h <;> rfl

/-- Reordering part by part keeps the keys in their order. -/
theorem keys_eq_of_forall₂ {parts : Mapping} (h : List.Forall₂ PartReordered body parts) :
    body.keys = parts.keys := by
  induction h with
  | nil => rfl
  | cons hhead _ ih => exact congrArg₂ List.cons hhead.key_eq ih

namespace Reordered

/-- Reordering keeps the keys, in another order. -/
theorem keys_perm (h : Reordered body body') : body.keys.Perm body'.keys := by
  obtain ⟨parts, hparts, hperm⟩ := h
  rw [keys_eq_of_forall₂ hparts]
  exact hperm.map Prod.fst

/-- A keyword names an entry of one body and the same one, reordered, of the other. -/
theorem entryNamed?_rel (h : Reordered body body') (hdistinct : body.CaselessDistinct)
    (keyword : String) :
    Option.Rel (fun entry entry' => PartReordered entry entry' ∧ caselessEq entry.1 keyword = true)
      (body.entryNamed? keyword) (body'.entryNamed? keyword) := by
  have hdistinct' := hdistinct.perm h.keys_perm
  obtain ⟨parts, hparts, hperm⟩ := h
  cases hnamed : body.entryNamed? keyword with
  | none =>
    have hnamed' : body'.entryNamed? keyword = none := by
      rw [Mapping.entryNamed?_eq_none_iff] at hnamed ⊢
      intro entry' hentry'
      have hback : List.Forall₂ (flip PartReordered) parts body := hparts.flip
      obtain ⟨entry, hentry, hpart⟩ := exists_of_mem_left hback (hperm.mem_iff.mpr hentry')
      rw [← hpart.key_eq, hnamed entry hentry]
    rw [hnamed']
    exact .none
  | some entry =>
    obtain ⟨hentry, hkey⟩ := Mapping.mem_of_entryNamed? hnamed
    obtain ⟨entry', hentry', hpart⟩ := exists_of_mem_left hparts hentry
    have hnamed' : body'.entryNamed? keyword = some entry' :=
      (Mapping.entryNamed?_eq_some_iff hdistinct').mpr
        ⟨hperm.mem_iff.mp hentry', hpart.key_eq ▸ hkey⟩
    rw [hnamed']
    exact .some ⟨hpart, hkey⟩

/-- A keyword names the same value in both bodies, or a map and its reordering where the action or
the tasks stand. -/
theorem lookup?_cases (h : Reordered body body') (hdistinct : body.CaselessDistinct)
    (keyword : String) :
    body.lookup? keyword = body'.lookup? keyword ∨
      ∃ declared declared' : Mapping, body.lookup? keyword = some (.map declared) ∧
        body'.lookup? keyword = some (.map declared') ∧
        (caselessEq actionKey keyword = true ∧ declared.Perm declared' ∨
          caselessEq workflowKey keyword = true ∧ WorkflowReordered declared declared') := by
  have hnamed := h.entryNamed?_rel hdistinct keyword
  unfold Mapping.lookup?
  generalize body.entryNamed? keyword = found, body'.entryNamed? keyword = found' at hnamed
  cases hnamed with
  | none => exact .inl rfl
  | some hpart =>
    obtain ⟨hpart, hkey⟩ := hpart
    cases hpart with
    | same => exact .inl rfl
    | action hown hperm =>
      exact .inr ⟨_, _, rfl, rfl, .inl ⟨caselessEq_of_both hown hkey, hperm⟩⟩
    | workflow hown hflow =>
      exact .inr ⟨_, _, rfl, rfl, .inr ⟨caselessEq_of_both hown hkey, hflow⟩⟩

/-- Other keywords than those of the action and the tasks name the same value. -/
theorem lookup?_eq (h : Reordered body body') (hdistinct : body.CaselessDistinct)
    {keyword : String} (haction : caselessEq actionKey keyword = false)
    (hworkflow : caselessEq workflowKey keyword = false) :
    body.lookup? keyword = body'.lookup? keyword := by
  rcases h.lookup?_cases hdistinct keyword with heq | ⟨_, _, _, _, ⟨hkey, _⟩ | ⟨hkey, _⟩⟩
  · exact heq
  · exact absurd hkey (Bool.eq_false_iff.mp haction)
  · exact absurd hkey (Bool.eq_false_iff.mp hworkflow)

/-- The tasks that stand under their key are reordered. -/
theorem mapsAgree_tasks (h : Reordered body body') (hdistinct : DistinctKeys body) :
    MapsAgree (TasksAgree Agreement.upToKey context context) (body.lookup? workflowKey)
      (body'.lookup? workflowKey) := by
  rcases h.lookup?_cases hdistinct.own workflowKey with
    heq | ⟨declared, declared', hdeclared, hdeclared', ⟨hkey, _⟩ | ⟨_, hflow⟩⟩
  · rw [heq]
    exact .same _
  · exact absurd hkey (by decide)
  · rw [hdeclared, hdeclared']
    exact .maps hflow.isEmpty_eq
      ⟨forall₂_entriesAgree hflow.main (hdistinct.main declared hdeclared),
        endAlike_failureEntries hflow (hdistinct.branch declared hdeclared)⟩

/-- The action that stands under its key is reordered. -/
theorem mapsAgree_action (h : Reordered body body') (hdistinct : DistinctKeys body) :
    MapsAgree (ActionsAgree Agreement.upToKey) (body.lookup? actionKey)
      (body'.lookup? actionKey) := by
  rcases h.lookup?_cases hdistinct.own actionKey with
    heq | ⟨declared, declared', hdeclared, hdeclared', ⟨_, hperm⟩ | ⟨hkey, _⟩⟩
  · rw [heq]
    exact .same _
  · rw [hdeclared, hdeclared']
    refine .maps hperm.isEmpty_eq ⟨sameUpToKey_checkKeys (hperm.map Prod.fst) _ _ _, ?_⟩
    intro keyword _
    rw [readKeyword, readKeyword,
      Mapping.lookup?_perm (hdistinct.action declared hdeclared) hperm]
  · exact absurd hkey (by decide)

end Reordered

/-- Executables whose bodies differ in the order of keys are compiled alike. -/
theorem sameUpToKey_executable_of_reordered (settings : Settings) (file : SourceFile)
    (name : String) {body body' : Mapping} (hdistinct : DistinctKeys body)
    (hreordered : Reordered body body') :
    SameUpToKey (executable settings file name body) (executable settings file name body') := by
  have hkeys := hreordered.keys_perm
  have hagree : ExecutablesAgree Agreement.upToKey settings settings file name body body' := {
    isEmpty_eq := by simpa [Mapping.keys] using hkeys.isEmpty_eq
    policy_eq := rfl
    keys := sameUpToKey_checkKeys hkeys _ _ _
    read := by
      intro keyword hkeyword
      have hother := (by decide : ∀ keyword ∈ executableKeywords,
        caselessEq actionKey keyword.text = false ∧ caselessEq workflowKey keyword.text = false)
      obtain ⟨haction, hworkflow⟩ := hother keyword hkeyword
      rw [readKeyword, readKeyword, hreordered.lookup?_eq hdistinct.own haction hworkflow]
    tasks := fun _ => endAlike_filledMap (TasksAgree.refl _ _)
      (hreordered.mapsAgree_tasks hdistinct)
    action := fun _ => endAlike_filledMap (ActionsAgree.refl _)
      (hreordered.mapsAgree_action hdistinct) }
  exact rel_executable hagree

/-- The tasks of a flow that builds and publishes, and cleans up if that fails. -/
def buildTasks : Mapping :=
  [("build", .map [("do", .map [("ops.build", .null)]), ("Publish", .list [.text "log"])]),
    ("on_failure", .map
      [("clean", .map [("do", .map [("ops.clean", .null)]), ("navigate", .map [])])])]

/-- The same tasks, the branch for failures in front. -/
def buildTasksReordered : Mapping :=
  [("on_failure", .map
      [("clean", .map [("navigate", .map []), ("do", .map [("ops.clean", .null)])])]),
    ("build", .map [("Publish", .list [.text "log"]), ("do", .map [("ops.build", .null)])])]

/-- The flow. -/
def buildBody : Mapping := [("inputs", .list [.text "target"]), ("workflow", .map buildTasks)]

/-- The flow with all of its keys in another order. -/
def buildBodyReordered : Mapping :=
  [("workflow", .map buildTasksReordered), ("inputs", .list [.text "target"])]

/-- Both give the same flow. -/
theorem sameUpToKey_executable_of_buildBody :
    DistinctKeys buildBody ∧ Reordered buildBody buildBodyReordered ∧
      ∃ compiled,
        executable {} ((SourceFile.empty "build.sl" "user" .flow).withImport "ops" "user.ops")
          "build" buildBody = .ok compiled ∧
        executable {} ((SourceFile.empty "build.sl" "user" .flow).withImport "ops" "user.ops")
          "build" buildBodyReordered = .ok compiled := by
  have htasks : buildBody.lookup? workflowKey = some (.map buildTasks) := rfl
  have haction : buildBody.lookup? actionKey = none := rfl
  have hdistinct : DistinctKeys buildBody := {
    own := by decide
    action := by
      intro declared hdeclared
      rw [haction] at hdeclared
      cases hdeclared
    main := by
      intro declared hdeclared entry hentry taskBody hbody
      obtain rfl := Value.map.inj (Option.some.inj (htasks.symm.trans hdeclared))
      obtain rfl := List.mem_singleton.mp hentry
      obtain rfl := Value.map.inj hbody
      decide
    branch := by
      intro declared hdeclared entry hentry taskBody hbody
      obtain rfl := Value.map.inj (Option.some.inj (htasks.symm.trans hdeclared))
      obtain rfl := List.mem_singleton.mp hentry
      obtain rfl := Value.map.inj hbody
      decide }
  have hworkflow : WorkflowReordered buildTasks buildTasksReordered := {
    main := .cons (.body "build" (.swap _ _ [])) .nil
    branch := .cons (.tasks "on_failure" (.cons (.body "clean" (.swap _ _ [])) .nil)) .nil }
  have hreordered : Reordered buildBody buildBodyReordered :=
    ⟨_, .cons (.same _) (.cons (.workflow (by decide) hworkflow) .nil), .swap _ _ []⟩
  obtain ⟨compiled, hcompiled⟩ := faultOf_eq_none_iff.mp
    (show faultOf (executable {}
      ((SourceFile.empty "build.sl" "user" .flow).withImport "ops" "user.ops") "build"
      buildBody) = none by decide +kernel)
  refine ⟨hdistinct, hreordered, compiled, hcompiled, ?_⟩
  have hsame := sameUpToKey_executable_of_reordered {}
    ((SourceFile.empty "build.sl" "user" .flow).withImport "ops" "user.ops") "build" hdistinct
    hreordered
  rcases hsame with heq | ⟨_, _, _, hunknown, _⟩
  · rw [← heq, hcompiled]
  · rw [hcompiled] at hunknown
    cases hunknown

end Compile

end Taskflow
