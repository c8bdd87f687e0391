import Taskflow.Compile.Executable
import Taskflow.Proofs.Outcome

/-!
# Two compilations that agree

Compilation looks at a map of a document in few ways: it asks whether the map is empty, checks its
keys, and reads what keywords name. Where it sees the same in two documents, it ends alike for
both. The main statement says that this is so for whole executables, up to what the checks of keys
report.
-/

namespace Taskflow

variable {α β γ : Type}

/-- How far the outcomes of two runs agree: at least where a run is compared with itself, and in
runs of two steps where both steps agree. -/
structure Agreement where
  /-- The outcomes agree. -/
  rel : ∀ {α : Type}, Except Fault α → Except Fault α → Prop
  /-- A run agrees with itself. -/
  refl : ∀ {α : Type} (run : Except Fault α), rel run run
  /-- Runs in two steps agree if their steps do. -/
  bind : ∀ {α β : Type} {left right : Except Fault α} {next next' : α → Except Fault β},
    rel left right →
      (∀ value, left = .ok value → right = .ok value → rel (next value) (next' value)) →
        rel (left >>= next) (right >>= next')

/-- Two runs end alike if they end with the same fault or give related results. -/
inductive EndAlike (related : α → β → Prop) : Except Fault α → Except Fault β → Prop
  | refused (fault : Fault) : EndAlike related (.error fault) (.error fault)
  | given {left : α} {right : β} (h : related left right) : EndAlike related (.ok left) (.ok right)

/-- A run ends like itself if results are related to themselves. -/
theorem EndAlike.refl {related : α → α → Prop} (h : ∀ result, related result result)
    (run : Except Fault α) : EndAlike related run run := by
  cases run with
  | error fault => exact .refused fault
  | ok result => exact .given (h result)

namespace Agreement

variable (R : Agreement)

/-- What is made of the results does not matter. -/
theorem map {left right : Except Fault α} (h : R.rel left right) (f : α → Except Fault β) :
    R.rel (left >>= f) (right >>= f) :=
  R.bind h fun _ _ _ => R.refl _

/-- Runs agree if their first steps end alike and the second ones agree on related results. -/
theorem step {related : α → β → Prop} {left : Except Fault α} {right : Except Fault β}
    {next : α → Except Fault γ} {next' : β → Except Fault γ} (h : EndAlike related left right)
    (hnext : ∀ a b, related a b → R.rel (next a) (next' b)) :
    R.rel (left >>= next) (right >>= next') := by
  cases h with
  | refused fault => exact R.refl _
  | given hrelated => exact hnext _ _ hrelated

end Agreement

/-- Keywords that read the same in two maps bind the same in both. -/
theorem readBindings_congr {entries entries' : Mapping} {keywords : List Keyword}
    (h : ∀ keyword ∈ keywords, readKeyword entries keyword = readKeyword entries' keyword) :
    readBindings entries keywords = readBindings entries' keywords := by
  unfold readBindings
  generalize Dict.empty = start
  induction keywords generalizing start with
  | nil => rfl
  | cons keyword rest ih =>
    have hrest := ih fun other hother => h other (List.mem_cons_of_mem _ hother)
    rw [List.foldlM_cons, List.foldlM_cons, h keyword List.mem_cons_self]
    exact congrArg _ (funext hrest)

namespace Compile

variable (R : Agreement) {context context' : Context} {name target : String}
  {body body' : Mapping} {next : Option String}

/-- Compilation sees the same in the bodies of two tasks. -/
structure BodiesAgree (context context' : Context) (name : String) (body body' : Mapping) :
    Prop where
  /-- Both are empty or neither is. -/
  isEmpty_eq : body.isEmpty = body'.isEmpty
  /-- The checks of their keys agree. -/
  keys : R.rel (checkKeys body taskKeywords context.taskKeys name)
    (checkKeys body' taskKeywords context'.taskKeys name)
  /-- Every keyword of a task reads the same in both. -/
  read : ∀ keyword ∈ taskKeywords, readKeyword body keyword = readKeyword body' keyword
  /-- Both invoke the same. -/
  reference : taskReference name body = taskReference name body'

/-- Compilation sees the same in the bodies of two entries of one name. -/
def EntriesAgree (context context' : Context) (entry entry' : String × Value) : Prop :=
  entry.1 = entry'.1 ∧
    EndAlike (BodiesAgree R context context' entry.1) (entry.2.asBody entry.1)
      (entry'.2.asBody entry.1)

/-- Compilation sees the same in the tasks of two flows. -/
structure TasksAgree (context context' : Context) (declared declared' : Mapping) : Prop where
  /-- The main tasks are the same, one by one. -/
  main : List.Forall₂ (EntriesAgree R context context') (mainEntries declared)
    (mainEntries declared')
  /-- The branches for failures end alike, with the same tasks one by one. -/
  branch : EndAlike (List.Forall₂ (EntriesAgree R context context')) (failureEntries declared)
    (failureEntries declared')

/-- Compilation sees the same in two actions. -/
structure ActionsAgree (declared declared' : Mapping) : Prop where
  /-- The checks of their keys agree. -/
  keys : R.rel (checkKeys declared (Registry.standard.inScope .action) [] actionContext)
    (checkKeys declared' (Registry.standard.inScope .action) [] actionContext)
  /-- Every keyword of an action reads the same in both. -/
  read : ∀ keyword ∈ Registry.standard.inScope .action,
    readKeyword declared keyword = readKeyword declared' keyword

/-- Compilation sees the same in one entry, in two contexts in which the checks of keys agree. -/
theorem EntriesAgree.of_keys
    (h : ∀ (name : String) (body : Mapping),
      R.rel (checkKeys body taskKeywords context.taskKeys name)
        (checkKeys body taskKeywords context'.taskKeys name))
    (entry : String × Value) : EntriesAgree R context context' entry entry := by
  have hbody : ∀ body : Mapping, BodiesAgree R context context' entry.1 body body :=
    fun body => ⟨rfl, h entry.1 body, fun _ _ => rfl, rfl⟩
  exact ⟨rfl, EndAlike.refl hbody _⟩

/-- Compilation sees the same in one list of tasks, in two contexts in which the checks of keys
agree. -/
theorem TasksAgree.of_keys
    (h : ∀ (name : String) (body : Mapping),
      R.rel (checkKeys body taskKeywords context.taskKeys name)
        (checkKeys body taskKeywords context'.taskKeys name))
    (declared : Mapping) : TasksAgree R context context' declared declared := by
  have hentries : ∀ entries : Mapping,
      List.Forall₂ (EntriesAgree R context context') entries entries :=
    fun _ => List.forall₂_same.mpr fun entry _ => EntriesAgree.of_keys R h entry
  exact ⟨hentries _, EndAlike.refl hentries _⟩

/-- Compilation sees the same in one entry. -/
theorem EntriesAgree.refl (context : Context) (entry : String × Value) :
    EntriesAgree R context context entry entry :=
  EntriesAgree.of_keys R (fun _ _ => R.refl _) entry

/-- Compilation sees the same in one list of tasks. -/
theorem TasksAgree.refl (context : Context) (declared : Mapping) :
    TasksAgree R context context declared declared :=
  TasksAgree.of_keys R (fun _ _ => R.refl _) declared

/-- Compilation sees the same in one action. -/
theorem ActionsAgree.refl (declared : Mapping) : ActionsAgree R declared declared :=
  ⟨R.refl _, fun _ _ => rfl⟩

/-- Contexts that resolve references alike. -/
structure Context.ResolveAlike (context context' : Context) : Prop where
  /-- The policies are the same. -/
  policy_eq : context.settings.referencePolicy = context'.settings.referencePolicy
  /-- The imports are the same. -/
  imports_eq : context.imports = context'.imports

variable {R}

/-- Tasks agree if compilation sees the same in their bodies. -/
theorem rel_task (hcontext : context.ResolveAlike context')
    (h : BodiesAgree R context context' name body body') :
    R.rel (task context name body next target) (task context' name body' next target) := by
  have hbefore := readBindings_congr fun keyword hkeyword =>
    h.read keyword ((by decide : ∀ keyword ∈ Registry.standard.inScope .beforeTask,
      keyword ∈ taskKeywords) keyword hkeyword)
  have hafter := readBindings_congr fun keyword hkeyword =>
    h.read keyword ((by decide : ∀ keyword ∈ Registry.standard.inScope .afterTask,
      keyword ∈ taskKeywords) keyword hkeyword)
  unfold task
  rw [← h.isEmpty_eq]
  split
  · exact R.refl _
  · rw [hbefore, hafter, h.reference, hcontext.policy_eq, hcontext.imports_eq]
    exact R.map h.keys _

/-- Entries that agree one by one are followed by tasks of the same name. -/
theorem head?_name_eq {entries entries' : Mapping}
    (h : List.Forall₂ (EntriesAgree R context context') entries entries') :
    entries.head?.map Prod.fst = entries'.head?.map Prod.fst := by
  cases h with
  | nil => rfl
  | cons hentry _ => exact congrArg some hentry.1

/-- Where entries agree one by one, both maps are empty or neither is. -/
theorem isEmpty_eq {entries entries' : Mapping}
    (h : List.Forall₂ (EntriesAgree R context context') entries entries') :
    entries.isEmpty = entries'.isEmpty := by
  cases h <;> rfl

/-- Tasks in order agree if compilation sees the same in their entries. -/
theorem rel_tasks (hcontext : context.ResolveAlike context') {entries entries' : Mapping}
    (h : List.Forall₂ (EntriesAgree R context context') entries entries') :
    R.rel (tasks context target entries) (tasks context' target entries') := by
  induction h with
  | nil => exact R.refl _
  | @cons entry entry' rest rest' hentry hrest ih =>
    obtain ⟨name, value⟩ := entry
    obtain ⟨name', value'⟩ := entry'
    obtain ⟨rfl, hbodies⟩ := hentry
    rw [tasks, tasks, head?_name_eq hrest]
    refine R.step hbodies fun body body' hbody => ?_
    refine R.bind (rel_task hcontext hbody) fun first _ _ => ?_
    exact R.map ih _

/-- Flows agree if compilation sees the same in their tasks. -/
theorem rel_workflow (hcontext : context.ResolveAlike context')
    (h : EndAlike (TasksAgree R context context') (declaredTasks name body)
      (declaredTasks name body')) :
    R.rel (workflow context name body) (workflow context' name body') := by
  refine R.step h fun declared declared' hdeclared => ?_
  refine R.step hdeclared.branch fun failures failures' hfailures => ?_
  refine R.bind (rel_tasks hcontext hfailures) fun handlers _ _ => ?_
  have hempty := isEmpty_eq hdeclared.main
  have hmain : R.rel (mainTasks context (failureTarget handlers) (mainEntries declared))
      (mainTasks context' (failureTarget handlers) (mainEntries declared')) := by
    unfold mainTasks
    rw [hempty]
    split
    · exact R.refl _
    · exact rel_tasks hcontext hdeclared.main
  exact R.map hmain _

/-- What stands under the key of a map in two documents: the same, or related maps. -/
inductive MapsAgree (related : Mapping → Mapping → Prop) : Option Value → Option Value → Prop
  | same (value : Option Value) : MapsAgree related value value
  | maps {entries entries' : Mapping} (hempty : entries.isEmpty = entries'.isEmpty)
      (h : related entries entries') :
      MapsAgree related (some (.map entries)) (some (.map entries'))

/-- Maps that must be filled are read alike if what stands under their key agrees. -/
theorem endAlike_filledMap {related : Mapping → Mapping → Prop} {key : String} {missing : Fault}
    (hrefl : ∀ entries, related entries entries)
    (h : MapsAgree related (body.lookup? key) (body'.lookup? key)) :
    EndAlike related (filledMap key missing body) (filledMap key missing body') := by
  unfold filledMap
  generalize body.lookup? key = value, body'.lookup? key = value' at h
  cases h with
  | same => exact EndAlike.refl hrefl _
  | @maps entries entries' hempty hrelated =>
    cases entries with
    | nil =>
      obtain rfl := List.isEmpty_iff.mp hempty.symm
      exact .refused missing
    | cons entry rest =>
      cases entries' with
      | nil => cases hempty
      | cons entry' rest' => exact .given hrelated

/-- Operations agree if compilation sees the same in their actions. -/
theorem rel_action
    (h : EndAlike (ActionsAgree R) (declaredAction name body) (declaredAction name body')) :
    R.rel (action name body) (action name body') := by
  refine R.step h fun declared declared' hdeclared => ?_
  rw [readBindings_congr hdeclared.read]
  exact R.map hdeclared.keys _

/-- Compilation sees the same in the bodies of two executables of one name in one file. -/
structure ExecutablesAgree (R : Agreement) (settings settings' : Settings) (file : SourceFile)
    (name : String) (body body' : Mapping) : Prop where
  /-- Both are empty or neither is. -/
  isEmpty_eq : body.isEmpty = body'.isEmpty
  /-- The policies are the same. -/
  policy_eq : settings.referencePolicy = settings'.referencePolicy
  /-- The checks of their keys agree. -/
  keys : R.rel (checkKeys body executableKeywords (executableKeys settings) name)
    (checkKeys body' executableKeywords (executableKeys settings') name)
  /-- Every keyword of an executable reads the same in both. -/
  read : ∀ keyword ∈ executableKeywords, readKeyword body keyword = readKeyword body' keyword
  /-- The tasks of both are the same, if the file holds flows. -/
  tasks : file.kind = .flow →
    EndAlike (TasksAgree R ⟨settings, file.imports⟩ ⟨settings', file.imports⟩)
      (declaredTasks name body) (declaredTasks name body')
  /-- The actions of both are the same, if the file holds operations. -/
  action : file.kind = .operations →
    EndAlike (ActionsAgree R) (declaredAction name body) (declaredAction name body')

/-- Executables agree if compilation sees the same in their bodies. -/
theorem rel_executable {settings settings' : Settings} {file : SourceFile}
    (h : ExecutablesAgree R settings settings' file name body body') :
    R.rel (executable settings file name body) (executable settings' file name body') := by
  have hsignature : signature file.namespaceName name body =
      signature file.namespaceName name body' := by
    unfold signature
    rw [readBindings_congr fun keyword hkeyword =>
        h.read keyword ((by decide : ∀ keyword ∈ Registry.standard.inScope .beforeExecutable,
          keyword ∈ executableKeywords) keyword hkeyword),
      readBindings_congr fun keyword hkeyword =>
        h.read keyword ((by decide : ∀ keyword ∈ Registry.standard.inScope .afterExecutable,
          keyword ∈ executableKeywords) keyword hkeyword)]
  unfold executable
  rw [← h.isEmpty_eq]
  split
  · exact R.refl _
  · refine R.bind h.keys fun _ _ _ => ?_
    rw [hsignature]
    refine R.bind (R.refl _) fun declared _ _ => ?_
    unfold content
    cases hkind : file.kind with
    | flow =>
      have hcontext : Context.ResolveAlike ⟨settings, file.imports⟩ ⟨settings', file.imports⟩ :=
        ⟨h.policy_eq, rfl⟩
      exact R.map (rel_workflow hcontext (h.tasks hkind)) _
    | operations => exact R.map (rel_action (h.action hkind)) _
    | other kind => exact R.refl _

end Compile

end Taskflow
