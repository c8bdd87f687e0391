import Taskflow.Proofs.Compile.Revised

/-!
# The case of keywords

Keywords may be written in any mixture of capitals and small letters. The main statement says that
an executable is compiled to the same result or fault however the keywords of its body, of its
action and of its tasks are spelled, as long as no two keys of one map are equal up to case.
-/

namespace Taskflow

open Text

/-- The edit that spells keys in another case where they match one of the given names. -/
def Edit.respell (names : List String) : Edit where
  respells key := ∃ name ∈ names, caselessEq key name = true
  leavesOut _ := False

/-- Spelling names in another case is harmless where the names are legal, ASCII and without
capitals. -/
theorem Edit.harmless_respell {names legal : List String} (hlegal : ∀ name ∈ names, name ∈ legal)
    (hnames : ∀ name ∈ names,
      (∀ c ∈ name.toList, c.toNat < 0x80) ∧ asciiLower name = name.toList) :
    (Edit.respell names).Harmless legal where
  respelled := by
    rintro key key' ⟨name, hname, hmatch⟩ hcase
    obtain ⟨hascii, hsmall⟩ := hnames name hname
    have hmatch' : caselessEq key' name = true := caselessEq_of_both hcase hmatch
    rw [lowerCase_of_caselessEq hascii hsmall hmatch, lowerCase_of_caselessEq hascii hsmall hmatch']
    exact ⟨hlegal name hname, hlegal name hname⟩
  leftOut _ hentry := hentry.elim
  leftOut_null _ hentry := hentry.elim

namespace Compile

/-- The keywords and reserved keys of the body of an executable. -/
def executableNames : List String :=
  ["inputs", "outputs", "results", "action", "workflow", "name"]

/-- The keywords of an action. -/
def actionNames : List String := ["java_action", "python_script"]

/-- The keywords of a task, two of which are reserved keys too. -/
def taskNames : List String :=
  ["do", "loop", "parallel_loop", "publish", "navigate", "aggregate", "break"]

/-- Spell keywords and reserved keys in another case, in the body of an executable, in its action
and in the bodies of its tasks. -/
def respelling : Revision where
  own := .respell executableNames
  action := .respell actionNames
  workflow := .keepAll
  task := .respell taskNames
  input item item' := item = item'

/-- All of these names are ASCII without capitals. -/
theorem small_of_mem_names : ∀ name ∈ executableNames ++ actionNames ++ taskNames,
    (∀ c ∈ name.toList, c.toNat < 0x80) ∧ asciiLower name = name.toList := by
  intro name hname
  have hascii : ∀ name ∈ executableNames ++ actionNames ++ taskNames,
      (name.toList.all fun c => c.toNat < 0x80) = true := by decide
  have hsmall : ∀ name ∈ executableNames ++ actionNames ++ taskNames,
      asciiLower name = name.toList := by decide
  exact ⟨by simpa using hascii name hname, hsmall name hname⟩

/-- The keywords and reserved keys of an executable may stand in it. -/
theorem legal_of_mem_executableNames (settings : Settings) :
    ∀ name ∈ executableNames, name ∈ legalKeys executableKeywords (executableKeys settings) := by
  have hkeys : legalKeys executableKeywords (executableKeys settings) =
      executableNames ++ settings.extraExecutableKeywords.map lowerCase := by rfl
  intro name hname
  rw [hkeys]
  exact List.mem_append_left _ hname

/-- The keywords of a task may stand in it. -/
theorem legal_of_mem_taskNames (context : Context) :
    ∀ name ∈ taskNames, name ∈ legalKeys taskKeywords context.taskKeys := by
  have hkeys : taskKeywords.map Keyword.text = taskNames := by rfl
  intro name hname
  rw [legalKeys, hkeys]
  exact List.mem_append_left _ hname

/-- An executable is compiled to the same result or fault in whatever case its keywords are
spelled. -/
theorem executable_eq_of_respelled (settings : Settings) (file : SourceFile) (name : String)
    {body body' : Mapping} (hdistinct : DistinctKeys body) (h : respelling.Revised body body') :
    executable settings file name body = executable settings file name body' := by
  have hsmall := small_of_mem_names
  have hown : respelling.own.Harmless (legalKeys executableKeywords (executableKeys settings)) :=
    Edit.harmless_respell (legal_of_mem_executableNames settings) fun name hname =>
      hsmall name (List.mem_append_left _ (List.mem_append_left _ hname))
  have haction : respelling.action.Harmless (legalKeys (Registry.standard.inScope .action) []) :=
    Edit.harmless_respell (by decide) fun name hname =>
      hsmall name (List.mem_append_left _ (List.mem_append_right _ hname))
  have htask : respelling.task.Harmless
      (legalKeys taskKeywords (Context.taskKeys ⟨settings, file.imports⟩)) :=
    Edit.harmless_respell (legal_of_mem_taskNames _) fun name hname =>
      hsmall name (List.mem_append_right _ hname)
  have hworkflow : respelling.KeepsTasks := ⟨fun _ hkey => hkey, fun _ hentry => hentry.elim⟩
  have hinput : respelling.KeepsInputs := fun key _ _ hitem => congrArg (Entry.readInput key) hitem
  exact executable_eq_of_revised
    (Revision.unnoticed_of_distinctKeys hdistinct hinput hown haction hworkflow htask) h

/-- A flow of one task and a handler, in which some keywords are spelled as given. -/
def spelledBody (inputsKey tasksKey doKey publishKey : String) : Mapping :=
  [(inputsKey, .list [.text "target"]),
    (tasksKey, .map
      [("build", .map [(doKey, .map [("ops.build", .list [.text "target"])]),
          (publishKey, .list [.text "log"])]),
        ("on_failure", .map [("clean", .map [("do", .map [("ops.clean", .null)])])])])]

/-- The flow gives the same result with its keywords in small letters and in other cases. -/
theorem executable_eq_of_spelledBody :
    DistinctKeys (spelledBody "inputs" "workflow" "do" "publish") ∧
      respelling.Revised (spelledBody "inputs" "workflow" "do" "publish")
        (spelledBody "INPUTS" "WorkFlow" "dO" "Publish") ∧
      ∃ compiled,
        executable {} ((SourceFile.empty "build.sl" "user" .flow).withImport "ops" "user.ops")
          "build" (spelledBody "inputs" "workflow" "do" "publish") = .ok compiled ∧
        executable {} ((SourceFile.empty "build.sl" "user" .flow).withImport "ops" "user.ops")
          "build" (spelledBody "INPUTS" "WorkFlow" "dO" "Publish") = .ok compiled := by
  have hdistinct : DistinctKeys (spelledBody "inputs" "workflow" "do" "publish") :=
    distinctKeys_of_flow (by decide) rfl rfl (by decide)
  have hspells : ∀ {names : List String} {key key' : String},
      (∃ name ∈ names, caselessEq key name = true) → caselessEq key key' = true →
        (Edit.respell names).Spells key key' := fun hkey hcase => .inr ⟨hkey, hcase⟩
  have htask : respelling.TaskRevised
      (.map [("do", .map [("ops.build", .list [.text "target"])]),
        ("publish", .list [.text "log"])])
      (.map [("dO", .map [("ops.build", .list [.text "target"])]),
        ("Publish", .list [.text "log"])]) :=
    .body ⟨.keep (hspells (by decide) (by decide)) (.same _ _)
      (.keep (hspells (by decide) (by decide)) (.same _ _) .nil), fun _ => List.cons_ne_nil _ _⟩
  have hrevised : respelling.Revised (spelledBody "inputs" "workflow" "do" "publish")
      (spelledBody "INPUTS" "WorkFlow" "dO" "Publish") := by
    refine ⟨.keep (hspells (by decide) (by decide)) (.same _ _)
      (.keep (hspells (by decide) (by decide)) (.workflow (by decide) ⟨?_, fun _ => ?_⟩) .nil),
      fun _ => List.cons_ne_nil _ _⟩
    · exact .keep (.inl rfl) htask (.keep (.inl rfl) (.same _) .nil)
    · exact List.cons_ne_nil _ _
  obtain ⟨compiled, hcompiled⟩ := faultOf_eq_none_iff.mp
    (show faultOf (executable {}
      ((SourceFile.empty "build.sl" "user" .flow).withImport "ops" "user.ops") "build"
      (spelledBody "inputs" "workflow" "do" "publish")) = none by decide +kernel)
  refine ⟨hdistinct, hrevised, compiled, hcompiled, ?_⟩
  rw [← executable_eq_of_respelled {} _ "build" hdistinct hrevised]
  exact hcompiled

end Compile

end Taskflow
