import Taskflow.Proofs.Compile.Revised

/-!
# Reserved keys

Some keys may stand in a map though compilation reads nothing under them: reserved keys, and those
that the settings add. The main statement says that such keys with whatever values in the body of an
executable or of a task leave the result or fault as it is, and that settings with more keys keep
every result and every fault but that of an unknown key.
-/

namespace Taskflow

open Text

/-- The edit that leaves out what stands under legal keys that match none of the given names. -/
def Edit.dropUnread (legal names : List String) : Edit where
  respells _ := False
  leavesOut entry := lowerCase entry.1 ∈ legal ∧ ∀ name ∈ names, caselessEq entry.1 name = false

/-- Where only the given names are looked up, leaving out other legal keys is not noticed. -/
theorem Edit.unnoticed_dropUnread (legal names : List String) (entries : Mapping) :
    (Edit.dropUnread legal names).Unnoticed legal names entries where
  respelled _ _ hkey := hkey.elim
  leftOut _ hentry := hentry.1
  hidden := .inr ⟨fun _ hkey => hkey, fun _ hentry => hentry.2⟩

/-- The edit that keeps everything is not noticed. -/
theorem Edit.unnoticed_keepAll (legal names : List String) (entries : Mapping) :
    Edit.keepAll.Unnoticed legal names entries where
  respelled _ _ hkey := hkey.elim
  leftOut _ hentry := hentry.elim
  hidden := .inr ⟨fun _ hkey => hkey, fun _ hentry => hentry.elim⟩

/-- The same settings but for further keys that executables and tasks may carry. -/
structure Settings.ReservesMore (settings settings' : Settings) : Prop where
  /-- The policies are the same. -/
  policy_eq : settings.referencePolicy = settings'.referencePolicy
  /-- Executables may carry at least the same keys. -/
  executable_subset : settings.extraExecutableKeywords ⊆ settings'.extraExecutableKeywords
  /-- Tasks may carry at least the same keys. -/
  task_subset : settings.extraTaskKeywords ⊆ settings'.extraTaskKeywords

/-- Runs agree that have the same outcome, unless the first one refuses an unknown key. -/
def Agreement.unlessUnknown : Agreement where
  rel left right := left = right ∨ ∃ key context, left = .error (.unknownKeyword key context)
  refl _ := .inl rfl
  bind := by
    rintro α β left right next next' (rfl | ⟨key, context, rfl⟩) hnext
    · cases left with
      | error fault => exact .inl rfl
      | ok value => exact hnext value rfl rfl
    · exact .inr ⟨key, context, rfl⟩

/-- A map passes the check of its keys if it does so with fewer reserved keys. -/
theorem unlessUnknown_checkKeys {reserved reserved' : List String} (h : reserved ⊆ reserved')
    (entries : Mapping) (legal : List Keyword) (context : String) :
    Agreement.unlessUnknown.rel (checkKeys entries legal reserved context)
      (checkKeys entries legal reserved' context) := by
  rcases @checkKeys_eq_ok_or entries legal reserved context with hok | ⟨key, hkey⟩
  · have hreserved := List.map_subset lowerCase h
    have hlegal : legalKeys legal reserved ⊆ legalKeys legal reserved' := fun text htext =>
      List.mem_append.mpr ((List.mem_append.mp htext).imp_right fun hmem => hreserved hmem)
    have hok' : checkKeys entries legal reserved' context = .ok () :=
      checkKeys_eq_ok_iff.mpr fun key hkey => hlegal (checkKeys_eq_ok_iff.mp hok key hkey)
    exact .inl (hok.trans hok'.symm)
  · exact .inr ⟨key, context, hkey⟩

namespace Compile

variable {settings settings' : Settings} {file : SourceFile} {name : String}
  {body body' : Mapping}

/-- Leave out legal keys under which nothing is read, in the body of an executable of a file of some
kind and in the bodies of its tasks. -/
def unreserving (settings : Settings) (kind : FileKind) : Revision where
  own := .dropUnread (legalKeys executableKeywords (executableKeys settings)) (partNames kind)
  action := .keepAll
  workflow := .keepAll
  task := .dropUnread (legalKeys taskKeywords (Context.taskKeys ⟨settings, .empty⟩))
    (taskKeywords.map Keyword.text)
  input item item' := item = item'

/-- Compilation does not notice that keys are gone under which it reads nothing. -/
theorem unnoticed_unreserving (settings : Settings) (file : SourceFile) (body : Mapping) :
    (unreserving settings file.kind).Unnoticed settings file body where
  input key _ _ hitem := congrArg (Entry.readInput key) hitem
  own := Edit.unnoticed_dropUnread _ _ body
  action declared _ := Edit.unnoticed_keepAll _ _ declared
  workflow := ⟨fun _ hkey => hkey, fun _ hentry => hentry.elim⟩
  task _ _ _ _ taskBody _ := Edit.unnoticed_dropUnread _ _ taskBody

/-- An executable is compiled alike with further keys that executables and tasks may carry, unless
an unknown key is refused. -/
theorem unlessUnknown_executable (h : settings.ReservesMore settings') :
    Agreement.unlessUnknown.rel (executable settings file name body)
      (executable settings' file name body) := by
  have hkeys : executableKeys settings ⊆ executableKeys settings' :=
    List.cons_subset_cons _ (List.cons_subset_cons _
      (List.cons_subset_cons _ h.executable_subset))
  have htaskKeys : Context.taskKeys ⟨settings, file.imports⟩ ⊆
      Context.taskKeys ⟨settings', file.imports⟩ :=
    List.cons_subset_cons _ (List.cons_subset_cons _ h.task_subset)
  have htasks : ∀ declared, TasksAgree Agreement.unlessUnknown ⟨settings, file.imports⟩
      ⟨settings', file.imports⟩ declared declared :=
    TasksAgree.of_keys _ fun name body => unlessUnknown_checkKeys htaskKeys body taskKeywords name
  have hagree : ExecutablesAgree Agreement.unlessUnknown settings settings' file name body body := {
    isEmpty_eq := rfl
    policy_eq := h.policy_eq
    keys := unlessUnknown_checkKeys hkeys _ _ _
    read := fun _ _ => rfl
    tasks := fun _ => EndAlike.refl htasks _
    action := fun _ => EndAlike.refl (ActionsAgree.refl _) _ }
  exact rel_executable hagree

/-- Keys under which nothing is read change nothing in the compilation of an executable, and
settings with further keys change nothing unless an unknown key is refused without them. -/
theorem executable_eq_of_reserved (settings : Settings) (file : SourceFile) (name : String)
    (body : Mapping) :
    (∀ body', (unreserving settings file.kind).Revised body' body →
      executable settings file name body' = executable settings file name body) ∧
    ∀ settings', settings.ReservesMore settings' →
      (∀ key context,
        executable settings file name body ≠ .error (.unknownKeyword key context)) →
      executable settings' file name body = executable settings file name body := by
  refine ⟨fun body' hrevised => ?_, fun settings' hmore hknown => ?_⟩
  · exact executable_eq_of_revised (unnoticed_unreserving settings file body') hrevised
  · rcases unlessUnknown_executable hmore with heq | ⟨key, context, hunknown⟩
    · exact heq.symm
    · exact absurd hunknown (hknown key context)

/-- Settings under which executables and tasks may carry one more key each. -/
def ownerSettings : Settings :=
  { extraExecutableKeywords := ["owner"], extraTaskKeywords := ["worker_group"] }

/-- Settings under which they may carry two more. -/
def teamSettings : Settings :=
  { extraExecutableKeywords := ["Team", "owner"], extraTaskKeywords := ["worker_group", "tier"] }

/-- A flow of one task. -/
def plainBody : Mapping :=
  [("workflow", .map [("build", .map [("do", .map [("ops.build", .null)])])])]

/-- The flow with keys under which nothing is read. -/
def ownedBody : Mapping :=
  [("Owner", .list [.null]),
    ("workflow", .map
      [("build", .map [("do", .map [("ops.build", .null)]), ("worker_group", .boolean true)])]),
    ("action", .text "none")]

/-- The flow gives the same result with these keys, without them, and under settings with more
keys. -/
theorem executable_eq_of_ownedBody :
    (unreserving ownerSettings .flow).Revised ownedBody plainBody ∧
      ownerSettings.ReservesMore teamSettings ∧
      ∃ compiled,
        executable ownerSettings
          ((SourceFile.empty "build.sl" "user" .flow).withImport "ops" "user.ops") "build"
          ownedBody = .ok compiled ∧
        executable ownerSettings
          ((SourceFile.empty "build.sl" "user" .flow).withImport "ops" "user.ops") "build"
          plainBody = .ok compiled ∧
        executable teamSettings
          ((SourceFile.empty "build.sl" "user" .flow).withImport "ops" "user.ops") "build"
          plainBody = .ok compiled := by
  have htask : (unreserving ownerSettings .flow).TaskRevised
      (.map [("do", .map [("ops.build", .null)]), ("worker_group", .boolean true)])
      (.map [("do", .map [("ops.build", .null)])]) :=
    .body ⟨.keep (.inl rfl) (.same _ _)
      (.leaveOut ⟨by decide +kernel, by decide⟩ (by decide) .nil), fun _ => List.cons_ne_nil _ _⟩
  have hrevised : (unreserving ownerSettings .flow).Revised ownedBody plainBody := by
    refine ⟨.leaveOut ⟨by decide +kernel, by decide⟩ (by decide) (.keep (.inl rfl)
      (.workflow (by decide) ⟨.keep (.inl rfl) htask .nil, fun _ => ?_⟩)
      (.leaveOut ⟨by decide +kernel, by decide⟩ (by decide) .nil)), fun _ => ?_⟩
    · exact List.cons_ne_nil _ _
    · exact List.cons_ne_nil _ _
  have hmore : ownerSettings.ReservesMore teamSettings := ⟨rfl, by decide, by decide⟩
  obtain ⟨compiled, hcompiled⟩ := faultOf_eq_none_iff.mp
    (show faultOf (executable ownerSettings
      ((SourceFile.empty "build.sl" "user" .flow).withImport "ops" "user.ops") "build"
      plainBody) = none by decide +kernel)
  obtain ⟨hreserved, hadded⟩ := executable_eq_of_reserved ownerSettings
    ((SourceFile.empty "build.sl" "user" .flow).withImport "ops" "user.ops") "build" plainBody
  refine ⟨hrevised, hmore, compiled, ?_, hcompiled, ?_⟩
  · rw [hreserved ownedBody hrevised]
    exact hcompiled
  · have hknown : ∀ key context, executable ownerSettings
        ((SourceFile.empty "build.sl" "user" .flow).withImport "ops" "user.ops") "build"
        plainBody ≠ .error (.unknownKeyword key context) := by
      intro key context hunknown
      rw [hcompiled] at hunknown
      cases hunknown
    rw [hadded teamSettings hmore hknown]
    exact hcompiled

end Compile

end Taskflow
