import Mathlib.Logic.Relation
import Taskflow.Proofs.Reference.Identity

/-!
# The imports that count

A compilation looks at imports only to resolve the references of tasks, each by the alias in front
of its first point. The main statement says that an executable is compiled to the same result or
fault with any imports that hold the same under the aliases that its tasks use. If imports are
listed in pairs, pairs of different aliases may therefore change places, pairs that are replaced may
be left out, and pairs of other aliases may be added.
-/

namespace Taskflow

variable {imports imports' : Imports} {reference : String}

/-- Imports hold the same namespace, or none, under all aliases of some kind. -/
def Imports.AgreeOn (used : String → Prop) (imports imports' : Imports) : Prop :=
  ∀ aliasName, used aliasName → imports.get? aliasName = imports'.get? aliasName

namespace Reference

/-- The alias of a reference: what stands before its first point. -/
def aliasOf? (reference : String) : Option String :=
  (Text.cut? ['.'] reference.toList).map fun parts => String.ofList parts.1

/-- A reference has an alias exactly if it is made of the alias, a point and something else, where
the alias has no point of its own. -/
theorem aliasOf?_eq_some_iff {aliasName : String} :
    aliasOf? reference = some aliasName ↔
      '.' ∉ aliasName.toList ∧ ∃ rest, reference = aliasName ++ "." ++ rest := by
  rw [aliasOf?, Option.map_eq_some_iff]
  constructor
  · rintro ⟨⟨before, after⟩, hcut, rfl⟩
    obtain ⟨hpoint, hparts⟩ := Text.cut?_singleton_eq_some_iff.mp hcut
    refine ⟨by simpa using hpoint, String.ofList after, ?_⟩
    rw [← String.toList_inj, hparts]
    simp
  · rintro ⟨hpoint, rest, rfl⟩
    have hcut : Text.cut? ['.'] (aliasName ++ "." ++ rest).toList =
        some (aliasName.toList, rest.toList) :=
      Text.cut?_singleton_eq_some_iff.mpr ⟨hpoint, by simp⟩
    exact ⟨_, hcut, String.ofList_toList⟩

/-- A reference resolves alike with imports that agree on its alias. -/
theorem resolve_eq_of_agreeOn
    (h : Imports.AgreeOn (fun aliasName => aliasOf? reference = some aliasName) imports imports') :
    resolve reference imports = resolve reference imports' := by
  unfold resolve
  cases hsplit : split? reference with
  | none => rfl
  | some parts =>
    obtain ⟨aliasName, name⟩ := parts
    obtain ⟨⟨_, hpoint⟩, _, hparts⟩ := split?_eq_some_iff.mp hsplit
    dsimp only
    rw [h aliasName (aliasOf?_eq_some_iff.mpr ⟨hpoint, name, hparts⟩)]

/-- The same under either policy. -/
theorem resolveWith_eq_of_agreeOn (policy : ReferencePolicy)
    (h : Imports.AgreeOn (fun aliasName => aliasOf? reference = some aliasName) imports imports') :
    resolveWith policy reference imports = resolveWith policy reference imports' := by
  unfold resolveWith
  rw [resolve_eq_of_agreeOn h]

end Reference

namespace Compile

variable {settings : Settings} {file : SourceFile} {name target : String} {next : Option String}
  {body entries : Mapping}

/-- The alias by which a task invokes something: that of the one key in the map under its
keyword. -/
def invokedAlias? : Value → Option String
  | .map body =>
    match Mapping.lookup? body Keyword.invoke.text with
    | some (.map [(reference, _)]) => Reference.aliasOf? reference
    | _ => none
  | _ => none

/-- The aliases by which the main tasks of an executable and those that handle its failures invoke
something. -/
def usedAliases (body : Mapping) : List String :=
  match body.lookup? workflowKey with
  | some (.map declared) =>
    (mainEntries declared ++ handlerEntries declared).filterMap fun entry => invokedAlias? entry.2
  | _ => []

/-- A task is compiled alike with imports that agree on its alias. -/
theorem task_eq_of_agreeOn
    (h : Imports.AgreeOn (fun aliasName => invokedAlias? (.map body) = some aliasName) imports
      imports') :
    task ⟨settings, imports⟩ name body next target =
      task ⟨settings, imports'⟩ name body next target := by
  unfold task
  split
  · rfl
  · -- The check of keys and the bindings do not depend on imports, only the last step does.
    refine bind_congr_of_ok fun _ _ => ?_
    refine bind_congr_of_ok fun before _ => ?_
    refine bind_congr_of_ok fun after _ => ?_
    refine bind_congr_of_ok fun reference hreference => ?_
    obtain ⟨arguments, hlookup⟩ := lookup?_of_taskReference_eq_ok hreference
    have hinvoked : invokedAlias? (.map body) = Reference.aliasOf? reference := by
      rw [invokedAlias?, hlookup]
    rw [hinvoked] at h
    rw [Reference.resolveWith_eq_of_agreeOn _ h]

/-- Tasks in order are compiled alike with imports that agree on the aliases of all. -/
theorem tasks_eq_of_agreeOn
    (h : ∀ entry ∈ entries,
      Imports.AgreeOn (fun aliasName => invokedAlias? entry.2 = some aliasName) imports imports') :
    tasks ⟨settings, imports⟩ target entries = tasks ⟨settings, imports'⟩ target entries := by
  induction entries with
  | nil => rfl
  | cons entry rest ih =>
    obtain ⟨name, value⟩ := entry
    have hrest := ih fun other hother => h other (List.mem_cons_of_mem _ hother)
    rw [tasks, tasks, hrest]
    refine bind_congr_of_ok fun body hbody => ?_
    have hfirst : ∀ next, task ⟨settings, imports⟩ name body next target =
        task ⟨settings, imports'⟩ name body next target := by
      intro next
      rcases Value.asBody_eq_ok_iff.mp hbody with rfl | ⟨_, rfl⟩
      · exact task_eq_of_agreeOn (h _ List.mem_cons_self)
      · -- A task that holds null is refused before its reference is looked at.
        rfl
    rw [hfirst]

/-- The tasks of a flow are compiled alike with imports that agree on the aliases that it uses. -/
theorem workflow_eq_of_agreeOn (h : Imports.AgreeOn (· ∈ usedAliases body) imports imports') :
    workflow ⟨settings, imports⟩ name body = workflow ⟨settings, imports'⟩ name body := by
  refine bind_congr_of_ok fun declared hdeclared => ?_
  refine bind_congr_of_ok fun failures hfailures => ?_
  obtain rfl := eq_handlerEntries_of_failureEntries hfailures
  have hused : usedAliases body = (mainEntries declared ++ handlerEntries declared).filterMap
      fun entry => invokedAlias? entry.2 := by
    rw [usedAliases, lookup?_of_filledMap_eq_ok hdeclared]
  have hentries : ∀ entry ∈ mainEntries declared ++ handlerEntries declared,
      Imports.AgreeOn (fun aliasName => invokedAlias? entry.2 = some aliasName) imports
        imports' := by
    intro entry hentry aliasName hinvoked
    apply h
    rw [hused]
    exact List.mem_filterMap.mpr ⟨entry, hentry, hinvoked⟩
  have hhandlers : tasks ⟨settings, imports⟩ failureResult (handlerEntries declared) =
      tasks ⟨settings, imports'⟩ failureResult (handlerEntries declared) :=
    tasks_eq_of_agreeOn fun entry hentry => hentries entry (List.mem_append_right _ hentry)
  have hmain : ∀ target, tasks ⟨settings, imports⟩ target (mainEntries declared) =
      tasks ⟨settings, imports'⟩ target (mainEntries declared) := fun _ =>
    tasks_eq_of_agreeOn fun entry hentry => hentries entry (List.mem_append_left _ hentry)
  simp only [mainTasks, hhandlers, hmain]

/-- An executable is compiled alike with imports that agree on the aliases that it uses. -/
theorem executable_eq_of_agreeOn (h : Imports.AgreeOn (· ∈ usedAliases body) imports imports') :
    executable settings { file with imports := imports } name body =
      executable settings { file with imports := imports' } name body := by
  have hcontent : ∀ declared,
      content settings { file with imports := imports } name body declared =
        content settings { file with imports := imports' } name body declared := by
    intro declared
    unfold content
    dsimp only
    rw [workflow_eq_of_agreeOn h]
  unfold executable
  simp only [hcontent]

end Compile

/-- One change of listed imports, of which only aliases of some kind are used. -/
inductive ImportStep (used : String → Prop) :
    List (String × String) → List (String × String) → Prop
  | swap (front back : List (String × String)) {first second : String × String}
      (h : first.1 ≠ second.1) :
      ImportStep used (front ++ first :: second :: back) (front ++ second :: first :: back)
  | dropReplaced (front back : List (String × String)) {pair : String × String}
      (h : pair.1 ∈ back.map Prod.fst) : ImportStep used (front ++ pair :: back) (front ++ back)
  | addUnused (front back : List (String × String)) {pair : String × String}
      (h : ¬used pair.1) : ImportStep used (front ++ back) (front ++ pair :: back)

/-- A change of listed imports keeps what they hold under the aliases that are used. -/
theorem ImportStep.agreeOn {used : String → Prop} {pairs pairs' : List (String × String)}
    (h : ImportStep used pairs pairs') :
    Imports.AgreeOn used (Dict.ofList pairs) (Dict.ofList pairs') := by
  intro aliasName hused
  cases h with
  | @swap front back first second hne =>
    simp only [Dict.get?_ofList_append, Dict.get?_ofList_cons]
    by_cases hfirst : aliasName = first.1
    · have hsecond : aliasName ≠ second.1 := fun heq => hne (hfirst.symm.trans heq)
      rw [if_neg hsecond, Option.or_none, Option.or_none]
    · rw [if_neg hfirst, Option.or_none, Option.or_none]
  | @dropReplaced front back pair hpair =>
    rw [Dict.get?_ofList_append, Dict.get?_ofList_append, Dict.get?_ofList_cons]
    by_cases heq : aliasName = pair.1
    · obtain ⟨namespaceName, hback⟩ := Dict.exists_get?_ofList (heq ▸ hpair)
      rw [hback, Option.some_or]
    · rw [if_neg heq, Option.or_none]
  | @addUnused front back pair hpair =>
    have hother : aliasName ≠ pair.1 := fun heq => hpair (heq ▸ hused)
    rw [Dict.get?_ofList_append, Dict.get?_ofList_append, Dict.get?_ofList_cons, if_neg hother,
      Option.or_none]

/-- The file with imports listed in pairs, each of which replaces what was imported under its alias
before. -/
def SourceFile.withImports (file : SourceFile) (pairs : List (String × String)) : SourceFile :=
  pairs.foldl (fun file pair => file.withImport pair.1 pair.2) file

/-- Listed imports come behind those that the file has. -/
theorem SourceFile.withImports_eq (file : SourceFile) (pairs : List (String × String)) :
    file.withImports pairs =
      { file with imports := .ofList (file.imports.toList ++ pairs) } := by
  have hfold : file.withImports pairs =
      { file with
        imports :=
          pairs.foldl (fun imports pair => imports.insert pair.1 pair.2) file.imports } := by
    unfold withImports
    induction pairs generalizing file with
    | nil => rfl
    | cons pair rest ih => exact ih (file.withImport pair.1 pair.2)
  have hlist : Dict.ofList (file.imports.toList ++ pairs) =
      pairs.foldl (fun imports pair => imports.insert pair.1 pair.2) file.imports := by
    rw [Dict.ofList, List.foldl_append, ← Dict.ofList, Dict.ofList_toList]
  rw [hfold, hlist]

namespace Compile

variable {settings : Settings} {file : SourceFile} {name : String} {body : Mapping}
  {pairs pairs' : List (String × String)}

/-- An executable is compiled alike after a change of the imports that are listed for its file. -/
theorem executable_eq_of_importStep (h : ImportStep (· ∈ usedAliases body) pairs pairs') :
    executable settings (file.withImports pairs) name body =
      executable settings (file.withImports pairs') name body := by
  rw [SourceFile.withImports_eq, SourceFile.withImports_eq]
  apply executable_eq_of_agreeOn
  intro aliasName hused
  rw [Dict.get?_ofList_append, Dict.get?_ofList_append, h.agreeOn aliasName hused]

/-- An executable is compiled to the same result or fault with any imports that hold the same under
the aliases that its tasks use, and so after any changes of listed imports that keep these. -/
theorem executable_eq_of_imports (settings : Settings) (file : SourceFile) (name : String)
    (body : Mapping) :
    (∀ imports imports' : Imports, Imports.AgreeOn (· ∈ usedAliases body) imports imports' →
      executable settings { file with imports := imports } name body =
        executable settings { file with imports := imports' } name body) ∧
    ∀ pairs pairs' : List (String × String),
      Relation.ReflTransGen (ImportStep (· ∈ usedAliases body)) pairs pairs' →
        executable settings (file.withImports pairs) name body =
          executable settings (file.withImports pairs') name body := by
  refine ⟨fun _ _ hagree => executable_eq_of_agreeOn hagree, fun pairs pairs' hsteps => ?_⟩
  induction hsteps with
  | refl => rfl
  | tail _ hstep ih => rw [ih, executable_eq_of_importStep hstep]

/-- A flow whose tasks use two aliases. -/
def mailBody : Mapping :=
  [("workflow", .map
    [("build", .map [("do", .map [("ops.build", .null)])]),
      ("on_failure", .map [("report", .map [("do", .map [("mail.send", .null)])])])])]

/-- Imports of these aliases, one of which is listed twice. -/
def mailImports : List (String × String) :=
  [("mail", "user.mail"), ("ops", "user.old"), ("ops", "user.ops")]

/-- The same imports in another order, each once, and one more. -/
def spareImports : List (String × String) :=
  [("ops", "user.ops"), ("mail", "user.mail"), ("spare", "user.spare")]

/-- A file for it. -/
def mailFile : SourceFile := SourceFile.empty "build.sl" "user" .flow

/-- The flow gives the same result with both. -/
theorem executable_eq_of_mailBody :
    Imports.AgreeOn (· ∈ usedAliases mailBody) (.ofList mailImports) (.ofList spareImports) ∧
      Relation.ReflTransGen (ImportStep (· ∈ usedAliases mailBody)) mailImports spareImports ∧
      ∃ compiled,
        executable {} (mailFile.withImports mailImports) "build" mailBody = .ok compiled ∧
        executable {} (mailFile.withImports spareImports) "build" mailBody = .ok compiled ∧
        executable {} { mailFile with imports := .ofList spareImports } "build" mailBody =
          .ok compiled := by
  have hagree : Imports.AgreeOn (· ∈ usedAliases mailBody) (.ofList mailImports)
      (.ofList spareImports) :=
    (by decide : ∀ aliasName ∈ usedAliases mailBody,
      (Dict.ofList mailImports).get? aliasName = (Dict.ofList spareImports).get? aliasName)
  have hsteps : Relation.ReflTransGen (ImportStep (· ∈ usedAliases mailBody)) mailImports
      spareImports := by
    have hdrop : ImportStep (· ∈ usedAliases mailBody) mailImports
        [("mail", "user.mail"), ("ops", "user.ops")] :=
      .dropReplaced [("mail", "user.mail")] [("ops", "user.ops")] (by decide)
    have hswap : ImportStep (· ∈ usedAliases mailBody)
        [("mail", "user.mail"), ("ops", "user.ops")] [("ops", "user.ops"), ("mail", "user.mail")] :=
      .swap [] [] (by decide)
    have hadd : ImportStep (· ∈ usedAliases mailBody)
        [("ops", "user.ops"), ("mail", "user.mail")] spareImports :=
      .addUnused [("ops", "user.ops"), ("mail", "user.mail")] [] (by decide)
    exact ((Relation.ReflTransGen.single hdrop).tail hswap).tail hadd
  obtain ⟨compiled, hcompiled⟩ := faultOf_eq_none_iff.mp
    (show faultOf (executable {} (mailFile.withImports mailImports) "build" mailBody) = none by
      decide +kernel)
  obtain ⟨htables, hlists⟩ := executable_eq_of_imports {} mailFile "build" mailBody
  have hlisted : executable {} (mailFile.withImports spareImports) "build" mailBody =
      .ok compiled := by
    rw [← hlists _ _ hsteps]
    exact hcompiled
  have htable : mailFile.withImports mailImports =
      { mailFile with imports := .ofList mailImports } :=
    SourceFile.withImports_eq mailFile mailImports
  refine ⟨hagree, hsteps, compiled, hcompiled, hlisted, ?_⟩
  rw [← htables _ _ hagree, ← htable]
  exact hcompiled

end Compile

end Taskflow
