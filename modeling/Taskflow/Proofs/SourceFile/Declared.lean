import Taskflow.Proofs.Reference.Identity
import Taskflow.Proofs.SourceFile.Operations

/-!
# What documents declare

A document declares the flow under one key and the operations in the list under another one. It
is meant to have one of the two keys, and one that has neither is refused, but one that has both
is not: it is read as its flow. The main statement says what an accepted document is compiled to,
and that this leaves nothing out unless it declares both a flow and an operation.
-/

namespace Taskflow

/-- An executable that a document declares. -/
structure Declaration where
  /-- What the document declares it as. -/
  kind : FileKind
  /-- The name that it is declared under. -/
  name : String
  /-- The body that it is declared with; empty where null stands for it. -/
  body : Mapping

/-- A declaration is compiled in a file, as what it is declared as and under its own name. -/
def Declaration.CompiledTo (settings : Settings) (file : SourceFile) (declaration : Declaration)
    (compiled : Executable) : Prop :=
  Compile.executable settings { file with kind := declaration.kind } declaration.name
    declaration.body = .ok compiled ∧ compiled.name = declaration.name

namespace SourceFile

variable {fileName : String} {content : Mapping} {file : SourceFile}

/-- A pair of a name and a body as a declaration. -/
def declarationOf (kind : FileKind) (executable : String × Mapping) : Declaration :=
  ⟨kind, executable.1, executable.2⟩

/-- The flow of a document under the text of its name, or else under the name of the file. -/
def declaredFlow (fileName : String) (content : Mapping) : List Declaration :=
  match content.get? FileKind.flowName with
  | none => []
  | some value =>
    let body := Checks.entriesOf (some value)
    [declarationOf .flow (((body.get? nameKey).bind Value.scalarText?).getD fileName, body)]

/-- The operations of a document, one for each pair of each entry of their list. -/
def declaredOperations (content : Mapping) : List Declaration :=
  match content.get? FileKind.operationsName with
  | some (.list items) => (items.flatMap declaredIn).map (declarationOf .operations)
  | _ => []

/-- What is read of the declarations of a document: its flow, or without one its operations. -/
def readOf (fileName : String) (content : Mapping) : List Declaration :=
  match declaredFlow fileName content with
  | [] => declaredOperations content
  | flow => flow

/-- The flow that was read is the one that the document declares. -/
theorem declaredFlow_of_readFlow {value : Value} {executables : List (String × Mapping)}
    (hflow : content.get? FileKind.flowName = some value)
    (hread : readFlow fileName value = .ok executables) :
    executables.map (declarationOf .flow) = declaredFlow fileName content := by
  obtain ⟨body, hbody, hnamed⟩ := bind_eq_ok_iff.mp hread
  obtain rfl := Checks.eq_entriesOf_of_asBody hbody
  obtain rfl := Except.ok.inj hnamed
  rw [declaredFlow, hflow]
  rfl

/-- The operations that were read are those that the document declares. -/
theorem declaredOperations_of_readOperations {value : Value}
    {executables : List (String × Mapping)}
    (hoperations : content.get? FileKind.operationsName = some value)
    (hread : readOperations value = .ok executables) :
    executables.map (declarationOf .operations) = declaredOperations content := by
  rw [declaredOperations, hoperations]
  cases value with
  | list items =>
    rw [eq_flatMap_of_readOperations hread]
  | _ => cases hread

/-- A document gives no other executables than those that are read of its declarations. -/
theorem declarations_of_ofDocument_eq_ok (h : ofDocument fileName content = .ok file) :
    file.executables.map (declarationOf file.kind) = readOf fileName content := by
  obtain ⟨namespaceName, _, h⟩ := bind_eq_ok_iff.mp h
  obtain ⟨imports, _, h⟩ := bind_eq_ok_iff.mp h
  obtain ⟨⟨kind, executables⟩, hdeclared, h⟩ := bind_eq_ok_iff.mp h
  obtain rfl := Except.ok.inj h
  unfold readDeclarations at hdeclared
  unfold readOf
  split at hdeclared
  · next value hflow =>
    obtain ⟨_, hread, hmade⟩ := bind_eq_ok_iff.mp hdeclared
    cases Except.ok.inj hmade
    rw [declaredFlow_of_readFlow hflow hread, declaredFlow, hflow]
  · next hflow =>
    split at hdeclared
    · next value hoperations =>
      obtain ⟨_, hread, hmade⟩ := bind_eq_ok_iff.mp hdeclared
      cases Except.ok.inj hmade
      rw [declaredOperations_of_readOperations hoperations hread, declaredFlow, hflow]
    · cases hdeclared

end SourceFile

namespace Compile

open SourceFile

variable {settings : Settings} {fileName : String} {content : Mapping} {file : SourceFile}
  {compiled : List Executable}

/-- Each executable of a file is compiled as it is declared. -/
theorem compiledTo_of_file_eq_ok (h : Compile.file settings file = .ok compiled) :
    List.Forall₂ (Declaration.CompiledTo settings file)
      (file.executables.map (declarationOf file.kind)) compiled := by
  refine List.forall₂_map_left_iff.mpr ((mapM_eq_ok_iff.mp h).imp fun _ _ hcompiled => ?_)
  exact ⟨hcompiled, (names_of_executable_eq_ok hcompiled).2⟩

/-- An accepted document is compiled to its flow, or to its operations if it has no flow, in order
and under the declared names. This is all that it declares unless it declares both a flow and an
operation, in which case the operations are left out. -/
theorem nothing_lost_iff (h : document settings fileName content = .ok compiled) :
    ∃ file, ofDocument fileName content = .ok file ∧
      List.Forall₂ (Declaration.CompiledTo settings file) (readOf fileName content) compiled ∧
      (List.Forall₂ (Declaration.CompiledTo settings file)
          (declaredFlow fileName content ++ declaredOperations content) compiled ↔
        declaredFlow fileName content = [] ∨ declaredOperations content = []) := by
  obtain ⟨file, hfile, hcompiled⟩ := bind_eq_ok_iff.mp h
  have hread := compiledTo_of_file_eq_ok hcompiled
  rw [declarations_of_ofDocument_eq_ok hfile] at hread
  refine ⟨file, hfile, hread, ?_⟩
  unfold readOf at hread
  cases hflow : declaredFlow fileName content with
  | nil =>
    rw [hflow] at hread
    simpa using hread
  | cons declaration others =>
    rw [hflow] at hread
    constructor
    · intro hall
      have hlength := hall.length_eq.trans hread.length_eq.symm
      simpa using hlength
    · rintro (hnone | hnone)
      · cases hnone
      · rwa [hnone, List.append_nil]

/-- A document of two operations loses none of them. -/
theorem nothing_lost_of_scripts :
    ∃ file compiled,
      document {} "scripts.sl"
        (withOperations scriptsHeader [scriptEntry "start", scriptEntry "stop"]) = .ok compiled ∧
      List.Forall₂ (Declaration.CompiledTo {} file)
        (declaredOperations
          (withOperations scriptsHeader [scriptEntry "start", scriptEntry "stop"])) compiled := by
  obtain ⟨compiled, h⟩ := faultOf_eq_none_iff.mp
    (show faultOf (document {} "scripts.sl"
      (withOperations scriptsHeader [scriptEntry "start", scriptEntry "stop"])) = none
      by decide +kernel)
  obtain ⟨file, _, _, hall⟩ := nothing_lost_iff h
  exact ⟨file, compiled, h, hall.mpr (.inl rfl)⟩

/-- A document that declares a flow and an operation. -/
def mixedDocument : Mapping :=
  [("imports", .map [("ops", .text "user.ops")]),
    ("flow", .map [("name", .text "release"),
      ("workflow", .map [("deploy", .map [("do", .map [("ops.deploy", .null)])])])]),
    ("operations", .list [scriptEntry "start"])]

/-- Of a flow and an operation in one document only the flow is left. -/
theorem operation_lost_of_mixedDocument :
    ∃ file compiled, ofDocument "mixed.sl" mixedDocument = .ok file ∧
      document {} "mixed.sl" mixedDocument = .ok compiled ∧
      compiled.map Executable.name = ["release"] ∧
      ¬ List.Forall₂ (Declaration.CompiledTo {} file)
        (declaredFlow "mixed.sl" mixedDocument ++ declaredOperations mixedDocument) compiled := by
  have hread : (document {} "mixed.sl" mixedDocument).toOption.map (List.map Executable.name) =
      some ["release"] := by decide +kernel
  obtain ⟨compiled, hcompiled, hnames⟩ := Option.map_eq_some_iff.mp hread
  have h := toOption_eq_some_iff.mp hcompiled
  obtain ⟨file, hfile, _⟩ := bind_eq_ok_iff.mp h
  refine ⟨file, compiled, hfile, h, hnames, fun hall => ?_⟩
  have hdeclared : (declaredFlow "mixed.sl" mixedDocument ++
      declaredOperations mixedDocument).length = 2 := by rfl
  have hleft : compiled.length = 1 := by rw [← List.length_map Executable.name, hnames]; rfl
  have hsame := hall.length_eq
  omega

end Compile

end Taskflow
