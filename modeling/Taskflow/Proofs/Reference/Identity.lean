import Taskflow.Proofs.Compile.Accepted

/-!
# References and the full names of executables

A task invokes an executable by an alias, a point and a name. An executable knows its own full
name, which leaves out the point where there is no namespace, whereas a resolved reference always
has it. The main statement says that a reference to an accepted executable resolves to the name in
the namespace of its file, and that this is its full name exactly if there is a namespace.
-/

namespace Taskflow

namespace Reference

variable {reference aliasName name namespaceName : String} {imports : Imports}

/-- A reference is split where it is cut, unless one of the parts is empty. -/
theorem split?_eq_some_iff_cut? :
    split? reference = some (aliasName, name) ↔
      Text.cut? ['.'] reference.toList = some (aliasName.toList, name.toList) ∧
        aliasName ≠ "" ∧ name ≠ "" := by
  unfold split?
  cases Text.cut? ['.'] reference.toList with
  | none => simp
  | some parts =>
    obtain ⟨before, after⟩ := parts
    simp only [Option.some.injEq, Prod.mk.injEq]
    split
    · next hempty =>
      refine iff_of_false (by simp) ?_
      rintro ⟨⟨rfl, rfl⟩, haliasName, hname⟩
      simp [haliasName, hname] at hempty
    · next hfilled =>
      simp only [Option.some.injEq, Prod.mk.injEq]
      constructor
      · rintro ⟨rfl, rfl⟩
        simpa using hfilled
      · rintro ⟨⟨rfl, rfl⟩, _, _⟩
        simp

/-- A reference has an alias and a name exactly if it is made of them with a point in between,
where neither is empty and the alias has no point of its own. -/
theorem split?_eq_some_iff :
    split? reference = some (aliasName, name) ↔
      (aliasName ≠ "" ∧ '.' ∉ aliasName.toList) ∧ name ≠ "" ∧
        reference = aliasName ++ "." ++ name := by
  have hjoined : reference = aliasName ++ "." ++ name ↔
      reference.toList = aliasName.toList ++ '.' :: name.toList := by
    rw [← String.toList_inj]
    simp
  rw [split?_eq_some_iff_cut?, Text.cut?_singleton_eq_some_iff, hjoined]
  constructor
  · rintro ⟨⟨hpoint, hparts⟩, haliasName, hname⟩
    exact ⟨⟨haliasName, hpoint⟩, hname, hparts⟩
  · rintro ⟨⟨haliasName, hpoint⟩, hname, hparts⟩
    exact ⟨⟨hpoint, hparts⟩, haliasName, hname⟩

/-- A reference by an imported alias resolves to the name in the namespace of the alias. -/
theorem resolve_of_imported (haliasName : aliasName ≠ "") (hpoint : '.' ∉ aliasName.toList)
    (hname : name ≠ "") (himported : imports.get? aliasName = some namespaceName) :
    resolve (aliasName ++ "." ++ name) imports = .ok (qualified namespaceName name) := by
  have hsplit : split? (aliasName ++ "." ++ name) = some (aliasName, name) :=
    split?_eq_some_iff.mpr ⟨⟨haliasName, hpoint⟩, hname, rfl⟩
  rw [resolve, hsplit]
  dsimp only
  rw [himported]

/-- The name in a namespace is longer than the name alone. -/
theorem qualified_ne (namespaceName name : String) : qualified namespaceName name ≠ name := by
  intro heq
  have hlength : (qualified namespaceName name).length = name.length := by rw [heq]
  simp only [qualified, String.length_append] at hlength
  have hpoint : ".".length = 1 := by rfl
  omega

end Reference

/-- An executable has the name in its namespace as its full name exactly if it has a namespace. -/
theorem Executable.id_eq_qualified_iff (executable : Executable) :
    executable.id = Reference.qualified executable.namespaceName executable.name ↔
      executable.namespaceName ≠ "" := by
  unfold Executable.id
  split
  · next hempty =>
    exact iff_of_false (Reference.qualified_ne _ _).symm (not_not_intro hempty)
  · next hgiven => exact iff_of_true rfl hgiven

namespace Compile

variable {settings : Settings} {file : SourceFile} {name aliasName : String} {body : Mapping}
  {compiled : Executable} {imports : Imports}

/-- The signature that is read has the given name in the given namespace. -/
theorem names_of_signature_eq_ok {namespaceName : String} {declared : Signature}
    (h : signature namespaceName name body = .ok declared) :
    declared.namespaceName = namespaceName ∧ declared.name = name := by
  obtain ⟨before, _, hrest⟩ := bind_eq_ok_iff.mp h
  obtain ⟨after, _, hmade⟩ := bind_eq_ok_iff.mp hrest
  rw [← Except.ok.inj hmade]
  exact ⟨rfl, rfl⟩

/-- An accepted executable has the name under which it stands in the namespace of its file. -/
theorem names_of_executable_eq_ok (h : executable settings file name body = .ok compiled) :
    compiled.namespaceName = file.namespaceName ∧ compiled.name = name := by
  obtain ⟨declared, hsignature, hcontent⟩ := exists_of_executable_eq_ok h
  rw [Executable.namespaceName, Executable.name, signature_of_content_eq_ok hcontent]
  exact names_of_signature_eq_ok hsignature

/-- A reference to an accepted executable, by an alias under which the namespace of its file is
imported, resolves to the name in that namespace. This is the full name of the executable exactly
if the namespace is not the empty one. -/
theorem resolve_eq_id_iff (h : executable settings file name body = .ok compiled)
    (hname : name ≠ "") (haliasName : aliasName ≠ "") (hpoint : '.' ∉ aliasName.toList)
    (himported : imports.get? aliasName = some file.namespaceName) :
    Reference.resolve (aliasName ++ "." ++ name) imports =
        .ok (file.namespaceName ++ "." ++ name) ∧
      (Reference.resolve (aliasName ++ "." ++ name) imports = .ok compiled.id ↔
        file.namespaceName ≠ "") := by
  have hresolve := Reference.resolve_of_imported haliasName hpoint hname himported
  obtain ⟨hnamespace, hown⟩ := names_of_executable_eq_ok h
  have hid := compiled.id_eq_qualified_iff
  rw [hnamespace, hown] at hid
  refine ⟨hresolve, ?_⟩
  rw [hresolve, ← hid, Except.ok.injEq]
  exact eq_comm

/-- A flow that runs itself again, in a file that imports its own namespace. -/
def againFile (namespaceName : String) : SourceFile :=
  (SourceFile.empty "again.sl" namespaceName .flow).withImport "self" namespaceName

/-- The tasks of the flow. -/
def againBody : Mapping :=
  [("workflow", .map [("repeat", .map [("do", .map [("self.again", .null)])])])]

/-- The flow refers to itself by its full name if there is a namespace. -/
theorem resolve_eq_id_of_again :
    ∃ compiled, executable {} (againFile "user.flows") "again" againBody = .ok compiled ∧
      Reference.resolve "self.again" (againFile "user.flows").imports = .ok compiled.id := by
  obtain ⟨compiled, hcompiled⟩ := faultOf_eq_none_iff.mp
    (show faultOf (executable {} (againFile "user.flows") "again" againBody) = none by
      decide +kernel)
  have hself := @resolve_eq_id_iff {} (againFile "user.flows") "again" "self" againBody compiled
    (againFile "user.flows").imports hcompiled (by decide) (by decide) (by decide) (by rfl)
  exact ⟨compiled, hcompiled, hself.2.mpr (by decide)⟩

/-- Without a namespace the flow is called `again`, and its only task runs `.again`. -/
theorem reference_ne_id_of_again :
    ∃ signature task,
      executable {} (againFile "") "again" againBody = .ok (.flow signature ⟨[task]⟩) ∧
        (Executable.flow signature ⟨[task]⟩).id = "again" ∧ task.referenceId = ".again" ∧
        Reference.resolve "self.again" (againFile "").imports = .ok ".again" := by
  refine ⟨⟨"", "again", [], [], [], .empty, .empty⟩,
    ⟨"repeat", Dict.empty.insert "do" (.inputs []), .empty, defaultNavigation none failureResult,
      ".again"⟩, toOption_eq_some_iff.mp (by decide +kernel), by rfl, by rfl, ?_⟩
  exact @Reference.resolve_of_imported "self" "again" "" (againFile "").imports (by decide)
    (by decide) (by decide) (by rfl)

end Compile

end Taskflow
