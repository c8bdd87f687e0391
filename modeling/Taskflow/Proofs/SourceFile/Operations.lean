import Taskflow.Proofs.Compile.Checks

/-!
# Documents of operations

A document without a flow declares the pairs of its list of operations, however they are divided
into entries. The list is read as a whole before any operation is compiled, so an entry of the
wrong shape is reported before every fault of a body. The main statement says that such documents
compose: what the entries of two lists give is given by one document with both lists, in order.
-/

namespace Taskflow

/-- The checks of one entry of a list of operations: a map of bodies, each a map or null. -/
def Checks.ofEntry : Value → List (Option Fault)
  | .map pairs => pairs.map fun pair => optionalMap pair.1 (some pair.2)
  | other => [some (.invalidEntry FileKind.operationsName (.notBody other.shape))]

namespace SourceFile

variable {fileName : String} {header : Mapping} {items : List Value}
  {declared : List (String × Mapping)}

/-- The operations that an entry declares, one for each of its pairs. -/
def declaredIn (entry : Value) : List (String × Mapping) :=
  (Checks.entriesOf (some entry)).map fun pair => (pair.1, Checks.entriesOf (some pair.2))

/-- The entry that holds one pair. -/
def entryOf (pair : String × Value) : Value := .map [pair]

/-- An entry is refused for the first of its bodies that is none, or for not being a map. -/
theorem describedBy_readOperationEntry (entry : Value) :
    DescribedBy (readOperationEntry entry) (Checks.ofEntry entry) := by
  cases entry with
  | map pairs =>
    have hpairs := DescribedBy.mapM
      (fun pair : String × Value => (Checks.describedBy_asBody pair.1 pair.2).map (pair.1, ·)) pairs
    rwa [← List.map_eq_flatMap] at hpairs
  | _ => rfl

/-- An entry that was read gave the operations that it declares. -/
theorem eq_declaredIn_of_readOperationEntry {entry : Value}
    (h : readOperationEntry entry = .ok declared) : declared = declaredIn entry := by
  cases entry with
  | map pairs =>
    refine eq_map_of_mapM_eq_ok (fun pair operation hread => ?_) (h : pairs.mapM readBody = _)
    obtain ⟨body, hbody, hmade⟩ := bind_eq_ok_iff.mp hread
    rw [← Checks.eq_entriesOf_of_asBody hbody]
    exact (Except.ok.inj hmade).symm
  | _ => cases h

/-- A list is refused for its first entry that is refused. -/
theorem describedBy_readOperations (items : List Value) :
    DescribedBy (readOperations (.list items)) (items.flatMap Checks.ofEntry) :=
  (DescribedBy.mapM describedBy_readOperationEntry items).map List.flatten

/-- The operations of a list are those of its entries in turn. -/
theorem readOperations_eq_ok_iff :
    readOperations (.list items) = .ok declared ↔
      ∃ groups, items.mapM readOperationEntry = .ok groups ∧ declared = groups.flatten := by
  constructor
  · intro h
    obtain ⟨_, hitems, h⟩ := bind_eq_ok_iff.mp h
    obtain ⟨groups, hgroups, hflatten⟩ := bind_eq_ok_iff.mp h
    cases Value.asList_eq_ok_iff.mp hitems
    exact ⟨groups, hgroups, (Except.ok.inj hflatten).symm⟩
  · rintro ⟨groups, hgroups, rfl⟩
    exact bind_eq_ok_iff.mpr ⟨items, rfl, bind_eq_ok_iff.mpr ⟨groups, hgroups, rfl⟩⟩

/-- A list that was read gave the operations that its entries declare, in order. -/
theorem eq_flatMap_of_readOperations (h : readOperations (.list items) = .ok declared) :
    declared = items.flatMap declaredIn := by
  obtain ⟨groups, hgroups, rfl⟩ := readOperations_eq_ok_iff.mp h
  rw [eq_map_of_mapM_eq_ok (fun _ _ => eq_declaredIn_of_readOperationEntry) hgroups,
    List.flatMap_def]

/-- Two lists are read as one exactly if each of them is read. -/
theorem readOperations_append_eq_ok_iff {front back : List Value} :
    readOperations (.list (front ++ back)) = .ok declared ↔
      ∃ first others, readOperations (.list front) = .ok first ∧
        readOperations (.list back) = .ok others ∧ declared = first ++ others := by
  simp only [readOperations_eq_ok_iff, mapM_append_eq_ok_iff]
  constructor
  · rintro ⟨_, ⟨first, others, hfirst, hothers, rfl⟩, rfl⟩
    exact ⟨_, _, ⟨first, hfirst, rfl⟩, ⟨others, hothers, rfl⟩, List.flatten_append⟩
  · rintro ⟨_, _, ⟨first, hfirst, rfl⟩, ⟨others, hothers, rfl⟩, rfl⟩
    exact ⟨first ++ others, ⟨first, others, hfirst, hothers, rfl⟩, List.flatten_append.symm⟩

/-- What is taken from each pair of an entry is taken alike from an entry for each pair. -/
theorem flatMap_split {α : Type} {f : Value → List α} {pairs : Mapping}
    {front back : List Value}
    (hpairs : ∀ pairs, f (.map pairs) = pairs.flatMap fun pair => f (entryOf pair)) :
    (front ++ .map pairs :: back).flatMap f = (front ++ pairs.map entryOf ++ back).flatMap f := by
  simp [hpairs, List.flatMap_map]

/-- It does not matter how pairs are divided into entries. -/
theorem readOperations_split (front back : List Value) (pairs : Mapping) :
    readOperations (.list (front ++ .map pairs :: back)) =
      readOperations (.list (front ++ pairs.map entryOf ++ back)) := by
  refine (describedBy_readOperations _).eq_of_results ?_ fun first second hfirst hsecond => ?_
  · rw [flatMap_split fun _ => List.map_eq_flatMap]
    exact describedBy_readOperations _
  · rw [eq_flatMap_of_readOperations hfirst, eq_flatMap_of_readOperations hsecond,
      flatMap_split fun _ => List.map_eq_flatMap]

/-- A document that declares a list of operations next to what its header says. -/
def withOperations (header : Mapping) (items : List Value) : Mapping :=
  header.put FileKind.operationsName (.list items)

/-- The file of operations that a header opens, with no operation yet. -/
def headerOf (fileName : String) (header : Mapping) : Except Fault SourceFile := do
  let namespaceName ← readNamespace header
  let imports ← readImports header
  return { empty fileName namespaceName .operations with imports }

/-- A document without a flow is read from its header and then from its list. -/
theorem ofDocument_withOperations (hflow : header.get? FileKind.flowName = none)
    (items : List Value) :
    ofDocument fileName (withOperations header items) = do
      let file ← headerOf fileName header
      let executables ← readOperations (.list items)
      return { file with executables } := by
  have hother : ∀ key, key ≠ FileKind.operationsName →
      (withOperations header items).get? key = header.get? key := fun key hkey => by
    rw [withOperations, Mapping.get?_put, if_neg (Ne.symm hkey)]
  have hlist : (withOperations header items).get? FileKind.operationsName = some (.list items) := by
    rw [withOperations, Mapping.get?_put, if_pos rfl]
  unfold ofDocument headerOf readNamespace readImports readDeclarations
  rw [hother namespaceKey (by decide), hother importsKey (by decide),
    hother FileKind.flowName (by decide), hflow, hlist]
  simp only [bind_assoc, pure_bind]
  rfl

end SourceFile

namespace Compile

open SourceFile

variable {settings : Settings} {fileName : String} {header : Mapping} {items : List Value}
  {compiled : List Executable} {fault : Fault}

/-- A document of operations is compiled once its header and its list have been read. -/
theorem document_withOperations (hflow : header.get? FileKind.flowName = none)
    (items : List Value) :
    document settings fileName (withOperations header items) =
      headerOf fileName header >>= fun file => readOperations (.list items) >>= fun declared =>
        declared.mapM fun operation => executable settings file operation.1 operation.2 := by
  rw [document, ofDocument_withOperations hflow]
  simp only [bind_assoc, pure_bind]
  rfl

/-- A document of operations is accepted with what its operations are compiled to. -/
theorem document_withOperations_eq_ok_iff (hflow : header.get? FileKind.flowName = none) :
    document settings fileName (withOperations header items) = .ok compiled ↔
      ∃ file declared, headerOf fileName header = .ok file ∧
        readOperations (.list items) = .ok declared ∧
        declared.mapM (fun operation => executable settings file operation.1 operation.2) =
          .ok compiled := by
  rw [document_withOperations hflow]
  simp only [bind_eq_ok_iff, exists_and_left]

/-- Two lists are accepted as one exactly if each of them is. -/
theorem document_append_eq_ok_iff (hflow : header.get? FileKind.flowName = none)
    {front back : List Value} :
    document settings fileName (withOperations header (front ++ back)) = .ok compiled ↔
      ∃ first others, document settings fileName (withOperations header front) = .ok first ∧
        document settings fileName (withOperations header back) = .ok others ∧
        compiled = first ++ others := by
  simp only [document_withOperations_eq_ok_iff hflow, readOperations_append_eq_ok_iff]
  constructor
  · rintro ⟨file, _, hfile, ⟨front, back, hfront, hback, rfl⟩, hcompiled⟩
    obtain ⟨first, others, hfirst, hothers, rfl⟩ := mapM_append_eq_ok_iff.mp hcompiled
    exact ⟨first, others, ⟨file, front, hfile, hfront, hfirst⟩, ⟨file, back, hfile, hback, hothers⟩,
      rfl⟩
  · rintro ⟨first, others, ⟨file, front, hfile, hfront, hfirst⟩,
      ⟨file', back, hfile', hback, hothers⟩, rfl⟩
    obtain rfl : file = file' := Except.ok.inj (hfile.symm.trans hfile')
    exact ⟨file, _, hfile, ⟨front, back, hfront, hback, rfl⟩,
      mapM_append_eq_ok_iff.mpr ⟨first, others, hfirst, hothers, rfl⟩⟩

/-- The operations under a header are checked entry by entry, and then compiled one by one. -/
theorem describedBy_operations (settings : Settings) (file : SourceFile) (items : List Value) :
    DescribedBy
      (readOperations (.list items) >>= fun declared =>
        declared.mapM fun operation => executable settings file operation.1 operation.2)
      (items.flatMap Checks.ofEntry ++ (items.flatMap declaredIn).map fun operation =>
        faultOf (executable settings file operation.1 operation.2)) := by
  refine (describedBy_readOperations items).bind fun declared hdeclared => ?_
  rw [eq_flatMap_of_readOperations hdeclared, List.map_eq_flatMap]
  exact DescribedBy.mapM (fun _ => DescribedBy.own _) _

/-- A document of operations is refused for its header or else for the first check that fails. -/
theorem document_withOperations_eq_error_iff (hflow : header.get? FileKind.flowName = none) :
    document settings fileName (withOperations header items) = .error fault ↔
      headerOf fileName header = .error fault ∨
        ∃ file, headerOf fileName header = .ok file ∧
          firstFault (items.flatMap Checks.ofEntry ++
            (items.flatMap declaredIn).map fun operation =>
              faultOf (executable settings file operation.1 operation.2)) = some fault := by
  rw [document_withOperations hflow, bind_eq_error_iff]
  refine or_congr_right (exists_congr fun file => and_congr_right fun _ => ?_)
  rw [← faultOf_eq_some_iff, describedBy_operations settings file items]

/-- Documents of operations compose. The operations of two lists under one header are accepted
together exactly if they are accepted apart, and they are compiled to the same, in order. It does
not matter how pairs are divided into entries. What is refused is refused for its header, or else
for the first entry of the wrong shape, wherever it stands, or else for the first operation that
cannot be compiled. -/
theorem operations_compose (settings : Settings) (fileName : String)
    (hflow : header.get? FileKind.flowName = none) :
    (∀ front back compiled,
      document settings fileName (withOperations header (front ++ back)) = .ok compiled ↔
        ∃ first others,
          document settings fileName (withOperations header front) = .ok first ∧
          document settings fileName (withOperations header back) = .ok others ∧
          compiled = first ++ others) ∧
      (∀ front pairs back,
        document settings fileName (withOperations header (front ++ .map pairs :: back)) =
          document settings fileName
            (withOperations header (front ++ pairs.map entryOf ++ back))) ∧
      ∀ items fault,
        document settings fileName (withOperations header items) = .error fault ↔
          headerOf fileName header = .error fault ∨
            ∃ file, headerOf fileName header = .ok file ∧
              firstFault (items.flatMap Checks.ofEntry ++
                (items.flatMap declaredIn).map fun operation =>
                  faultOf (executable settings file operation.1 operation.2)) = some fault := by
  refine ⟨fun front back compiled => document_append_eq_ok_iff hflow, fun front pairs back => ?_,
    fun items fault => document_withOperations_eq_error_iff hflow⟩
  rw [document_withOperations hflow, document_withOperations hflow, readOperations_split]

/-- The header of a document that declares operations of one namespace. -/
def scriptsHeader : Mapping := [("namespace", .text "user.scripts")]

/-- An entry with one operation that runs a script. -/
def scriptEntry (name : String) : Value :=
  .map [(name, .map [("action", .map [("python_script", .text "pass")])])]

/-- Two scripts are compiled in one document as in two, and an entry that is no map is reported
before a body in front of it that is empty. -/
theorem operations_compose_of_scripts :
    scriptsHeader.get? FileKind.flowName = none ∧
      (∃ first others,
        document {} "scripts.sl" (withOperations scriptsHeader [scriptEntry "start"]) =
          .ok first ∧
        document {} "scripts.sl" (withOperations scriptsHeader [scriptEntry "stop"]) =
          .ok others ∧
        document {} "scripts.sl"
          (withOperations scriptsHeader [scriptEntry "start", scriptEntry "stop"]) =
            .ok (first ++ others)) ∧
      document {} "scripts.sl"
        (withOperations scriptsHeader [.map [("empty", .null)], .text "stop"]) =
          .error (.invalidEntry FileKind.operationsName (.notBody .string)) := by
  have hflow : scriptsHeader.get? FileKind.flowName = none := by decide
  obtain ⟨happend, _, hrefused⟩ := operations_compose {} "scripts.sl" hflow
  obtain ⟨first, hfirst⟩ := faultOf_eq_none_iff.mp
    (show faultOf (document {} "scripts.sl"
      (withOperations scriptsHeader [scriptEntry "start"])) = none by decide +kernel)
  obtain ⟨others, hothers⟩ := faultOf_eq_none_iff.mp
    (show faultOf (document {} "scripts.sl"
      (withOperations scriptsHeader [scriptEntry "stop"])) = none by decide +kernel)
  refine ⟨hflow, ⟨first, others, hfirst, hothers, ?_⟩, (hrefused _ _).mpr (.inr ?_)⟩
  · exact (happend _ _ _).mpr ⟨first, others, hfirst, hothers, rfl⟩
  · exact ⟨empty "scripts.sl" "user.scripts" .operations, rfl, by decide +kernel⟩

end Compile

end Taskflow
