import Taskflow.Json.Reader
import Taskflow.Wire.Executable
import Taskflow.Proofs.Wire.Loop

/-!
# Only valid loops are read

Loops stand deep inside of what is handed on, but each of them is read as a loop statement of its
own. The main statement says that every loop in whatever is read from a text is valid, and that an
object which spells out a statement is refused only if the statement is not valid or some other
member cannot be read.
-/

namespace Taskflow.Wire

variable {α : Type} {arrival : Arrival} {tree : Json} {bindings : Bindings}
  {statement : LoopStatement} {members : List (String × Json)}

/-- What a text is read as, if it can be read. -/
def readText? (read? : Json → Option α) (text : String) : Option α :=
  (Json.ofText? text).bind read?

/-- What is read from a text is read from the tree that the text denotes. -/
theorem exists_of_readText? {read? : Json → Option α} {text : String} {value : α}
    (h : readText? read? text = some value) : ∃ tree, read? tree = some value := by
  obtain ⟨tree, _, htree⟩ := Option.bind_eq_some_iff.mp h
  exact ⟨tree, htree⟩

/-- A loop that is read as a binding is valid. -/
theorem valid_of_binding? (h : binding? arrival tree = some (.loop statement)) :
    statement.Valid := by
  obtain ⟨⟨place, value, valueArrival⟩, _, hvalue⟩ := Option.bind_eq_some_iff.mp h
  change bindingValue? valueArrival place value = some (.loop statement) at hvalue
  unfold bindingValue? at hvalue
  split at hvalue
  case h_6 =>
    obtain ⟨found, hfound, hmade⟩ := Option.map_eq_some_iff.mp hvalue
    obtain rfl := Binding.loop.inj hmade
    exact valid_of_loop? hfound
  all_goals
    obtain ⟨_, _, hmade⟩ := Option.map_eq_some_iff.mp hvalue
    cases hmade

/-- The loops among bindings that are read are valid. -/
theorem haveValidLoops_of_bindings? (h : bindings? arrival tree = some bindings) :
    HaveValidLoops bindings := by
  intro key statement hget
  obtain ⟨part, hpart⟩ := exists_of_dictOf? h hget
  exact valid_of_binding? hpart

/-- The loops of a field that was read as bindings are valid. -/
theorem haveValidLoops_of_field {field : Option Json}
    (h : field.bind (bindings? arrival) = some bindings) : HaveValidLoops bindings := by
  obtain ⟨part, _, hpart⟩ := Option.bind_eq_some_iff.mp h
  exact haveValidLoops_of_bindings? hpart

/-- The loops of a signature that is read are valid. -/
theorem haveValidLoops_of_signature? {signature : Signature}
    (h : signature? tree = some signature) :
    HaveValidLoops signature.before ∧ HaveValidLoops signature.after := by
  obtain ⟨fields, _, h⟩ := Option.bind_eq_some_iff.mp h
  split at h
  · obtain ⟨namespaceName, _, h⟩ := Option.bind_eq_some_iff.mp h
    obtain ⟨name, _, h⟩ := Option.bind_eq_some_iff.mp h
    obtain ⟨inputs, _, h⟩ := Option.bind_eq_some_iff.mp h
    obtain ⟨outputs, _, h⟩ := Option.bind_eq_some_iff.mp h
    obtain ⟨results, _, h⟩ := Option.bind_eq_some_iff.mp h
    obtain ⟨before, hbefore, h⟩ := Option.bind_eq_some_iff.mp h
    obtain ⟨after, hafter, hmade⟩ := Option.bind_eq_some_iff.mp h
    obtain rfl := Option.some.inj hmade
    exact ⟨haveValidLoops_of_field hbefore, haveValidLoops_of_field hafter⟩
  · cases h

/-- The loops of a task that is read are valid. -/
theorem haveValidLoops_of_task? {task : Task} (h : task? tree = some task) :
    ∀ bindings ∈ [task.before, task.after], HaveValidLoops bindings := by
  obtain ⟨fields, _, h⟩ := Option.bind_eq_some_iff.mp h
  split at h
  · obtain ⟨name, _, h⟩ := Option.bind_eq_some_iff.mp h
    obtain ⟨before, hbefore, h⟩ := Option.bind_eq_some_iff.mp h
    obtain ⟨after, hafter, h⟩ := Option.bind_eq_some_iff.mp h
    obtain ⟨navigation, _, h⟩ := Option.bind_eq_some_iff.mp h
    obtain ⟨referenceId, _, hmade⟩ := Option.bind_eq_some_iff.mp h
    obtain rfl := Option.some.inj hmade
    exact List.forall_mem_cons.mpr ⟨haveValidLoops_of_field hbefore,
      List.forall_mem_singleton.mpr (haveValidLoops_of_field hafter)⟩
  · cases h

/-- The loops of a workflow that is read are valid. -/
theorem haveValidLoops_of_workflow? {workflow : Workflow} (h : workflow? tree = some workflow) :
    ∀ bindings ∈ workflow.tasks.flatMap fun task => [task.before, task.after],
      HaveValidLoops bindings := by
  obtain ⟨fields, _, h⟩ := Option.bind_eq_some_iff.mp h
  split at h
  · obtain ⟨tasks, htasks, hmade⟩ := Option.bind_eq_some_iff.mp h
    obtain rfl := Option.some.inj hmade
    obtain ⟨items, _, hitems⟩ := Option.bind_eq_some_iff.mp htasks
    intro bindings hbindings
    obtain ⟨task, htask, hbindings⟩ := List.mem_flatMap.mp hbindings
    obtain ⟨part, hpart⟩ := exists_of_listOf? hitems htask
    exact haveValidLoops_of_task? hpart bindings hbindings
  · cases h

/-- The loops of an action that is read are valid. -/
theorem haveValidLoops_of_action? (h : action? tree = some bindings) : HaveValidLoops bindings := by
  obtain ⟨fields, _, h⟩ := Option.bind_eq_some_iff.mp h
  split at h
  · exact haveValidLoops_of_field h
  · cases h

/-- Both parts of an executable were read. -/
theorem exists_of_signatureAnd? {name : String} {part? : Json → Option α} {signature : Signature}
    {part : α} (h : signatureAnd? name part? tree = some (signature, part)) :
    ∃ signatureTree partTree, signature? signatureTree = some signature ∧
      part? partTree = some part := by
  obtain ⟨fields, _, h⟩ := Option.bind_eq_some_iff.mp h
  split at h
  · obtain ⟨_, hsignature, h⟩ := Option.bind_eq_some_iff.mp h
    obtain ⟨_, hpart, hmade⟩ := Option.bind_eq_some_iff.mp h
    obtain ⟨rfl, rfl⟩ := Prod.mk.inj (Option.some.inj hmade)
    obtain ⟨signatureTree, _, hsignature⟩ := Option.bind_eq_some_iff.mp hsignature
    obtain ⟨partTree, _, hpart⟩ := Option.bind_eq_some_iff.mp hpart
    exact ⟨signatureTree, partTree, hsignature, hpart⟩
  · cases h

/-- The loops of an executable that is read are valid. -/
theorem haveValidLoops_of_executable? {executable : Executable}
    (h : executable? tree = some executable) :
    ∀ bindings ∈ executable.allBindings, HaveValidLoops bindings := by
  obtain ⟨⟨tag, rest⟩, _, h⟩ := Option.bind_eq_some_iff.mp h
  obtain ⟨place, _, h⟩ := Option.bind_eq_some_iff.mp h
  split at h
  · obtain ⟨⟨signature, action⟩, hboth, hmade⟩ := Option.bind_eq_some_iff.mp h
    obtain rfl := Option.some.inj hmade
    obtain ⟨_, _, hsignature, haction⟩ := exists_of_signatureAnd? hboth
    obtain ⟨hbefore, hafter⟩ := haveValidLoops_of_signature? hsignature
    exact List.forall_mem_cons.mpr ⟨hbefore, List.forall_mem_cons.mpr ⟨hafter,
      List.forall_mem_singleton.mpr (haveValidLoops_of_action? haction)⟩⟩
  · obtain ⟨⟨signature, workflow⟩, hboth, hmade⟩ := Option.bind_eq_some_iff.mp h
    obtain rfl := Option.some.inj hmade
    obtain ⟨_, _, hsignature, hworkflow⟩ := exists_of_signatureAnd? hboth
    obtain ⟨hbefore, hafter⟩ := haveValidLoops_of_signature? hsignature
    exact List.forall_mem_cons.mpr ⟨hbefore, List.forall_mem_cons.mpr ⟨hafter,
      haveValidLoops_of_workflow? hworkflow⟩⟩

/-- The names of the members that spell out a statement. -/
def partNames : LoopStatement → List String
  | .list .. => kindTag :: listLoopFields
  | .mapFor .. => kindTag :: mapLoopFields

/-- The members that spell out a statement are readable. -/
theorem Spells.isReadable_of_mem (h : Spells arrival members statement) {member : String × Json}
    (hmem : member ∈ members) (hname : member.1 ∈ partNames statement) :
    member.2.isReadable = true := by
  cases h with
  | list hkind hplace hvar hexpression hparallel =>
    simp only [partNames, kindTag, listLoopFields, List.mem_cons, List.not_mem_nil, or_false]
      at hname
    rcases hname with hname | hname | hname | hname
    · exact isReadable_of_occurrences hkind (isReadable_of_tagIndex? hplace) hmem hname
    · exact isReadable_of_occurrences hvar rfl hmem hname
    · exact isReadable_of_occurrences hexpression rfl hmem hname
    · exact isReadable_of_occurrences hparallel rfl hmem hname
  | mapFor hkind hplace hkey hvalue hexpression hparallel =>
    simp only [partNames, kindTag, mapLoopFields, List.mem_cons, List.not_mem_nil, or_false]
      at hname
    rcases hname with hname | hname | hname | hname | hname
    · exact isReadable_of_occurrences hkind (isReadable_of_tagIndex? hplace) hmem hname
    · exact isReadable_of_occurrences hkey rfl hmem hname
    · exact isReadable_of_occurrences hvalue rfl hmem hname
    · exact isReadable_of_occurrences hexpression rfl hmem hname
    · exact isReadable_of_occurrences hparallel rfl hmem hname

/-- An object that spells out a statement is unreadable exactly if some other member is. -/
theorem Spells.isReadable_eq_false_iff (h : Spells arrival members statement) :
    (Json.object members).isReadable = false ↔
      ∃ member ∈ members, member.1 ∉ partNames statement ∧ member.2.isReadable = false := by
  rw [← Bool.not_eq_true, Json.isReadable, Json.haveReadableValues_iff]
  constructor
  · intro hnot
    obtain ⟨member, hmember⟩ := not_forall.mp hnot
    obtain ⟨hmem, hunreadable⟩ := Classical.not_imp.mp hmember
    refine ⟨member, hmem, fun hname => hunreadable ?_, Bool.eq_false_iff.mpr hunreadable⟩
    exact h.isReadable_of_mem hmem hname
  · rintro ⟨member, hmem, -, hunreadable⟩ hall
    exact absurd (hall member hmem) (Bool.eq_false_iff.mp hunreadable)

/-- Every loop in what is read from a text, be it a statement, a binding or an executable, is valid.
An object that spells out a statement is read as just that, or refused since the statement is not
valid or another member cannot be read. -/
theorem loops_read_valid :
    (∀ text statement, readText? (loop? .inPlace) text = some statement → statement.Valid) ∧
    (∀ text statement, readText? (binding? .inPlace) text = some (.loop statement) →
      statement.Valid) ∧
    (∀ text executable statement, readText? executable? text = some executable →
      executable.HasLoop statement → statement.Valid) ∧
    ∀ arrival members statement, Spells arrival members statement →
      (∀ other, loop? arrival (.object members) = some other → other = statement) ∧
      (loop? arrival (.object members) = none ↔
        ¬ statement.Valid ∨
          ∃ member ∈ members, member.1 ∉ partNames statement ∧ member.2.isReadable = false) := by
  refine ⟨?_, ?_, ?_, ?_⟩
  · intro text statement h
    obtain ⟨tree, htree⟩ := exists_of_readText? h
    exact valid_of_loop? htree
  · intro text statement h
    obtain ⟨tree, htree⟩ := exists_of_readText? h
    exact valid_of_binding? htree
  · rintro text executable statement h ⟨bindings, hbindings, key, hget⟩
    obtain ⟨tree, htree⟩ := exists_of_readText? h
    exact haveValidLoops_of_executable? htree bindings hbindings key statement hget
  · intro arrival members statement hspells
    rw [loop?_of_spells hspells, ← hspells.isReadable_eq_false_iff]
    constructor
    · intro other hother
      rw [Option.ite_none_right_eq_some] at hother
      exact (Option.some.inj hother.2).symm
    · rw [ite_eq_right_iff, ← Bool.not_eq_true]
      simp only [reduceCtorEq, imp_false, not_and_or]
      exact or_comm

/-- A loop over a list, its kind not in front and with a member that says nothing. -/
def spelledLoop : String :=
  "\x7b\"var_name\":\"x\",\"expression\":\" xs\",\"parallel\":true,\"note\":[1]," ++
    "\"kind\":\"list\"\x7d"

/-- The loop as a binding, its value before its type. -/
def spelledBinding : String := "\x7b\"value\":" ++ spelledLoop ++ ",\"type\":\"loop\"\x7d"

/-- The binding in the action of an operation. -/
def spelledOperation : String :=
  "\x7b\"kind\":\"operation\",\"signature\":[\"\",\"o\",[],[],[],\x7b\x7d,\x7b\x7d]," ++
    "\"action\":[\x7b\"each\":" ++ spelledBinding ++ "\x7d]\x7d"

/-- The operation that stands there. -/
def loopOperation : Executable :=
  .operation ⟨"", "o", [], [], [], .empty, .empty⟩
    (Dict.empty.insert "each" (.loop (.list "x" " xs" true)))

/-- The loop is read in all three places, so it is valid. A blank loop that is spelled out is
refused. -/
theorem loops_read_valid_of_spelledLoop :
    (readText? (loop? .inPlace) spelledLoop = some (.list "x" " xs" true) ∧
      (LoopStatement.list "x" " xs" true).Valid) ∧
    (readText? (binding? .inPlace) spelledBinding = some (.loop (.list "x" " xs" true)) ∧
      (LoopStatement.list "x" " xs" true).Valid) ∧
    (readText? executable? spelledOperation = some loopOperation ∧
      loopOperation.HasLoop (.list "x" " xs" true) ∧
      (LoopStatement.list "x" " xs" true).Valid) ∧
    ∃ members, ofLoop (.list "x" " " true) = .object members ∧
      Spells .inPlace members (.list "x" " " true) ∧ loop? .inPlace (.object members) = none := by
  obtain ⟨hloop, hbinding, hexecutable, hspelled⟩ := loops_read_valid
  have hread : readText? (loop? .inPlace) spelledLoop = some (.list "x" " xs" true) := by
    decide +kernel
  have hreadBinding :
      readText? (binding? .inPlace) spelledBinding = some (.loop (.list "x" " xs" true)) := by
    decide +kernel
  have hreadOperation : readText? executable? spelledOperation = some loopOperation := by
    decide +kernel
  have hhas : loopOperation.HasLoop (.list "x" " xs" true) :=
    ⟨_, List.mem_cons_of_mem _ (List.mem_cons_of_mem _ List.mem_cons_self), "each", rfl⟩
  obtain ⟨members, hmembers, hspells⟩ := spells_ofLoop .inPlace (.list "x" " " true)
  refine ⟨⟨hread, hloop _ _ hread⟩, ⟨hreadBinding, hbinding _ _ hreadBinding⟩,
    ⟨hreadOperation, hhas, hexecutable _ _ _ hreadOperation hhas⟩, members, hmembers, hspells, ?_⟩
  exact (hspelled _ _ _ hspells).2.mpr (.inl (by decide))

/-- A loop over a list with a further member, a number beyond the finite values. The kind of a loop
is a tag, so all other members are set aside and must be readable, even those that nobody asks
for. -/
def hugeMember : String :=
  "\x7b\"kind\":\"list\",\"var_name\":\"x\",\"expression\":\"xs\",\"parallel\":true,\"z\":1e400\x7d"

/-- What the text denotes. -/
def hugeMembers : List (String × Json) :=
  [("kind", .text "list"), ("var_name", .text "x"), ("expression", .text "xs"),
    ("parallel", .boolean true), ("z", .unreadable)]

/-- An object may be refused although it spells out a valid statement. -/
theorem loop_refused_of_hugeMember :
    ¬ ∀ text members statement, Json.ofText? text = some (.object members) →
      Spells .inPlace members statement → loop? .inPlace (.object members) = none →
        ¬ statement.Valid := by
  intro h
  have htree : Json.ofText? hugeMember = some (.object hugeMembers) := rfl
  have hspells : Spells .inPlace hugeMembers (.list "x" "xs" true) := .list rfl rfl rfl rfl rfl
  exact h hugeMember hugeMembers (.list "x" "xs" true) htree hspells rfl (by decide)

end Taskflow.Wire
