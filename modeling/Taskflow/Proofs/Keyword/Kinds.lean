import Taskflow.Proofs.Keyword.Declared
import Taskflow.Proofs.Loop.Canonical

/-!
# What each keyword makes of its value

Bindings stand under texts, and nothing in their type says which kind of binding belongs under
which text. This file does: each keyword makes bindings of one kind only. The main statement says
that every binding that was read for a scope was made by one of the keywords of the scope.
-/

namespace Taskflow

open LoopStatement

/-- The bindings that a keyword makes: of one kind, an action with text in both of its parts, and
a loop that is canonical and parallel as the keyword says. -/
inductive Keyword.Makes : Keyword → Binding → Prop
  | inputs (inputs : List Input) : Makes .inputs (.inputs inputs)
  | outputs (outputs : List Output) : Makes .outputs (.outputs outputs)
  | results (results : List ResultBinding) : Makes .results (.results results)
  | javaAction {action : JavaAction} (hclass : HasText action.className)
      (hmethod : HasText action.methodName) : Makes .javaAction (.javaAction action)
  | script (code : String) : Makes .pythonAction (.script code)
  | arguments (inputs : List Input) : Makes .invoke (.inputs inputs)
  | loop {statement : LoopStatement} (hparallel : statement.isParallel = false)
      (hcanonical : statement.Canonical) : Makes .loop (.loop statement)
  | parallelLoop {statement : LoopStatement} (hparallel : statement.isParallel = true)
      (hcanonical : statement.Canonical) : Makes .parallelLoop (.loop statement)
  | publish (outputs : List Output) : Makes .publish (.outputs outputs)
  | navigation (targets : Navigation) : Makes .navigate (.navigation targets)
  | aggregate (outputs : List Output) : Makes .aggregate (.outputs outputs)
  | names (names : List String) : Makes .breakOn (.names names)

/-- A required property that was read has text. -/
theorem Entry.hasText_of_readRequired_eq_ok {key property content : String} {entries : Mapping}
    (h : readRequired key entries property = .ok content) : HasText content := by
  unfold readRequired at h
  dsimp only at h
  split at h
  · next found hfound =>
    obtain rfl := Except.ok.inj h
    simpa [HasText] using (Option.filter_eq_some_iff.mp hfound).2
  · cases h

namespace Keyword

variable {keyword : Keyword} {key : String} {binding : Binding}

/-- Outputs are read as outputs. -/
theorem exists_outputs_of_readOutputs_eq_ok {value : Value}
    (h : readOutputs key value = .ok (some binding)) : ∃ outputs, binding = .outputs outputs := by
  obtain ⟨_, outputs, _, _, hmade⟩ := exists_items_of_eq_ok h
  exact ⟨outputs, Option.some.inj hmade⟩

/-- A loop clause is read as a canonical loop that is parallel as the keyword says. -/
theorem exists_loop_of_readLoop_eq_ok {clause : String} {inParallel : Bool}
    (h : readLoop clause inParallel = .ok (some binding)) :
    ∃ statement : LoopStatement, binding = .loop statement ∧
      statement.isParallel = inParallel ∧ statement.Canonical := by
  obtain ⟨found, hfound, h⟩ := bind_eq_ok_iff.mp h
  obtain ⟨statement, rfl, hbinding⟩ := Option.map_eq_some_iff.mp (Except.ok.inj h)
  exact ⟨statement, hbinding.symm, LoopClause.canonical_of_read_eq_ok hfound⟩

/-- A keyword reads its value as a binding of its kind. -/
theorem makes_of_readValue_eq_ok {value : Value}
    (h : keyword.readValue key value = .ok (some binding)) : keyword.Makes binding := by
  cases keyword with
  | inputs =>
    obtain ⟨_, inputs, _, _, hmade⟩ := exists_items_of_eq_ok h
    obtain rfl := Option.some.inj hmade
    exact .inputs inputs
  | outputs =>
    obtain ⟨outputs, rfl⟩ := exists_outputs_of_readOutputs_eq_ok h
    exact .outputs outputs
  | results =>
    obtain ⟨_, results, _, _, hmade⟩ := exists_items_of_eq_ok h
    obtain rfl := Option.some.inj hmade
    exact .results results
  | javaAction =>
    obtain ⟨entries, _, h⟩ := bind_eq_ok_iff.mp h
    obtain ⟨action, haction, h⟩ := bind_eq_ok_iff.mp h
    obtain rfl := Option.some.inj (Except.ok.inj h)
    obtain ⟨className, hclass, haction⟩ := bind_eq_ok_iff.mp haction
    obtain ⟨methodName, hmethod, haction⟩ := bind_eq_ok_iff.mp haction
    obtain rfl : ⟨className, methodName⟩ = action := Except.ok.inj haction
    exact .javaAction (Entry.hasText_of_readRequired_eq_ok hclass)
      (Entry.hasText_of_readRequired_eq_ok hmethod)
  | pythonAction =>
    obtain ⟨code, _, h⟩ := bind_eq_ok_iff.mp h
    obtain rfl := Option.some.inj (Except.ok.inj h)
    exact .script code
  | invoke =>
    obtain ⟨entries, _, h⟩ := bind_eq_ok_iff.mp h
    unfold readInvocation at h
    split at h
    · obtain ⟨arguments, _, h⟩ := bind_eq_ok_iff.mp h
      obtain rfl := Option.some.inj (Except.ok.inj h)
      exact .arguments arguments
    · cases Except.ok.inj h
  | loop =>
    obtain ⟨clause, _, h⟩ := bind_eq_ok_iff.mp h
    obtain ⟨statement, rfl, hparallel, hcanonical⟩ := exists_loop_of_readLoop_eq_ok h
    exact .loop hparallel hcanonical
  | parallelLoop =>
    obtain ⟨clause, _, h⟩ := bind_eq_ok_iff.mp h
    obtain ⟨statement, rfl, hparallel, hcanonical⟩ := exists_loop_of_readLoop_eq_ok h
    exact .parallelLoop hparallel hcanonical
  | publish =>
    obtain ⟨outputs, rfl⟩ := exists_outputs_of_readOutputs_eq_ok h
    exact .publish outputs
  | navigate =>
    obtain ⟨entries, _, h⟩ := bind_eq_ok_iff.mp h
    obtain ⟨targets, _, h⟩ := bind_eq_ok_iff.mp h
    obtain rfl := Option.some.inj (Except.ok.inj h)
    exact .navigation _
  | aggregate =>
    obtain ⟨outputs, rfl⟩ := exists_outputs_of_readOutputs_eq_ok h
    exact .aggregate outputs
  | breakOn =>
    obtain ⟨_, names, _, _, hmade⟩ := exists_items_of_eq_ok h
    obtain rfl := Option.some.inj hmade
    exact .names names

/-- What a keyword binds without a value is of its kind too. -/
theorem makes_of_absent (h : keyword.absent = some binding) : keyword.Makes binding := by
  cases keyword with
  | inputs =>
    obtain rfl := Option.some.inj h
    exact .inputs []
  | outputs =>
    obtain rfl := Option.some.inj h
    exact .outputs []
  | results =>
    obtain rfl := Option.some.inj h
    exact .results []
  | _ => cases h

/-- What stands under a keyword, if anything, is read as a binding of its kind. -/
theorem makes_of_convert_eq_ok {value : Option Value}
    (h : keyword.convert key value = .ok (some binding)) : keyword.Makes binding := by
  unfold convert at h
  split at h
  · exact makes_of_absent (Except.ok.inj h)
  · exact makes_of_absent (Except.ok.inj h)
  · exact makes_of_readValue_eq_ok h

end Keyword

variable {entries : Mapping} {keyword : Keyword} {keywords : List Keyword} {binding : Binding}
  {bindings : Bindings}

/-- What a keyword names in a map is read as a binding of its kind. -/
theorem makes_of_readKeyword_eq_ok (h : readKeyword entries keyword = .ok (some binding)) :
    keyword.Makes binding :=
  Keyword.makes_of_convert_eq_ok h

/-- Every binding was made by one of the keywords, under whose text it stands. -/
theorem ReadsAs.exists_makes {key : String} (h : ReadsAs entries keywords bindings)
    (hbinding : bindings.get? key = some binding) :
    ∃ keyword ∈ keywords, keyword.text = key ∧ keyword.Makes binding := by
  have hmade : ∃ keyword ∈ keywords, keyword.text = key := by
    refine Decidable.byContradiction fun hnone => ?_
    have habsent := h.absent key fun keyword hmem htext => hnone ⟨keyword, hmem, htext⟩
    rw [habsent] at hbinding
    cases hbinding
  obtain ⟨keyword, hmem, rfl⟩ := hmade
  have hread := h.read keyword hmem
  rw [hbinding] at hread
  exact ⟨keyword, hmem, rfl, makes_of_readKeyword_eq_ok hread⟩

/-- Every binding that was read for a scope was made by a keyword that may stand there. -/
theorem exists_makes_of_readBindings {scope : Scope} {key : String}
    (h : readBindings entries (Registry.standard.inScope scope) = .ok bindings)
    (hbinding : bindings.get? key = some binding) :
    ∃ keyword : Keyword, scope ∈ keyword.scopes ∧ keyword.text = key ∧ keyword.Makes binding := by
  obtain ⟨keyword, hmem, htext, hmakes⟩ := (readsAs_of_readBindings h).exists_makes hbinding
  exact ⟨keyword, Registry.mem_inScope_standard.mp hmem, htext, hmakes⟩

end Taskflow
