import Taskflow.Binding.Written
import Taskflow.Proofs.Binding.InputEntry
import Taskflow.Proofs.Keyword.Kept
import Taskflow.Proofs.Loop.Written

/-!
# Writing a binding and reading it back

Under its keyword a binding is written with everything said explicitly: a list item by item, an
invocation as a map from its reference to its arguments, a navigation as a map in any order. The
main statement says that each of these values is read back as the binding that it was written from,
whatever its names and texts look like, and that a keyword binds nothing which cannot be written.
-/

namespace Taskflow

open LoopStatement

/-- A dictionary is made of its entries in any order. -/
theorem Dict.ofList_eq_of_perm {α : Type} {d : Dict α} {entries : List (String × α)}
    (h : entries.Perm d.toList) : Dict.ofList entries = d := by
  have hdistinct : (entries.reverse.map Prod.fst).Nodup := by
    rw [List.map_reverse, List.nodup_reverse]
    exact (h.map Prod.fst).nodup_iff.mpr d.nodup_keys
  refine Dict.ext_get? fun key => Option.ext fun value => ?_
  rw [Dict.get?_ofList, Dict.find?_eq_some_iff hdistinct, List.mem_reverse, h.mem_iff,
    Dict.mem_toList_iff]

/-- A list declares the things that its items are written from. -/
theorem declares_map {α : Type} {read : Value → Except Fault α} {nameOf : α → String}
    {write : α → Value} (hnames : ∀ item thing, read item = .ok thing → item.Names (nameOf thing))
    (hread : ∀ thing, read (write thing) = .ok thing) (things : List α) :
    Declares read nameOf (some (.list (things.map write))) things :=
  List.forall₂_map_left_iff.mpr
    (List.forall₂_same.mpr fun thing _ => ⟨hread thing, hnames _ _ (hread thing)⟩)

namespace Entry

variable (key : String)

/-- An input is read back, also where its default is null or it is named like a property. -/
theorem readInput_written (input : Input) : readInput key input.written = .ok input := by
  obtain ⟨name, expression, required, encrypted, overridable⟩ := input
  refine readInput_eq_ok_iff.mpr (@StandsFor.described name _ expression (some required)
    (some encrypted) (some overridable) ?_ ?_ (.value rfl rfl) (.value rfl rfl) (.value rfl rfl))
  · simp [Mapping.keys, Input.properties]
  · cases expression with
    | none => exact .null rfl
    | some expression => exact .value rfl rfl

/-- An output is read back. -/
theorem readOutput_written (output : Output) : readOutput key output.written = .ok output := rfl

/-- A result is read back, with or without an expression. -/
theorem readResult_written (result : ResultBinding) :
    readResult key result.written = .ok result := by
  obtain ⟨name, expression⟩ := result
  cases expression <;> rfl

end Entry

namespace Keyword

/-- The values that a binding is written as under a keyword. An action needs text in both of its
names, and a loop must be canonical and parallel as the keyword says; everything else is written
whatever it holds. -/
inductive Writes : Keyword → Binding → Value → Prop
  | inputs (items : List Input) :
      Writes .inputs (.inputs items) (.list (items.map Input.written))
  | arguments (reference : String) (items : List Input) :
      Writes .invoke (.inputs items) (.map [(reference, .list (items.map Input.written))])
  | outputs {keyword : Keyword} (hkeyword : keyword.IsOfOutputs) (items : List Output) :
      Writes keyword (.outputs items) (.list (items.map Output.written))
  | results (items : List ResultBinding) :
      Writes .results (.results items) (.list (items.map ResultBinding.written))
  | javaAction {action : JavaAction} (hclass : HasText action.className)
      (hmethod : HasText action.methodName) :
      Writes .javaAction (.javaAction action) action.written
  | script (code : String) : Writes .pythonAction (.script code) (.text code)
  | loop {keyword : Keyword} {statement : LoopStatement}
      (hloop : keyword.IsLoop statement.isParallel) (hcanonical : statement.Canonical) :
      Writes keyword (.loop statement) (.text (LoopClause.write statement))
  | navigation {targets : Navigation} {entries : List (String × String)}
      (horder : entries.Perm targets.toList) :
      Writes .navigate (.navigation targets)
        (.map (entries.map fun (result, target) => (result, .text target)))
  | names (names : List String) : Writes .breakOn (.names names) (.list (names.map .text))

variable {keyword : Keyword} {key : String} {binding : Binding} {value : Value}

/-- A keyword keeps all of what is written under it. -/
theorem Writes.keeps (h : keyword.Writes binding value) : keyword.Keeps key value binding := by
  cases h with
  | inputs items =>
    exact .inputs (declares_map (fun _ _ => Entry.names_of_readInput_eq_ok)
      (Entry.readInput_written key) items)
  | arguments reference items =>
    exact .arguments (declares_map (fun _ _ => Entry.names_of_readInput_eq_ok)
      (Entry.readInput_written reference) items)
  | outputs hkeyword items =>
    exact .outputs hkeyword (declares_map (fun _ _ => Entry.names_of_readOutput_eq_ok)
      (Entry.readOutput_written key) items)
  | results items =>
    exact .results (declares_map (fun _ _ => Entry.names_of_readResult_eq_ok)
      (Entry.readResult_written key) items)
  | javaAction hclass hmethod => exact .javaAction ⟨rfl, hclass⟩ ⟨rfl, hmethod⟩
  | script code => exact .script rfl
  | @loop _ statement hloop hcanonical =>
    have hread := LoopClause.read_write hcanonical statement.isParallel
    rw [LoopClause.withParallel_isParallel] at hread
    exact .loop hloop rfl hread rfl
  | @navigation targets entries horder =>
    have hmade : Compile.IsMadeOf targets
        (entries.map fun (result, target) => (result, .text target)) :=
      ⟨entries, rfl, (Dict.ofList_eq_of_perm horder).symm⟩
    exact .navigation hmade (toList_perm_of_isMadeOf hmade)
  | names names => exact .names names

/-- Null is not the written form of anything. -/
theorem Writes.ne_null (h : keyword.Writes binding value) : value ≠ .null := by
  rintro rfl
  cases h

/-- What is written under a keyword is read back. -/
theorem Writes.convert_eq (h : keyword.Writes binding value) (key : String) :
    keyword.convert key (some value) = .ok (some binding) := by
  rw [convert_of_ne_null h.ne_null]
  exact h.keeps.readValue_eq

/-- Whatever a keyword makes can be written under it: an invocation under any reference, and all
else in the form that its binding has. -/
theorem Makes.exists_writes (h : keyword.Makes binding) :
    ∃ value, keyword.Writes binding value := by
  cases h with
  | inputs items => exact ⟨_, .inputs items⟩
  | outputs items => exact ⟨_, .outputs .outputs items⟩
  | results items => exact ⟨_, .results items⟩
  | javaAction hclass hmethod => exact ⟨_, .javaAction hclass hmethod⟩
  | script code => exact ⟨_, .script code⟩
  | arguments items => exact ⟨_, .arguments "" items⟩
  | loop hparallel hcanonical => exact ⟨_, .loop (hparallel ▸ .loop) hcanonical⟩
  | parallelLoop hparallel hcanonical => exact ⟨_, .loop (hparallel ▸ .parallelLoop) hcanonical⟩
  | publish items => exact ⟨_, .outputs .publish items⟩
  | navigation targets => exact ⟨_, .navigation (List.Perm.refl _)⟩
  | aggregate items => exact ⟨_, .outputs .aggregate items⟩
  | names names => exact ⟨_, .names names⟩

/-- Every value that a binding is written as under a keyword is read back as exactly this binding.
The bindings that have such a written form are all that can be read under the keyword. -/
theorem bindings_read_back (keyword : Keyword) (binding : Binding) (key : String) :
    (∀ value, keyword.Writes binding value →
      keyword.convert key (some value) = .ok (some binding)) ∧
    ((∃ value, keyword.convert key value = .ok (some binding)) ↔
      ∃ value, keyword.Writes binding value) := by
  refine ⟨fun value hwrites => hwrites.convert_eq key, ?_, ?_⟩
  · rintro ⟨value, hread⟩
    exact (makes_of_convert_eq_ok hread).exists_writes
  · rintro ⟨value, hwrites⟩
    exact ⟨some value, hwrites.convert_eq key⟩

/-- Two arguments, one with a property for its name and an empty default, one without a name. -/
def oddArguments : List Input :=
  [⟨Input.defaultProperty, some "", false, true, false⟩, ⟨"", none, true, false, true⟩]

/-- Both arguments are read back under an empty reference, as is a navigation that was written in
another order than that of its keys. -/
theorem bindings_read_back_of_oddArguments :
    (invoke.Writes (.inputs oddArguments) (.map [("", .list (oddArguments.map Input.written))]) ∧
      invoke.convert "do" (some (.map [("", .list (oddArguments.map Input.written))])) =
        .ok (some (.inputs oddArguments))) ∧
    navigate.Writes (.navigation (Dict.ofList [("", "end"), ("RETRY", "")]))
        (.map [("RETRY", .text ""), ("", .text "end")]) ∧
      navigate.convert "navigate" (some (.map [("RETRY", .text ""), ("", .text "end")])) =
        .ok (some (.navigation (Dict.ofList [("", "end"), ("RETRY", "")]))) := by
  have harguments : invoke.Writes (.inputs oddArguments) _ := .arguments "" oddArguments
  have horder : [("RETRY", ""), ("", "end")].Perm
      (Dict.ofList [("", "end"), ("RETRY", "")]).toList := by decide
  have hnavigation := Writes.navigation horder
  exact ⟨⟨harguments, (bindings_read_back _ _ "do").1 _ harguments⟩,
    hnavigation, (bindings_read_back _ _ "navigate").1 _ hnavigation⟩

end Keyword

end Taskflow
