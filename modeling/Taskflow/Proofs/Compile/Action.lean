import Taskflow.Proofs.Compile.WellFormed

/-!
# The actions of an accepted operation

An operation is meant to run one action. What compilation checks is only that the map of its
action is not empty, although null gives no action there and both actions may be given. The main
statement says that an accepted operation runs exactly the actions that are given, so that it has
a single one exactly if one of the two is given and the other is not.
-/

namespace Taskflow

/-- A map gives something under a keyword: a value other than null. -/
def Mapping.Gives (entries : Mapping) (keyword : String) : Prop :=
  ∃ value, entries.lookup? keyword = some value ∧ value ≠ .null

/-- The keywords of actions bind nothing unless something is given. -/
theorem absent_of_action {keyword : Keyword} (hscope : Scope.action ∈ keyword.scopes) :
    keyword.absent = none := by
  cases keyword with
  | javaAction | pythonAction => rfl
  | _ => exact absurd hscope (by decide)

/-- The keywords of actions bind whatever value they accept. -/
theorem isSome_of_readValue_action {keyword : Keyword} {key : String} {value : Value}
    {binding : Option Binding} (hscope : Scope.action ∈ keyword.scopes)
    (h : keyword.readValue key value = .ok binding) : binding.isSome = true := by
  cases keyword with
  | javaAction =>
    obtain ⟨entries, _, hrest⟩ := bind_eq_ok_iff.mp h
    obtain ⟨action, _, hmade⟩ := bind_eq_ok_iff.mp hrest
    rw [← Except.ok.inj hmade]
    rfl
  | pythonAction =>
    obtain ⟨code, _, hmade⟩ := bind_eq_ok_iff.mp h
    rw [← Except.ok.inj hmade]
    rfl
  | _ => exact absurd hscope (by decide)

/-- The keyword of an action binds one exactly if something is given under it. -/
theorem isSome_readKeyword_action_iff {entries : Mapping} {keyword : Keyword}
    {binding : Option Binding} (hscope : Scope.action ∈ keyword.scopes)
    (h : readKeyword entries keyword = .ok binding) :
    binding.isSome = true ↔ entries.Gives keyword.text := by
  unfold Mapping.Gives
  unfold readKeyword Keyword.convert at h
  split at h
  · next hlookup =>
    rw [← Except.ok.inj h, absent_of_action hscope, hlookup]
    simp
  · next hlookup =>
    rw [← Except.ok.inj h, absent_of_action hscope, hlookup]
    simp
  · next value hvalue hlookup =>
    refine iff_of_true (isSome_of_readValue_action hscope h) ⟨value, hlookup, ?_⟩
    rintro rfl
    exact hvalue rfl

namespace Compile

variable {settings : Settings} {file : SourceFile} {name : String} {body : Mapping}
  {signature : Signature} {bindings : Bindings}

/-- The bindings of an action are what its two keywords bind. -/
theorem exists_of_readBindings_action {declared : Mapping}
    (h : readBindings declared (Registry.standard.inScope .action) = .ok bindings) :
    ∃ java script, readKeyword declared .javaAction = .ok java ∧
      readKeyword declared .pythonAction = .ok script ∧
      bindings = Bindings.add (Bindings.add .empty .javaAction java) .pythonAction script := by
  have hscope : Registry.standard.inScope .action = [.javaAction, .pythonAction] := by rfl
  rw [hscope, readBindings, List.foldlM_cons] at h
  obtain ⟨first, hfirst, hrest⟩ := bind_eq_ok_iff.mp h
  obtain ⟨java, hjava, hadded⟩ := bind_eq_ok_iff.mp hfirst
  obtain rfl := Except.ok.inj hadded
  rw [List.foldlM_cons] at hrest
  obtain ⟨second, hsecond, hend⟩ := bind_eq_ok_iff.mp hrest
  obtain ⟨script, hscript, hadded⟩ := bind_eq_ok_iff.mp hsecond
  obtain rfl := Except.ok.inj hadded
  exact ⟨java, script, hjava, hscript, (Except.ok.inj hend).symm⟩

/-- The two keywords bind one action each. -/
theorem length_add_add (java script : Option Binding) :
    (Bindings.add (Bindings.add .empty .javaAction java) .pythonAction script).toList.length =
      java.toList.length + script.toList.length := by
  cases java with
  | none => cases script <;> rfl
  | some java => cases script <;> rfl

/-- Two choices make one thing exactly if one of them makes something and the other does not. -/
theorem length_add_length_eq_one_iff {α : Type} {first second : Option α} :
    first.toList.length + second.toList.length = 1 ↔
      first.isSome = true ∧ ¬second.isSome = true ∨
        second.isSome = true ∧ ¬first.isSome = true := by
  cases first <;> cases second <;> simp

/-- An accepted operation runs the actions that are given. It runs a single one, the call of a
method or a script, exactly if one of the two is given and the other is not. -/
theorem single_action_iff
    (h : executable settings file name body = .ok (.operation signature bindings)) :
    ∃ declared : Mapping, body.lookup? "action" = some (.map declared) ∧
      ((bindings.get? "java_action").isSome = true ↔ declared.Gives "java_action") ∧
      ((bindings.get? "python_script").isSome = true ↔ declared.Gives "python_script") ∧
      ((∃ key binding, bindings.toList = [(key, binding)] ∧ Binding.OfAction key binding) ↔
        declared.Gives "java_action" ∧ ¬declared.Gives "python_script" ∨
          declared.Gives "python_script" ∧ ¬declared.Gives "java_action") := by
  obtain ⟨declared, hdeclared, _, haction⟩ := exists_declared_of_operation h
  have hread := readsAs_of_readBindings haction
  obtain ⟨java, script, hjava, hscript, hbindings⟩ := exists_of_readBindings_action haction
  have hgetJava : bindings.get? Keyword.javaAction.text = java :=
    Except.ok.inj ((hread.read .javaAction (by decide)).symm.trans hjava)
  have hgetScript : bindings.get? Keyword.pythonAction.text = script :=
    Except.ok.inj ((hread.read .pythonAction (by decide)).symm.trans hscript)
  have hgivesJava := isSome_readKeyword_action_iff (by decide) hjava
  have hgivesScript := isSome_readKeyword_action_iff (by decide) hscript
  have hsingle : bindings.toList.length = 1 ↔
      java.isSome = true ∧ ¬script.isSome = true ∨ script.isSome = true ∧ ¬java.isSome = true := by
    rw [hbindings, length_add_add, length_add_length_eq_one_iff]
  rw [hgivesJava, hgivesScript] at hsingle
  refine ⟨declared, hdeclared, hgetJava ▸ hgivesJava, hgetScript ▸ hgivesScript, ?_⟩
  refine Iff.trans ?_ hsingle
  constructor
  · rintro ⟨key, binding, hlist, _⟩
    rw [hlist]
    rfl
  · intro hlength
    obtain ⟨⟨key, binding⟩, hlist⟩ := List.length_eq_one_iff.mp hlength
    have hmem : (key, binding) ∈ bindings.toList := hlist ▸ List.mem_singleton_self _
    exact ⟨key, binding, hlist, ofAction_of_readBindings haction (Dict.mem_toList_iff.mp hmem)⟩

/-- A file of operations that declares nothing yet. -/
def greetingsFile : SourceFile := .empty "greetings.sl" "user.ops" .operations

/-- The signature of an operation that declares nothing but its action. -/
def helloSignature : Signature := ⟨"user.ops", "hello", [], [], [], .empty, .empty⟩

/-- An operation that gives one action runs it. -/
theorem single_action_of_hello :
    executable {} greetingsFile "hello"
        [("action", .map [("Python_Script", .text "print(1)"), ("java_action", .null)])] =
      .ok (.operation helloSignature (Dict.empty.insert "python_script" (.script "print(1)"))) ∧
    ∃ key binding,
      (Dict.empty.insert "python_script" (.script "print(1)") : Bindings).toList =
        [(key, binding)] ∧ Binding.OfAction key binding := by
  have hcompiled : executable {} greetingsFile "hello"
        [("action", .map [("Python_Script", .text "print(1)"), ("java_action", .null)])] =
      .ok (.operation helloSignature (Dict.empty.insert "python_script" (.script "print(1)"))) :=
    toOption_eq_some_iff.mp (by decide +kernel)
  obtain ⟨declared, hdeclared, _, _, hsingle⟩ := single_action_iff hcompiled
  obtain rfl : [("Python_Script", .text "print(1)"), ("java_action", .null)] = declared :=
    Value.map.inj (Option.some.inj hdeclared)
  refine ⟨hcompiled, hsingle.mpr (.inr ⟨⟨.text "print(1)", rfl, Value.noConfusion⟩, ?_⟩)⟩
  rintro ⟨value, hvalue, hnotNull⟩
  exact hnotNull (Option.some.inj hvalue).symm

/-- An operation is accepted although null gives it no action, and also with both actions. -/
theorem no_single_action_of_hello :
    (∃ bindings,
      executable {} greetingsFile "hello" [("action", .map [("python_script", .null)])] =
        .ok (.operation helloSignature bindings) ∧
      bindings.toList.length = 0) ∧
    ∃ bindings,
      executable {} greetingsFile "hello"
          [("action", .map
            [("java_action", .map [("className", .text "A"), ("methodName", .text "run")]),
              ("python_script", .text "print(1)")])] =
        .ok (.operation helloSignature bindings) ∧
      bindings.toList.length = 2 := by
  constructor
  · exact ⟨.empty, toOption_eq_some_iff.mp (by decide +kernel), rfl⟩
  · exact ⟨(Dict.empty.insert "java_action" (.javaAction ⟨"A", "run"⟩)).insert "python_script"
      (.script "print(1)"), toOption_eq_some_iff.mp (by decide +kernel), rfl⟩

end Compile

end Taskflow
