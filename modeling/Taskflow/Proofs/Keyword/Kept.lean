import Mathlib.Data.List.Nodup
import Taskflow.Proofs.Flow.Navigation
import Taskflow.Proofs.Keyword.Kinds

/-!
# What a keyword keeps of its value

The value under a keyword is read by one of several readers, each of which could leave something
out. The main statement says that none does. A value that is not null is bound to nothing in two
cases only: it is a map that names no single executable, or a blank clause of a loop. In all others
it is refused or bound to what the keyword keeps: one thing for each item of a list, each argument
and each entry of a map, and nothing else.
-/

namespace Taskflow

open LoopStatement Text

/-- A dictionary made of entries with distinct keys holds exactly these. -/
theorem Dict.toList_ofList_perm {α : Type} {entries : List (String × α)}
    (h : (entries.map Prod.fst).Nodup) : (Dict.ofList entries).toList.Perm entries := by
  have hdistinct : (entries.reverse.map Prod.fst).Nodup := by
    rw [List.map_reverse]
    exact List.pairwise_reverse.mpr (h.imp Ne.symm)
  have hnodup : (Dict.ofList entries).toList.Nodup := List.Nodup.of_map _ (Dict.nodup_keys _)
  refine (List.perm_ext_iff_of_nodup hnodup (List.Nodup.of_map _ h)).mpr fun ⟨key, value⟩ => ?_
  rw [Dict.mem_toList_iff, Dict.get?_ofList, Dict.find?_eq_some_iff hdistinct, List.mem_reverse]

/-- A property has a text that is not blank. -/
structure Mapping.Requires (entries : Mapping) (property content : String) : Prop where
  /-- The text stands under the property. -/
  found : (entries.get? property).bind Value.scalarText? = some content
  /-- It is not blank. -/
  hasText : HasText content

namespace Keyword

/-- The keywords of loops, and whether their loops are parallel. -/
inductive IsLoop : Keyword → Bool → Prop
  | loop : IsLoop .loop false
  | parallelLoop : IsLoop .parallelLoop true

/-- The keywords of outputs. -/
inductive IsOfOutputs : Keyword → Prop
  | outputs : IsOfOutputs .outputs
  | publish : IsOfOutputs .publish
  | aggregate : IsOfOutputs .aggregate

/-- A keyword has nothing to bind: a map of an invocation that does not have exactly one entry, or
the clause of a loop that is blank. -/
inductive BindsNothing : Keyword → Value → Prop
  | notOneReference {entries : Mapping} (h : entries.length ≠ 1) :
      BindsNothing .invoke (.map entries)
  | blankClause {keyword : Keyword} {inParallel : Bool} {value : Value} {clause : String}
      (hloop : keyword.IsLoop inParallel) (htext : value.scalarText? = some clause)
      (hblank : isBlankText clause.toList = true) : BindsNothing keyword value

/-- What a keyword keeps of its value: one thing for each item of a list, in order, for each
argument of an invocation and for each entry of a navigation, and of a scalar all of its text. The
maps of documents have no key twice, and where one has, its last target counts. -/
inductive Keeps (key : String) : Keyword → Value → Binding → Prop
  | inputs {items : List Value} {found : List Input}
      (h : Declares (Entry.readInput key) Input.name (some (.list items)) found) :
      Keeps key .inputs (.list items) (.inputs found)
  | outputs {keyword : Keyword} {items : List Value} {found : List Output}
      (hkeyword : keyword.IsOfOutputs)
      (h : Declares (Entry.readOutput key) Output.name (some (.list items)) found) :
      Keeps key keyword (.list items) (.outputs found)
  | results {items : List Value} {found : List ResultBinding}
      (h : Declares (Entry.readResult key) ResultBinding.name (some (.list items)) found) :
      Keeps key .results (.list items) (.results found)
  | javaAction {entries : Mapping} {action : JavaAction}
      (hclass : entries.Requires JavaAction.classProperty action.className)
      (hmethod : entries.Requires JavaAction.methodProperty action.methodName) :
      Keeps key .javaAction (.map entries) (.javaAction action)
  | script {value : Value} {code : String} (htext : value.scalarText? = some code) :
      Keeps key .pythonAction value (.script code)
  | arguments {reference : String} {value : Value} {found : List Input}
      (h : Declares (Entry.readInput reference) Input.name (some value) found) :
      Keeps key .invoke (.map [(reference, value)]) (.inputs found)
  | loop {keyword : Keyword} {inParallel : Bool} {value : Value} {clause : String}
      {statement : LoopStatement} (hloop : keyword.IsLoop inParallel)
      (htext : value.scalarText? = some clause)
      (hread : LoopClause.read clause inParallel = .ok (some statement))
      (hparallel : statement.isParallel = inParallel) : Keeps key keyword value (.loop statement)
  | navigation {entries : Mapping} {targets : Navigation}
      (hmade : Compile.IsMadeOf targets entries)
      (honce : entries.keys.Nodup →
        (targets.toList.map fun (result, target) => (result, .text target)).Perm entries) :
      Keeps key .navigate (.map entries) (.navigation targets)
  | names (names : List String) : Keeps key .breakOn (.list (names.map .text)) (.names names)

end Keyword

/-- A clause stands for no loop exactly if it is blank. -/
theorem LoopClause.read_eq_ok_none_iff {clause : String} {inParallel : Bool} :
    read clause inParallel = .ok none ↔ isBlankText clause.toList = true := by
  unfold read
  split
  · next hblank => exact iff_of_true rfl hblank
  · next htext =>
    refine iff_of_false (fun h => ?_) htext
    obtain ⟨statement, _, hnone⟩ := bind_eq_ok_iff.mp h
    cases Except.ok.inj hnone

namespace Entry

variable {key property content : String} {entries : Mapping}

/-- A required property is read as its text, which is not blank. -/
theorem readRequired_eq_ok_iff :
    readRequired key entries property = .ok content ↔ entries.Requires property content := by
  have hfilter : ((entries.get? property).bind Value.scalarText?).filter
      (fun content => !isBlankText content.toList) = some content ↔
        entries.Requires property content := by
    rw [Option.filter_eq_some_iff]
    constructor
    · rintro ⟨hfound, htext⟩
      exact ⟨hfound, by simpa [HasText] using htext⟩
    · rintro ⟨hfound, htext⟩
      exact ⟨hfound, by simpa [HasText] using htext⟩
  rw [← hfilter, readRequired]
  cases ((entries.get? property).bind Value.scalarText?).filter
    fun content => !isBlankText content.toList <;> simp

/-- The class and the method of an action are both required. -/
theorem readJavaAction_eq_ok_iff {action : JavaAction} :
    readJavaAction key entries = .ok action ↔
      entries.Requires JavaAction.classProperty action.className ∧
        entries.Requires JavaAction.methodProperty action.methodName := by
  simp only [readJavaAction, bind_eq_ok_iff, readRequired_eq_ok_iff]
  constructor
  · rintro ⟨className, hclass, methodName, hmethod, h⟩
    obtain rfl := Except.ok.inj h
    exact ⟨hclass, hmethod⟩
  · rintro ⟨hclass, hmethod⟩
    exact ⟨_, hclass, _, hmethod, rfl⟩

/-- The name of a result is read from that text alone. -/
theorem readResultName_eq_ok_iff {item : Value} {name : String} :
    readResultName key item = .ok name ↔ item = .text name := by
  cases item <;> simp [readResultName]

/-- Names of results are read from a list of exactly these texts. -/
theorem mapM_readResultName_eq_ok_iff {items : List Value} {names : List String} :
    items.mapM (readResultName key) = .ok names ↔ items = names.map .text := by
  simp only [mapM_eq_ok_iff, readResultName_eq_ok_iff]
  rw [← List.forall₂_map_right_iff (R := Eq), List.forall₂_eq_eq_eq]

/-- Targets are read from a map of exactly these texts. -/
theorem mapM_readTarget_eq_ok_iff {targets : List (String × String)} :
    entries.mapM (readTarget key) = .ok targets ↔
      entries = targets.map fun (result, target) => (result, .text target) := by
  refine ⟨Compile.eq_map_of_readTargets, ?_⟩
  rintro rfl
  rw [mapM_eq_ok_iff, List.forall₂_map_left_iff]
  exact List.forall₂_same.mpr fun _ _ => rfl

end Entry

/-- Things are read from a list, item by item, exactly as the list declares them, if the items give
their names. -/
theorem readItems_eq_ok_iff {α β : Type} {read : Value → Except Fault α} {nameOf : α → String}
    {make : List α → β} {key : String} {value : Value} {result : β}
    (hnames : ∀ item thing, read item = .ok thing → item.Names (nameOf thing)) :
    (do
      let items ← value.asList key
      let found ← items.mapM read
      return make found) = .ok result ↔
      ∃ items found, value = .list items ∧ Declares read nameOf (some (.list items)) found ∧
        result = make found := by
  constructor
  · intro h
    obtain ⟨items, found, hvalue, hfound, hresult⟩ := exists_items_of_eq_ok h
    exact ⟨items, found, hvalue, hfound.imp fun item thing hread => ⟨hread, hnames _ _ hread⟩,
      hresult⟩
  · rintro ⟨items, found, rfl, hfound, rfl⟩
    have hread : items.mapM read = .ok found :=
      mapM_eq_ok_iff.mpr (hfound.imp fun _ _ hitem => hitem.1)
    exact bind_eq_ok_iff.mpr ⟨items, rfl, bind_eq_ok_iff.mpr ⟨found, hread, rfl⟩⟩

namespace Keyword

variable {key : String} {keyword : Keyword} {value : Value} {result : Option Binding}

/-- The arguments of an invocation are read as what the value under its reference declares. -/
theorem readArguments_eq_ok_iff {reference : String} {found : List Input} :
    readArguments reference value = .ok found ↔
      Declares (Entry.readInput reference) Input.name (some value) found := by
  refine ⟨declares_of_readArguments_eq_ok, fun h => ?_⟩
  cases value with
  | null =>
    obtain rfl : found = [] := h
    rfl
  | list items => exact mapM_eq_ok_iff.mpr (List.Forall₂.imp (fun _ _ hitem => hitem.1) h)
  | boolean | number | text | map => cases h

/-- Outputs are read alike under all keywords of outputs. -/
theorem IsOfOutputs.readValue_eq (h : keyword.IsOfOutputs) :
    keyword.readValue key value = readOutputs key value := by
  cases h <;> rfl

/-- The clause of a loop is the text of a scalar, whatever the keyword. -/
theorem IsLoop.readValue_eq {inParallel : Bool} (h : keyword.IsLoop inParallel) :
    keyword.readValue key value =
      value.asText key >>= fun clause => readLoop clause inParallel := by
  cases h <;> rfl

/-- Nothing is bound where there is nothing to bind, and else what the keyword keeps. -/
def AccountsFor (keyword : Keyword) (key : String) (value : Value) : Option Binding → Prop
  | none => keyword.BindsNothing value
  | some binding => keyword.Keeps key value binding

/-- What is read as a list of outputs is accounted for. -/
theorem IsOfOutputs.accountsFor (hkeyword : keyword.IsOfOutputs)
    (h : keyword.readValue key value = .ok result) : keyword.AccountsFor key value result := by
  rw [hkeyword.readValue_eq] at h
  obtain ⟨items, found, rfl, hfound, rfl⟩ :=
    (readItems_eq_ok_iff fun _ _ => Entry.names_of_readOutput_eq_ok).mp h
  exact .outputs hkeyword hfound

/-- What is read as the clause of a loop is accounted for. -/
theorem IsLoop.accountsFor {inParallel : Bool} (hkeyword : keyword.IsLoop inParallel)
    (h : keyword.readValue key value = .ok result) : keyword.AccountsFor key value result := by
  rw [hkeyword.readValue_eq] at h
  obtain ⟨clause, htext, h⟩ := bind_eq_ok_iff.mp h
  obtain ⟨found, hread, h⟩ := bind_eq_ok_iff.mp h
  obtain rfl := Except.ok.inj h
  have hscalar := Value.asText_eq_ok_iff.mp htext
  cases found with
  | none => exact .blankClause hkeyword hscalar (LoopClause.read_eq_ok_none_iff.mp hread)
  | some statement =>
    have hparallel := (LoopClause.canonical_of_read_eq_ok hread).1
    exact .loop hkeyword hscalar hread hparallel

/-- What is read as the map of an invocation is accounted for. -/
theorem accountsFor_of_readInvocation_eq_ok {entries : Mapping}
    (h : readInvocation entries = .ok result) :
    invoke.AccountsFor key (.map entries) result := by
  unfold readInvocation at h
  split at h
  · next reference value =>
    obtain ⟨found, hfound, h⟩ := bind_eq_ok_iff.mp h
    obtain rfl := Except.ok.inj h
    exact .arguments (readArguments_eq_ok_iff.mp hfound)
  · next hother =>
    obtain rfl := Except.ok.inj h
    refine .notOneReference fun hlength => ?_
    obtain ⟨⟨reference, value⟩, rfl⟩ := List.length_eq_one_iff.mp hlength
    exact hother reference value rfl

/-- A navigation holds one target for each entry of a map that has no key twice. -/
theorem toList_perm_of_isMadeOf {entries : Mapping} {targets : Navigation}
    (hmade : Compile.IsMadeOf targets entries) (hdistinct : entries.keys.Nodup) :
    (targets.toList.map fun (result, target) => (result, Value.text target)).Perm entries := by
  obtain ⟨written, rfl, rfl⟩ := hmade
  refine (Dict.toList_ofList_perm ?_).map _
  simpa [Mapping.keys, Function.comp_def] using hdistinct

/-- Whatever is read under a keyword is accounted for. -/
theorem accountsFor_of_readValue_eq_ok (h : keyword.readValue key value = .ok result) :
    keyword.AccountsFor key value result := by
  cases keyword with
  | inputs =>
    obtain ⟨items, found, rfl, hfound, rfl⟩ :=
      (readItems_eq_ok_iff fun _ _ => Entry.names_of_readInput_eq_ok).mp h
    exact .inputs hfound
  | outputs => exact IsOfOutputs.outputs.accountsFor h
  | results =>
    obtain ⟨items, found, rfl, hfound, rfl⟩ :=
      (readItems_eq_ok_iff fun _ _ => Entry.names_of_readResult_eq_ok).mp h
    exact .results hfound
  | javaAction =>
    obtain ⟨entries, hentries, hrest⟩ := bind_eq_ok_iff.mp h
    obtain rfl := Value.asMap_eq_ok_iff.mp hentries
    obtain ⟨action, haction, hresult⟩ := bind_eq_ok_iff.mp hrest
    obtain rfl := Except.ok.inj hresult
    obtain ⟨hclass, hmethod⟩ := Entry.readJavaAction_eq_ok_iff.mp haction
    exact .javaAction hclass hmethod
  | pythonAction =>
    obtain ⟨code, htext, h⟩ := bind_eq_ok_iff.mp h
    obtain rfl := Except.ok.inj h
    exact .script (Value.asText_eq_ok_iff.mp htext)
  | invoke =>
    obtain ⟨entries, hentries, hinvocation⟩ := bind_eq_ok_iff.mp h
    obtain rfl := Value.asMap_eq_ok_iff.mp hentries
    exact accountsFor_of_readInvocation_eq_ok hinvocation
  | loop => exact IsLoop.loop.accountsFor h
  | parallelLoop => exact IsLoop.parallelLoop.accountsFor h
  | publish => exact IsOfOutputs.publish.accountsFor h
  | navigate =>
    obtain ⟨entries, hentries, hrest⟩ := bind_eq_ok_iff.mp h
    obtain rfl := Value.asMap_eq_ok_iff.mp hentries
    obtain ⟨targets, htargets, hresult⟩ := bind_eq_ok_iff.mp hrest
    obtain rfl := Except.ok.inj hresult
    have hmade : Compile.IsMadeOf (Dict.ofList targets) entries :=
      ⟨targets, Entry.mapM_readTarget_eq_ok_iff.mp htargets, rfl⟩
    exact .navigation hmade (toList_perm_of_isMadeOf hmade)
  | aggregate => exact IsOfOutputs.aggregate.accountsFor h
  | breakOn =>
    obtain ⟨items, names, rfl, hnames, rfl⟩ := exists_items_of_eq_ok h
    obtain rfl := Entry.mapM_readResultName_eq_ok_iff.mp (mapM_eq_ok_iff.mpr hnames)
    exact .names names

/-- Where there is nothing to bind, nothing is bound. -/
theorem BindsNothing.readValue_eq (h : keyword.BindsNothing value) :
    keyword.readValue key value = .ok none := by
  cases h with
  | @notOneReference entries hlength =>
    match entries, hlength with
    | [], _ => rfl
    | [_], hlength => exact absurd rfl hlength
    | _ :: _ :: _, _ => rfl
  | @blankClause _ _ _ clause hloop htext hblank =>
    rw [hloop.readValue_eq, Value.asText_eq_ok_iff.mpr htext]
    exact bind_eq_ok_iff.mpr
      ⟨clause, rfl, bind_eq_ok_iff.mpr ⟨none, LoopClause.read_eq_ok_none_iff.mpr hblank, rfl⟩⟩

/-- What a keyword keeps is bound. -/
theorem Keeps.readValue_eq {binding : Binding} (h : keyword.Keeps key value binding) :
    keyword.readValue key value = .ok (some binding) := by
  cases h with
  | inputs hfound =>
    exact (readItems_eq_ok_iff fun _ _ => Entry.names_of_readInput_eq_ok).mpr
      ⟨_, _, rfl, hfound, rfl⟩
  | outputs hkeyword hfound =>
    rw [hkeyword.readValue_eq]
    exact (readItems_eq_ok_iff fun _ _ => Entry.names_of_readOutput_eq_ok).mpr
      ⟨_, _, rfl, hfound, rfl⟩
  | results hfound =>
    exact (readItems_eq_ok_iff fun _ _ => Entry.names_of_readResult_eq_ok).mpr
      ⟨_, _, rfl, hfound, rfl⟩
  | javaAction hclass hmethod =>
    have haction : Entry.readJavaAction key _ = .ok _ :=
      Entry.readJavaAction_eq_ok_iff.mpr ⟨hclass, hmethod⟩
    exact bind_eq_ok_iff.mpr ⟨_, rfl, bind_eq_ok_iff.mpr ⟨_, haction, rfl⟩⟩
  | script htext => exact bind_eq_ok_iff.mpr ⟨_, Value.asText_eq_ok_iff.mpr htext, rfl⟩
  | arguments hfound =>
    have harguments := readArguments_eq_ok_iff.mpr hfound
    exact bind_eq_ok_iff.mpr ⟨_, rfl, bind_eq_ok_iff.mpr ⟨_, harguments, rfl⟩⟩
  | loop hloop htext hread _ =>
    rw [hloop.readValue_eq, Value.asText_eq_ok_iff.mpr htext]
    exact bind_eq_ok_iff.mpr ⟨_, rfl, bind_eq_ok_iff.mpr ⟨_, hread, rfl⟩⟩
  | navigation hmade _ =>
    obtain ⟨targets, hwritten, rfl⟩ := hmade
    have htargets : List.mapM (Entry.readTarget key) _ = .ok _ :=
      Entry.mapM_readTarget_eq_ok_iff.mpr hwritten
    exact bind_eq_ok_iff.mpr ⟨_, rfl, bind_eq_ok_iff.mpr ⟨targets, htargets, rfl⟩⟩
  | names names =>
    have hnames : (names.map .text).mapM (Entry.readResultName key) = .ok names :=
      Entry.mapM_readResultName_eq_ok_iff.mpr rfl
    exact bind_eq_ok_iff.mpr ⟨_, rfl, bind_eq_ok_iff.mpr ⟨names, hnames, rfl⟩⟩

/-- What is read under a keyword is exactly what accounts for the value. -/
theorem readValue_eq_ok_iff :
    keyword.readValue key value = .ok result ↔ keyword.AccountsFor key value result := by
  refine ⟨accountsFor_of_readValue_eq_ok, fun h => ?_⟩
  cases result with
  | none => exact BindsNothing.readValue_eq h
  | some binding => exact Keeps.readValue_eq h

/-- A value that is not null is read. -/
theorem convert_of_ne_null (h : value ≠ .null) :
    keyword.convert key (some value) = keyword.readValue key value := by
  cases value with
  | null => exact absurd rfl h
  | _ => rfl

/-- No keyword drops a value that is not null. It binds nothing exactly where there is nothing to
bind, and it binds exactly what it keeps of the value, one thing for each item, argument or entry;
anything else is refused, and so is every value of another shape than the keyword expects. -/
theorem convert_drops_nothing (keyword : Keyword) (key : String) (value : Value)
    (h : value ≠ .null) :
    (keyword.convert key (some value) = .ok none ↔ keyword.BindsNothing value) ∧
    (∀ binding, keyword.convert key (some value) = .ok (some binding) ↔
      keyword.Keeps key value binding) ∧
    (keyword.expects.accepts value.shape = false →
      ∃ fault, value.check keyword.expects key = .error fault ∧
        keyword.convert key (some value) = .error fault) := by
  rw [convert_of_ne_null h]
  refine ⟨readValue_eq_ok_iff, fun binding => readValue_eq_ok_iff, fun hshape => ?_⟩
  obtain ⟨fault, hfault⟩ := Value.exists_check_eq_error hshape
  exact ⟨fault, hfault, readValue_of_check_error hfault⟩

/-- An invocation with three arguments, of which the last has a property. -/
def callBody : Value :=
  .map [("ops.deploy", .list [.text "host", .map [("retries", .boolean true)],
    .map [("token", .map [("encrypted", .boolean true)])]])]

/-- Each of the three arguments is kept, and the invocation binds them. -/
theorem convert_drops_nothing_of_callBody :
    callBody ≠ .null ∧ ¬ invoke.BindsNothing callBody ∧
      invoke.Keeps "do" callBody (.inputs [.named "host",
        { Input.named "retries" with expression := some "true" },
        { Input.named "token" with encrypted := true }]) := by
  have hnull : callBody ≠ .null := nofun
  obtain ⟨hnone, hsome, -⟩ := convert_drops_nothing invoke "do" callBody hnull
  have hbound := (hsome _).mp rfl
  refine ⟨hnull, fun hnothing => ?_, hbound⟩
  cases hnone.mpr hnothing

end Keyword

end Taskflow
