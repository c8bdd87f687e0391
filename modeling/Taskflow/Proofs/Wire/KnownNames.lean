import Taskflow.Proofs.Json.Denotable
import Taskflow.Proofs.Wire.Rearranged
import Taskflow.Proofs.Wire.ValidLoops

/-!
# Only known names decide

What a text is read as depends on each object in it only by the members that the object is asked
for. The main statement says so of all texts that are read. The one exception is the outermost
binding, whose value may come to stand where it cannot be read.
-/

namespace Taskflow.Wire

open Json (Spot)

variable {part : Part} {arrival : Arrival} {members members' : List (String × Json)}
  {tag tree : Json}

/-- A binding that is read has one type and one value. -/
theorem exists_of_binding? {binding : Binding}
    (h : binding? arrival (.object members) = some binding) :
    ∃ tag value type, occurrences members typeTag = [tag] ∧ occurrences members valueTag = [value] ∧
      constantIndex? arrival bindingTypes tag = some type := by
  have honly : ∀ name, name = typeTag ∨ name = valueTag →
      (occurrences members name).length = 1 := by
    intro name hname
    by_contra hlength
    rw [binding?_refused hname hlength] at h
    cases h
  obtain ⟨tag, htag⟩ := List.length_eq_one_iff.mp (honly typeTag (.inl rfl))
  obtain ⟨value, hvalue⟩ := List.length_eq_one_iff.mp (honly valueTag (.inr rfl))
  rw [binding?_object _ htag hvalue] at h
  obtain ⟨type, htype, -⟩ := Option.bind_eq_some_iff.mp h
  exact ⟨tag, value, type, htag, hvalue, htype⟩

/-- A binding is refused if its type or its value is repeated. -/
theorem binding?_of_repeats (h : Repeats [typeTag, valueTag] members members') :
    binding? arrival (.object members') = none := by
  obtain ⟨name, hname, hmem, value, hperm⟩ := h
  rw [List.mem_cons, List.mem_singleton] at hname
  exact binding?_refused hname (Nat.ne_of_gt (one_lt_length_occurrences hmem hperm))

/-- The order of what was set aside does not matter to a binding. -/
theorem binding?_setAside {value : Json} (htag : occurrences members typeTag = [tag])
    (hvalue : occurrences members valueTag = [value])
    (hreadable : (Json.object members).isReadable = true) :
    binding? .setAside (.object members) =
      (constantIndex? .setAside bindingTypes tag).bind fun type =>
        bindingValue? .setAside type value := by
  have hmem : value ∈ occurrences members valueTag := hvalue ▸ List.mem_singleton_self value
  obtain ⟨member, hmember, rfl⟩ := List.mem_map.mp hmem
  have hvalue' := Json.haveReadableValues_iff.mp hreadable member (List.mem_of_mem_filter hmember)
  rw [binding?_object _ htag hvalue]
  simp only [arrive?_setAside, hvalue', if_true, ite_self]

/-- A binding that was set aside asks for its type and its value. -/
theorem asksFor_binding {binding : Binding}
    (h : arrive? .setAside (binding? .setAside) (.object members) = some binding) :
    ∃ type, Part.binding.kindOf? members = some type ∧
      AsksFor (arrive? .setAside (binding? .setAside)) members [typeTag, valueTag] := by
  rw [arrive?_setAside, Option.ite_none_right_eq_some] at h
  obtain ⟨tag, value, type, htag, hvalue, htype⟩ := exists_of_binding? h.2
  refine ⟨type, (sayOf?_eq htag).trans htype, fun members' hrearranged => ?_,
    fun members' hrepeats => ?_⟩
  · have htag' := hrearranged.occurrences_eq List.mem_cons_self htag
    have hvalue' := hrearranged.occurrences_eq (List.mem_cons_of_mem _ List.mem_cons_self) hvalue
    have hreadable := hrearranged.isReadable_eq.trans h.1
    rw [arrive?_setAside, arrive?_setAside, if_pos hreadable, if_pos h.1,
      binding?_setAside htag' hvalue' hreadable, binding?_setAside htag hvalue h.1]
  · rw [arrive?, binding?_of_repeats hrepeats, ite_self]

/-- Whether the tag of a loop says its kind by a number. -/
def IsNumbered (tree : Json) : Prop :=
  ∃ place rest, tagged? kindTag tree = some (.number place, rest)

/-- A loop that was set aside is read in its place too, unless its kind is a number. -/
theorem loop?_inPlace_of_setAside {statement : LoopStatement}
    (h : loop? .setAside tree = some statement) :
    (IsNumbered tree → loop? .inPlace tree = none) ∧
      (¬ IsNumbered tree → loop? .inPlace tree = some statement) := by
  obtain ⟨⟨tag, rest⟩, htagged, hread⟩ := Option.bind_eq_some_iff.mp h
  obtain ⟨kind, hkind, -⟩ := Option.bind_eq_some_iff.mp hread
  constructor
  · rintro ⟨place, other, hnumber⟩
    have hplace : tagIndex? .inPlace loopKinds (.number place) = none := by cases place <;> rfl
    rw [loop?, hnumber]
    simp [hplace]
  · intro hnot
    cases tag with
    | text said =>
      rw [← h, loop?, loop?, htagged]
      rfl
    | number place => exact absurd ⟨place, rest, htagged⟩ hnot
    | _ => cases hkind

/-- A loop that is read in its place is read also once it was set aside. -/
theorem loop?_setAside_of_inPlace {statement : LoopStatement}
    (h : loop? .inPlace tree = some statement) : loop? .setAside tree = some statement := by
  obtain ⟨⟨tag, rest⟩, htagged, hread⟩ := Option.bind_eq_some_iff.mp h
  obtain ⟨kind, hkind, -⟩ := Option.bind_eq_some_iff.mp hread
  rw [← h, loop?, loop?, htagged]
  simp [hkind, tagIndex?_setAside hkind]

/-- The type of bindings whose values are loops. -/
theorem eq_of_bindingContents {type : Nat} (h : Part.bindingContents[type]? = some (.one .loop)) :
    type = 5 := by
  rcases type with _ | _ | _ | _ | _ | _ | _ | _ | type <;> first | rfl | cases h

/-- How a value arrives matters only to a loop. -/
theorem bindingValue?_eq_of_ne_loop {type : Nat}
    (h : Part.bindingContents[type]? ≠ some (.one .loop)) (arrival other : Arrival) :
    bindingValue? arrival type = bindingValue? other type := by
  rcases type with _ | _ | _ | _ | _ | _ | _ | _ | type <;> first | rfl | exact absurd rfl h

/-- The value of a binding that is read in its place is read also once it was set aside. -/
theorem bindingValue?_setAside_of_inPlace {type : Nat} {value : Json} {binding : Binding}
    (h : bindingValue? .inPlace type value = some binding) :
    bindingValue? .setAside type value = some binding := by
  by_cases hloop : Part.bindingContents[type]? = some (.one .loop)
  · obtain rfl := eq_of_bindingContents hloop
    obtain ⟨statement, hstatement, rfl⟩ := Option.map_eq_some_iff.mp h
    rw [bindingValue?, loop?_setAside_of_inPlace hstatement, Option.map_some]
  · rwa [bindingValue?_eq_of_ne_loop hloop .setAside .inPlace]

/-- The value of a binding that was set aside is read in its place too, unless it is a loop whose
kind is a number. -/
theorem bindingValue?_inPlace_of_setAside {type : Nat} {value : Json} {binding : Binding}
    (h : bindingValue? .setAside type value = some binding) :
    (Part.bindingContents[type]? = some (.one .loop) ∧ IsNumbered value →
      bindingValue? .inPlace type value = none) ∧
    (¬ (Part.bindingContents[type]? = some (.one .loop) ∧ IsNumbered value) →
      bindingValue? .inPlace type value = some binding) := by
  by_cases hloop : Part.bindingContents[type]? = some (.one .loop)
  · obtain rfl := eq_of_bindingContents hloop
    obtain ⟨statement, hstatement, rfl⟩ := Option.map_eq_some_iff.mp h
    obtain ⟨hnumber, hother⟩ := loop?_inPlace_of_setAside hstatement
    refine ⟨fun hkind => ?_, fun hkind => ?_⟩
    · rw [bindingValue?, hnumber hkind.2, Option.map_none]
    · rw [bindingValue?, hother fun hnumbered => hkind ⟨rfl, hnumbered⟩, Option.map_some]
  · refine ⟨fun hkind => absurd hkind.1 hloop, fun _ => ?_⟩
    rwa [bindingValue?_eq_of_ne_loop hloop .inPlace .setAside]

/-- Of two names of which one is there, either the one or the other comes first. -/
theorem comesBefore_comm {first second : String} (hne : first ≠ second)
    (hfirst : occurrences members first ≠ []) :
    comesBefore members second first = !comesBefore members first second := by
  have hsame : (fun member : String × Json => member.1 == second || member.1 == first) =
      fun member => member.1 == first || member.1 == second :=
    funext fun _ => Bool.or_comm _ _
  unfold comesBefore
  rw [hsame]
  cases hfound : members.find? fun member => member.1 == first || member.1 == second with
  | none =>
    refine absurd ?_ hfirst
    rw [List.find?_eq_none] at hfound
    refine occurrences_eq_nil fun hmem => ?_
    obtain ⟨member, hmember, rfl⟩ := List.mem_map.mp hmem
    exact hfound member hmember (by simp)
  | some member =>
    have hmember := List.find?_some hfound
    rcases Bool.or_eq_true_iff.mp hmember with hname | hname
    · simp [beq_iff_eq.mp hname, hne]
    · simp [beq_iff_eq.mp hname, hne.symm]

/-- The value of the outermost binding comes to stand where it cannot be read: in front of the
type, where it is set aside, although part of it is unreadable, or behind the type, where it is no
longer set aside, although it is a loop whose kind is a number. -/
def IsMisplaced (type : Nat) (members members' : List (String × Json)) : Prop :=
  ∃ value ∈ occurrences members valueTag,
    (comesBefore members typeTag valueTag ∧ comesBefore members' valueTag typeTag ∧
      value.isReadable = false) ∨
    (comesBefore members valueTag typeTag ∧ comesBefore members' typeTag valueTag ∧
      Part.bindingContents[type]? = some (.one .loop) ∧ IsNumbered value)

/-- The outermost binding is read as before unless its value is misplaced, and refused else. -/
theorem binding?_of_rearranged {binding : Binding}
    (h : binding? .inPlace (.object members) = some binding) :
    ∃ type, Part.binding.kindOf? members = some type ∧
      ∀ members', Rearranged [typeTag, valueTag] members members' →
        (IsMisplaced type members members' → binding? .inPlace (.object members') = none) ∧
        (¬ IsMisplaced type members members' →
          binding? .inPlace (.object members') = some binding) := by
  obtain ⟨tag, value, type, htag, hvalue, htype⟩ := exists_of_binding? h
  have hkind := (sayOf?_eq htag).trans (constantIndex?_setAside htype)
  refine ⟨type, hkind, fun members' hrearranged => ?_⟩
  have htag' := hrearranged.occurrences_eq List.mem_cons_self htag
  have hvalue' := hrearranged.occurrences_eq (List.mem_cons_of_mem _ List.mem_cons_self) hvalue
  have hfirst : comesBefore members typeTag valueTag = !comesBefore members valueTag typeTag :=
    comesBefore_comm (by decide) (by simp [hvalue])
  have hfirst' : comesBefore members' typeTag valueTag = !comesBefore members' valueTag typeTag :=
    comesBefore_comm (by decide) (by simp [hvalue'])
  rw [binding?_object _ htag hvalue, htype, Option.bind_some] at h
  rw [binding?_object _ htag' hvalue', htype, Option.bind_some]
  simp only [IsMisplaced, hvalue, List.mem_singleton, exists_eq_left, hfirst, hfirst']
  -- Only if the value comes to stand on the other side of the type is there something to show.
  cases hbefore : comesBefore members valueTag typeTag <;>
    cases hbefore' : comesBefore members' valueTag typeTag <;>
    simp only [hbefore, Bool.false_eq_true, if_false, if_true] at h
  · simpa using h
  · have hread := bindingValue?_setAside_of_inPlace h
    cases hreadable : value.isReadable <;> simp [arrive?_setAside, hreadable, hread]
  · rw [arrive?_setAside, Option.ite_none_right_eq_some] at h
    simpa using bindingValue?_inPlace_of_setAside h.2
  · simpa using h

/-- What is simple may stand anywhere. -/
theorem denotable_of_isSimple (h : isSimple tree) (depth : Nat) : Json.Denotable depth tree := by
  cases tree with
  | null => exact .null
  | boolean => exact .boolean
  | text => exact .text
  | _ => cases h

/-- A record inside of another asks for the names of its kind. -/
theorem exists_asksFor (harrival : part.mayHoldBindings → arrival = .setAside) {value : part.Value}
    (h : arrive? arrival (part.read? arrival) (.object members) = some value) :
    ∃ kind, part.kindOf? members = some kind ∧
      AsksFor (arrive? arrival (part.read? arrival)) members (part.knownNames kind) := by
  by_cases hpart : part = .binding
  · subst hpart
    obtain rfl := harrival rfl
    exact asksFor_binding h
  · rw [arrive?, Option.ite_none_left_eq_some] at h
    obtain ⟨kind, hkind, hasks⟩ := asksFor_read? hpart h.2
    exact ⟨kind, hkind, hasks.arrive arrival⟩

/-- An object that is written in another way may stand where it stood. -/
theorem Rearranged.denotable {names : List String} {depth : Nat}
    (h : Rearranged names members members') (hobject : Json.Denotable depth (.object members)) :
    Json.Denotable depth (.object members') := by
  obtain ⟨added, hadded, hperm⟩ := h
  cases hobject with
  | object hdepth hmembers =>
    refine .object hdepth fun member hmember => ?_
    rcases List.mem_append.mp (hperm.mem_iff.mp hmember) with hold | hnew
    · exact hmembers member hold
    · exact denotable_of_isSimple (hadded member hnew).2 _

/-- There is a text in which the object is written in the other way. -/
theorem Rearranged.exists_text {names : List String} {spot : Spot} {text : String}
    (h : Rearranged names members members')
    (htext : Json.ofText? text = some (spot.fill (.object members))) :
    ∃ text', Json.ofText? text' = some (spot.fill (.object members')) := by
  have hdenotable := Json.exists_ofText?_iff.mp ⟨text, htext⟩
  exact Json.exists_ofText?_iff.mpr (hdenotable.fill fun _ => h.denotable)

/-- For any text that is read and any record in it, the record may be written in another order and
with simple members of other names: there is a text like that, and each such text is read as the
same value. A text in which a name of the record is repeated is refused. Only the value of the
outermost binding may be misplaced, and then the text is refused too. -/
theorem known_names_decide (root part : Part) (text : String) (value : root.Value) (spot : Spot)
    (members : List (String × Json)) (hroot : root ∈ Part.roots)
    (hread : readText? (root.read? .inPlace) text = some value)
    (htext : Json.ofText? text = some (spot.fill (.object members)))
    (hpart : (Content.one root).partAt? spot = some part) :
    ∃ kind, part.kindOf? members = some kind ∧
      (∀ members', Rearranged (part.knownNames kind) members members' →
        (∃ text', Json.ofText? text' = some (spot.fill (.object members'))) ∧
        ∀ text', Json.ofText? text' = some (spot.fill (.object members')) →
          (spot = .here ∧ part = .binding ∧ IsMisplaced kind members members' →
            readText? (root.read? .inPlace) text' = none) ∧
          (¬ (spot = .here ∧ part = .binding ∧ IsMisplaced kind members members') →
            readText? (root.read? .inPlace) text' = some value)) ∧
      ∀ members', Repeats (part.knownNames kind) members members' →
        ∀ text', Json.ofText? text' = some (spot.fill (.object members')) →
          readText? (root.read? .inPlace) text' = none := by
  have hof : ∀ text tree, Json.ofText? text = some tree →
      readText? (root.read? .inPlace) text = root.read? .inPlace tree := by
    intro text tree htree
    rw [readText?, htree, Option.bind_some]
  rw [hof _ _ htext] at hread
  by_cases hout : spot = .here ∧ part = .binding
  · obtain ⟨rfl, rfl⟩ := hout
    obtain rfl : root = .binding := Option.some.inj hpart
    obtain ⟨kind, hkind, hsame⟩ := binding?_of_rearranged hread
    refine ⟨kind, hkind, fun members' hrearranged => ⟨hrearranged.exists_text htext, ?_⟩, ?_⟩
    · intro text' htext'
      obtain ⟨hmisplaced, hplaced⟩ := hsame members' hrearranged
      rw [hof _ _ htext']
      exact ⟨fun h => hmisplaced h.2.2, fun h => hplaced fun hnot => h ⟨rfl, rfl, hnot⟩⟩
    · intro members' hrepeats text' htext'
      rw [hof _ _ htext']
      exact binding?_of_repeats hrepeats
  · obtain ⟨inner, hinner, hthrough⟩ := exists_readsThrough_of_root hroot hpart hout
    cases hrecord : arrive? inner (part.read? inner) (.object members) with
    | none =>
      rw [hthrough.strict _ hrecord] at hread
      cases hread
    | some record =>
      obtain ⟨kind, hkind, hasks⟩ := exists_asksFor hinner hrecord
      refine ⟨kind, hkind, fun members' hrearranged => ⟨hrearranged.exists_text htext, ?_⟩, ?_⟩
      · intro text' htext'
        refine ⟨fun h => absurd ⟨h.1, h.2.1⟩ hout, fun _ => ?_⟩
        rw [hof _ _ htext', hthrough.congr _ _ (hasks.rearranged members' hrearranged), hread]
      · intro members' hrepeats text' htext'
        rw [hof _ _ htext', hthrough.strict _ (hasks.repeated members' hrepeats)]

/-- A binding whose value, the given loop, stands in front of its type. -/
def bindingAround (loop : String) : String := "\x7b\"value\":" ++ loop ++ ",\"type\":\"loop\"\x7d"

/-- Where the loop stands. -/
def loopSpot : Spot := .member [] "value" .here [("type", .text "loop")]

/-- The loop, its kind behind the fields. -/
def kindBehind : String :=
  "\x7b\"var_name\":\"x\",\"expression\":\" xs\",\"parallel\":true,\"kind\":\"list\"\x7d"

/-- The members of the loop. -/
def kindBehindMembers : List (String × Json) :=
  [("var_name", .text "x"), ("expression", .text " xs"), ("parallel", .boolean true),
    ("kind", .text "list")]

/-- The kind in front of the fields, and members that say nothing. -/
def kindInFront : String :=
  "\x7b\"kind\":\"list\",\"type\":\"names\",\"type\":null,\"var_name\":\"x\","
    ++ "\"expression\":\" xs\",\"parallel\":true\x7d"

/-- The members in front of which the kind stands. -/
def kindInFrontMembers : List (String × Json) :=
  [("kind", .text "list"), ("type", .text "names"), ("type", .null), ("var_name", .text "x"),
    ("expression", .text " xs"), ("parallel", .boolean true)]

/-- The loop with a second name of its variable. -/
def twoNames : String :=
  "\x7b\"var_name\":\"y\",\"var_name\":\"x\",\"expression\":\" xs\","
    ++ "\"parallel\":true,\"kind\":\"list\"\x7d"

set_option maxRecDepth 4000 in
/-- The kind of a loop inside of a binding may stand in front of its fields or behind them. A second
name of its variable has the binding refused. -/
theorem known_names_decide_of_loopSpot :
    readText? (binding? .inPlace) (bindingAround kindBehind) =
        some (.loop (.list "x" " xs" true)) ∧
      readText? (binding? .inPlace) (bindingAround kindInFront) =
        some (.loop (.list "x" " xs" true)) ∧
      readText? (binding? .inPlace) (bindingAround twoNames) = none := by
  have hread : readText? (binding? .inPlace) (bindingAround kindBehind) =
      some (.loop (.list "x" " xs" true)) := by
    decide +kernel
  obtain ⟨kind, hkind, hrearranged, hrepeated⟩ := known_names_decide .binding .loop
    (bindingAround kindBehind) (.loop (.list "x" " xs" true)) loopSpot kindBehindMembers (by decide)
    hread (by rfl) rfl
  obtain rfl : 0 = kind := Option.some.inj hkind
  refine ⟨hread, ?_, ?_⟩
  · refine ((hrearranged kindInFrontMembers ?_).2 (bindingAround kindInFront) (by rfl)).2 nofun
    refine ⟨[("type", .text "names"), ("type", .null)], by decide, ?_⟩
    exact (List.perm_append_comm : ([_, _, _] ++ [_, _, _] : List (String × Json)).Perm _)
  · refine hrepeated (("var_name", .text "y") :: kindBehindMembers) ?_ (bindingAround twoNames)
      (by rfl)
    exact ⟨"var_name", by decide, by decide, .text "y", .refl _⟩

/-- A binding with a result that has a further member, a number beyond the finite values. -/
def typeInFront : String :=
  "\x7b\"type\":\"results\",\"value\":[\x7b\"name\":\"a\",\"z\":1e400\x7d]\x7d"

/-- The binding with its type behind its value, so that all of the value is set aside. -/
def typeBehind : String :=
  "\x7b\"value\":[\x7b\"name\":\"a\",\"z\":1e400\x7d],\"type\":\"results\"\x7d"

/-- The members of the binding. -/
def typeInFrontMembers : List (String × Json) :=
  [("type", .text "results"), ("value", .array [.object [("name", .text "a"), ("z", .unreadable)]])]

/-- Settings whose policy is a constant that is spelled as an object. -/
def constantPolicy : String := "\x7b\"reference_policy\":\x7b\"strict\":null\x7d\x7d"

/-- The settings with a further member in the constant. -/
def constantPolicyAndNote : String :=
  "\x7b\"reference_policy\":\x7b\"strict\":null,\"note\":true\x7d\x7d"

/-- The order of the members of the outermost binding may matter, and an object that stands for a
constant is no record: another member in it has the text refused. -/
theorem texts_refused_of_typeBehind :
    (¬ ∀ text text' members members' binding, Json.ofText? text = some (.object members) →
      Json.ofText? text' = some (.object members') → members'.Perm members →
        readText? (binding? .inPlace) text = some binding →
          readText? (binding? .inPlace) text' = some binding) ∧
    readText? settings? constantPolicy = some ⟨.strict, [], []⟩ ∧
    readText? settings? constantPolicyAndNote = none := by
  refine ⟨fun h => ?_, by decide +kernel, by decide +kernel⟩
  have hread : readText? (binding? .inPlace) typeInFront = some (.results [⟨"a", none⟩]) := by
    decide +kernel
  have hrefused : readText? (binding? .inPlace) typeBehind = none := by
    decide +kernel
  have hsame := h typeInFront typeBehind typeInFrontMembers typeInFrontMembers.reverse _ (by rfl)
    (by rfl) (List.reverse_perm _) hread
  rw [hrefused] at hsame
  cases hsame

end Taskflow.Wire
