import Taskflow.Proofs.Wire.Through

/-!
# Reading goes through every record

Records stand in one another in many ways. The main statement says that, whatever record stands at
a spot of a text, what the text is read as depends on it only by what it is read as, and the text
is refused if the record is.
-/

namespace Taskflow.Wire

open Json (Spot)

variable {α β : Type} {front back : List (String × Json)} {name : String} {content : Content}
  {names : List (String × Content)} {read? : Json → Option α}

section

variable {P : List α → Prop} {n : Nat}

/-- The only list without items is the empty one. -/
theorem forall_length_zero_iff : (∀ items : List α, items.length = 0 → P items) ↔ P [] := by
  constructor
  · exact fun h => h [] rfl
  · rintro h items hitems
    rwa [List.length_eq_zero_iff.mp hitems]

/-- A list with one more item has a first one. -/
theorem forall_length_succ_iff :
    (∀ items : List α, items.length = n + 1 → P items) ↔
      ∀ item, ∀ rest : List α, rest.length = n → P (item :: rest) := by
  constructor
  · exact fun h item rest hrest => h (item :: rest) (congrArg Nat.succ hrest)
  · rintro h (_ | ⟨item, rest⟩) hitems
    · cases hitems
    · exact h item rest (Nat.succ.inj hitems)

end

/-- A record is read from its fields, of which those that hold records are used by reading these. -/
def ReadsFields (read? : Json → Option α) (names : List (String × Content)) : Prop :=
  ∃ make : List (Option Json) → Option α,
    (∀ tree, read? tree = (fields? (names.map Prod.fst) tree).bind make) ∧
    ∀ place name content, names[place]? = some (name, content) → content ≠ .plain →
      UsesField make place (names.length - (place + 1)) (content.read? .setAside)

/-- An item at a place divides a list. -/
theorem exists_sides_of_getElem? {items : List α} {item : α} {place : Nat}
    (h : items[place]? = some item) :
    ∃ before after, items = before ++ item :: after ∧ before.length = place ∧
      after.length = items.length - (place + 1) := by
  obtain ⟨hlt, rfl⟩ := List.getElem?_eq_some_iff.mp h
  refine ⟨items.take place, items.drop (place + 1), ?_, ?_, List.length_drop⟩
  · rw [← List.drop_eq_getElem_cons hlt, List.take_append_drop]
  · rw [List.length_take, Nat.min_eq_left (Nat.le_of_lt hlt)]

namespace ReadsFields

/-- Reading goes through a field, wherever its record has it. -/
theorem readsThrough (h : ReadsFields read? names) {place : Nat} {spot : Spot}
    (hplace : names[place]? = some (name, content)) (hcontent : content ≠ .plain)
    (hfield : ∀ before after, names = before ++ (name, content) :: after → before.length = place →
      IsField (before.map Prod.fst ++ name :: after.map Prod.fst) spot
        (before.map Prod.fst).length (after.map Prod.fst).length) :
    ReadsThrough read? (content.read? .setAside) spot.fill := by
  obtain ⟨make, hread, huses⟩ := h
  obtain ⟨before, after, hnames, hbefore, hafter⟩ := exists_sides_of_getElem? hplace
  have hspot := hfield before after hnames hbefore
  rw [List.length_map, List.length_map, hbefore, hafter, ← List.map_cons (f := Prod.fst)
    (a := (name, content)), ← List.map_append, ← hnames] at hspot
  exact (huses place name content hplace hcontent).readsThrough hread hspot

/-- Reading an object goes through its fields. -/
theorem member (h : ReadsFields read? names) (hdistinct : (names.map Prod.fst).Nodup)
    (hname : names.lookup name = some content) (hcontent : content ≠ .plain)
    (front back : List (String × Json)) :
    ReadsThrough read? (content.read? .setAside) (Spot.member front name .here back).fill := by
  obtain ⟨before, after, hnames, -⟩ := List.lookup_eq_some_iff.mp hname
  have hplace : names[before.length]? = some (name, content) := by simp [hnames]
  refine h.readsThrough hplace hcontent fun before after hnames _ => isField_member ?_ front back
  rw [hnames, List.map_append, List.map_cons] at hdistinct
  exact hdistinct

/-- Reading an array goes through its fields. -/
theorem item (h : ReadsFields read? names) {front : List Json}
    (hplace : names[front.length]? = some (name, content)) (hcontent : content ≠ .plain)
    (back : List Json) :
    ReadsThrough read? (content.read? .setAside) (Spot.item front .here back).fill := by
  refine h.readsThrough hplace hcontent fun before after _ hlength => isField_item ?_ back
  rw [List.length_map, hlength]

/-- What a record is turned into afterwards does not matter. -/
theorem map (h : ReadsFields read? names) (f : α → β) :
    ReadsFields (fun tree => (read? tree).map f) names := by
  obtain ⟨make, hread, huses⟩ := h
  refine ⟨fun fields => (make fields).map f, fun tree => ?_, fun place name content hp hc => ?_⟩
  · simp only [hread, Option.map_bind]
    rfl
  · have hfield := huses place name content hp hc
    constructor
    · intro left hleft right hright tree tree' heq
      exact congrArg (Option.map f) (hfield.congr left hleft right hright tree tree' heq)
    · intro left hleft right hright tree hnone
      exact congrArg (Option.map f) (hfield.strict left hleft right hright tree hnone)

end ReadsFields

/-- Where no records stand under the names, a record may use its fields as it likes. -/
theorem readsFields_plainNames {fieldNames : List String} {make : List (Option Json) → Option α}
    (hread : ∀ tree, read? tree = (fields? fieldNames tree).bind make) :
    ReadsFields read? (Part.plainNames fieldNames) := by
  have hnames : (Part.plainNames fieldNames).map Prod.fst = fieldNames := by
    rw [Part.plainNames, List.map_map]
    exact List.map_id fieldNames
  refine ⟨make, by rwa [hnames], fun place name content hplace hcontent => ?_⟩
  obtain ⟨_, _, heq⟩ := List.mem_map.mp (List.mem_of_getElem? hplace)
  exact absurd (Prod.mk.inj heq).2.symm hcontent

/-- A record without a tag is read from its fields. -/
theorem readsFields_of_mem_records {part : Part} (h : part ∈ Part.records) (arrival : Arrival) :
    ReadsFields (part.read? arrival) (part.names 0) := by
  cases part with
  | input | output | result | javaAction => exact readsFields_plainNames fun _ => rfl
  | settings | loop | binding | executable => exact absurd h (by decide)
  | signature | task | action | workflow =>
    refine ⟨_, fun _ => rfl, ?_⟩
    intro place name content hplace hcontent
    -- The fields are looked at one after another, with the others as they may be.
    rcases place with _ | _ | _ | _ | _ | _ | _ | place <;> cases hplace <;>
      first
      | exact absurd rfl hcontent
      | simp only [Part.names, Content.read?, Part.read?, List.length_cons, List.length_nil]
        constructor <;> simp only [forall_length_succ_iff, forall_length_zero_iff, Nat.reduceAdd,
          Nat.reduceSub] <;> intros <;> simp [bindings?, *]

/-- Behind its tag, an executable is read from its fields. -/
theorem readsFields_signatureAnd? (name : String) (part : Part) :
    ReadsFields (signatureAnd? name (part.read? .setAside))
      [("signature", .one .signature), (name, .one part)] := by
  refine ⟨_, fun _ => rfl, ?_⟩
  intro place name content hplace hcontent
  rcases place with _ | _ | place <;> cases hplace
  all_goals
    simp only [Content.read?, Part.read?, List.length_cons, List.length_nil]
    constructor <;> simp only [forall_length_succ_iff, forall_length_zero_iff, Nat.reduceAdd,
      Nat.reduceSub] <;> intros <;> simp [*]

/-- Without its tag, an executable of the given kind is read from this. -/
def behindTag? (kind : Nat) (rest : Json) : Option Executable :=
  match kind with
  | 0 => (signatureAnd? "action" action? rest).map fun both => .operation both.1 both.2
  | _ => (signatureAnd? "workflow" workflow? rest).map fun both => .flow both.1 both.2

/-- An executable is read from what stands behind its tag. -/
theorem executable?_of_tagged? {tree tag rest : Json} {kind : Nat}
    (htag : tagged? kindTag tree = if rest.isReadable then some (tag, rest) else none)
    (hkind : tagIndex? .inPlace executableKinds tag = some kind) :
    executable? tree = arrive? .setAside (behindTag? kind) rest := by
  rw [executable?, htag, arrive?_setAside]
  cases rest.isReadable with
  | false => rfl
  | true =>
    simp only [if_true, Option.bind_eq_bind, Option.bind_some, hkind]
    cases kind with
    | zero =>
      cases hboth : signatureAnd? "action" action? rest <;> simp [behindTag?, hboth]
    | succ kind =>
      cases hboth : signatureAnd? "workflow" workflow? rest <;> simp [behindTag?, hboth]

/-- Behind its tag, an executable is read from its fields. -/
theorem readsFields_behindTag? (kind : Nat) :
    ReadsFields (behindTag? kind) (Part.executable.names kind).tail := by
  cases kind with
  | zero =>
    exact (readsFields_signatureAnd? "action" .action).map
      fun both => Executable.operation both.1 both.2
  | succ kind =>
    exact (readsFields_signatureAnd? "workflow" .workflow).map
      fun both => Executable.flow both.1 both.2

/-- The tag of an object is found whatever another member holds. -/
theorem tagged?_member {front back : List (String × Json)} {tagName : String} {tag : Json}
    (htag : occurrences (front ++ back) tagName = [tag]) (hne : name ≠ tagName) (tree : Json) :
    tagged? tagName ((Spot.member front name .here back).fill tree) =
      if ((Spot.member (front.filter (·.1 != tagName)) name .here
          (back.filter (·.1 != tagName))).fill tree).isReadable then
        some (tag, (Spot.member (front.filter (·.1 != tagName)) name .here
          (back.filter (·.1 != tagName))).fill tree)
      else none := by
  have hrest : (front ++ (name, tree) :: back).filter (·.1 != tagName) =
      front.filter (·.1 != tagName) ++ (name, tree) :: back.filter (·.1 != tagName) := by
    simp [hne]
  have htag' : occurrences (front ++ (name, tree) :: back) tagName = [tag] :=
    (occurrences_append_of_ne hne _ _).trans htag
  have htagged := tagged?_object htag'
  rw [hrest] at htagged
  exact htagged

/-- The tag of an array is found whatever a later item is. -/
theorem tagged?_item (tagName : String) (tag : Json) (front back : List Json) (tree : Json) :
    tagged? tagName ((Spot.item (tag :: front) .here back).fill tree) =
      if ((Spot.item front .here back).fill tree).isReadable then
        some (tag, (Spot.item front .here back).fill tree)
      else none := rfl

/-- What a tag says is said by the only member of its name. -/
theorem exists_of_sayOf? {members : List (String × Json)} {place? : Json → Option Nat} {kind : Nat}
    (h : Part.sayOf? members name place? = some kind) :
    ∃ tag, occurrences members name = [tag] ∧ place? tag = some kind := by
  unfold Part.sayOf? at h
  split at h
  · next tag htag => exact ⟨tag, htag, h⟩
  · cases h

/-- The names of an executable begin with its tag. -/
theorem names_executable (kind : Nat) :
    Part.executable.names kind = (kindTag, .plain) :: (Part.executable.names kind).tail := by
  cases kind <;> rfl

/-- Reading an executable goes through each member of it that holds records. -/
theorem readsThrough_executable_member {kind : Nat} {front back : List (String × Json)}
    (hkind : Part.executable.kindOf? (front ++ back) = some kind)
    (hname : (Part.executable.names kind).lookup name = some content)
    (hcontent : content ≠ .plain) :
    ReadsThrough executable? (arrive? .setAside (content.read? .setAside))
      (Spot.member front name .here back).fill := by
  obtain ⟨tag, htag, hplace⟩ := exists_of_sayOf? hkind
  rw [names_executable, List.lookup_cons] at hname
  by_cases hne : name = kindTag
  · simp only [hne, beq_self_eq_true, Option.some.injEq] at hname
    exact absurd hname.symm hcontent
  · have hdistinct : ((Part.executable.names kind).tail.map Prod.fst).Nodup := by
      cases kind with
      | zero => decide
      | succ kind => exact (by decide : ["signature", "workflow"].Nodup)
    simp only [beq_eq_false_iff_ne.mpr hne] at hname
    have hfields := (readsFields_behindTag? kind).member hdistinct hname hcontent
      (front.filter (·.1 != kindTag)) (back.filter (·.1 != kindTag))
    exact (hfields.arrive .setAside).of_eq fun tree =>
      executable?_of_tagged? (tagged?_member htag hne tree) hplace

/-- Reading an executable goes through each item of it that holds records. -/
theorem readsThrough_executable_item {kind : Nat} {front : List Json}
    (hkind : Part.executable.arrayKindOf? front = some kind)
    (hplace : (Part.executable.names kind)[front.length]? = some (name, content))
    (hcontent : content ≠ .plain) (back : List Json) :
    ReadsThrough executable? (arrive? .setAside (content.read? .setAside))
      (Spot.item front .here back).fill := by
  cases front with
  | nil => cases hkind
  | cons tag front =>
    rw [names_executable, List.length_cons, List.getElem?_cons_succ] at hplace
    have hfields := (readsFields_behindTag? kind).item hplace hcontent back
    exact (hfields.arrive .setAside).of_eq fun tree =>
      executable?_of_tagged? (tagged?_item kindTag tag front back tree) hkind

/-- A tag has its place also once it was set aside. -/
theorem tagIndex?_setAside {arrival : Arrival} {places : List String} {tag : Json} {place : Nat}
    (h : tagIndex? arrival places tag = some place) :
    tagIndex? .setAside places tag = some place := by
  cases tag with
  | text said => exact h
  | number said =>
    cases said with
    | int said =>
      rw [tagIndex?, Option.ite_none_right_eq_some] at h
      rw [tagIndex?, if_pos ⟨rfl, h.1.2⟩, h.2]
    | real => cases h
  | _ => cases h

/-- A constant has its place also once it was set aside. -/
theorem constantIndex?_setAside {arrival : Arrival} {places : List String} {tag : Json}
    {place : Nat} (h : constantIndex? arrival places tag = some place) :
    constantIndex? .setAside places tag = some place := by
  unfold constantIndex? at h
  split at h
  · exact h
  · exact h
  · exact (Option.ite_none_right_eq_some.mp h).2
  · cases h

/-- A binding is read from its only type and its only value. A value in front of the type is set
aside. -/
theorem binding?_object (arrival : Arrival) {members : List (String × Json)} {tag value : Json}
    (htag : occurrences members typeTag = [tag]) (hvalue : occurrences members valueTag = [value]) :
    binding? arrival (.object members) =
      (constantIndex? arrival bindingTypes tag).bind fun type =>
        if comesBefore members valueTag typeTag then
          arrive? .setAside (bindingValue? .setAside type) value
        else bindingValue? arrival type value := by
  cases htype : constantIndex? arrival bindingTypes tag with
  | none => simp [binding?, typeAndValue?, htag, hvalue, htype]
  | some type =>
    cases hfirst : comesBefore members valueTag typeTag with
    | false => simp [binding?, typeAndValue?, htag, hvalue, htype, hfirst]
    | true =>
      cases hreadable : value.isReadable <;>
        simp [binding?, typeAndValue?, htag, hvalue, htype, hfirst, hreadable, arrive?_setAside]

/-- A binding has one type and one value. -/
theorem binding?_refused {arrival : Arrival} {members : List (String × Json)} {name : String}
    (hname : name = typeTag ∨ name = valueTag) (h : (occurrences members name).length ≠ 1) :
    binding? arrival (.object members) = none := by
  have hnone : typeAndValue? arrival (.object members) = none := by
    unfold typeAndValue?
    dsimp only
    split
    · next htag hvalue =>
      rcases hname with rfl | rfl
      · exact absurd (congrArg List.length htag) h
      · exact absurd (congrArg List.length hvalue) h
    · rfl
  rw [binding?, hnone]
  rfl

/-- Which name comes first is not a matter of what stands under the names. -/
theorem comesBefore_congr {members members' : List (String × Json)}
    (h : members.map Prod.fst = members'.map Prod.fst) (first second : String) :
    comesBefore members first second = comesBefore members' first second := by
  have hnames : ∀ members : List (String × Json), comesBefore members first second =
      ((members.map Prod.fst).find? fun name => name == first || name == second).any (· == first) :=
    fun members => by
      rw [List.find?_map, Option.any_map]
      rfl
  rw [hnames, hnames, h]

/-- Reading an object as a binding goes through its value. -/
theorem readsThrough_binding_member {type : Nat} (arrival : Arrival)
    (hkind : Part.binding.kindOf? (front ++ back) = some type) :
    ReadsThrough (binding? arrival)
      (if comesBefore (front ++ (valueTag, .null) :: back) valueTag typeTag then
        arrive? .setAside (bindingValue? .setAside type)
      else bindingValue? arrival type)
      (Spot.member front valueTag .here back).fill := by
  obtain ⟨tag, htag, hplace⟩ := exists_of_sayOf? hkind
  have htag' : ∀ value, occurrences (front ++ (valueTag, value) :: back) typeTag = [tag] :=
    fun value => (occurrences_append_of_ne (by decide) value back).trans htag
  by_cases honly : occurrences (front ++ back) valueTag = []
  · have hvalue : ∀ value, occurrences (front ++ (valueTag, value) :: back) valueTag = [value] := by
      intro value
      rw [occurrences_append, List.append_eq_nil_iff] at honly
      rw [occurrences_append, occurrences_cons_self, honly.1, honly.2, List.nil_append]
    have hread := fun value => binding?_object arrival (htag' value) (hvalue value)
    cases htype : constantIndex? arrival bindingTypes tag with
    | none =>
      refine .of_refused _ fun value => (hread value).trans ?_
      rw [htype, Option.bind_none]
    | some said =>
      have hsame := (constantIndex?_setAside htype).symm.trans hplace
      obtain rfl : said = type := Option.some.inj hsame
      refine (ReadsThrough.refl _).of_eq fun value => (hread value).trans ?_
      have hnames : (front ++ (valueTag, value) :: back).map Prod.fst =
          (front ++ (valueTag, .null) :: back).map Prod.fst := by simp
      rw [htype, Option.bind_some, comesBefore_congr hnames]
      split <;> rfl
  · refine .of_refused _ fun value => ?_
    refine binding?_refused (.inr rfl) fun hlength => honly ?_
    rw [occurrences_append, occurrences_cons_self, List.length_append, List.length_cons] at hlength
    rw [occurrences_append, List.append_eq_nil_iff, ← List.length_eq_zero_iff,
      ← List.length_eq_zero_iff]
    omega

/-- Reading an array as a binding goes through its value. -/
theorem readsThrough_binding_item {type : Nat} {front : List Json} (arrival : Arrival)
    (hkind : Part.binding.arrayKindOf? front = some type) (hlength : front.length = 1)
    (back : List Json) :
    ReadsThrough (binding? arrival) (bindingValue? arrival type)
      (Spot.item front .here back).fill := by
  obtain ⟨tag, rfl⟩ := List.length_eq_one_iff.mp hlength
  cases back with
  | cons => exact .of_refused _ fun _ => rfl
  | nil =>
    have hread : ∀ value, binding? arrival ((Spot.item [tag] .here []).fill value) =
        (tagIndex? arrival bindingTypes tag).bind fun type => bindingValue? arrival type value := by
      intro value
      cases htype : tagIndex? arrival bindingTypes tag <;>
        simp [binding?, Spot.fill, typeAndValue?, htype]
    cases htype : tagIndex? arrival bindingTypes tag with
    | none =>
      refine .of_refused _ fun value => (hread value).trans ?_
      rw [htype, Option.bind_none]
    | some said =>
      have hsame := (tagIndex?_setAside htype).symm.trans hkind
      obtain rfl : said = type := Option.some.inj hsame
      refine (ReadsThrough.refl _).of_eq fun value => (hread value).trans ?_
      rw [htype, Option.bind_some, id_eq]

/-- Reading the value of a binding is reading the records it holds. -/
theorem readsThrough_bindingValue? {type : Nat}
    (hvalue : Part.bindingContents.getD type .plain = content) (hcontent : content ≠ .plain)
    (arrival : Arrival) :
    ReadsThrough (bindingValue? arrival type) (content.read? arrival) Spot.here.fill := by
  subst hvalue
  rcases type with _ | _ | _ | _ | _ | _ | _ | _ | type
  case zero | succ.zero | succ.succ.zero | succ.succ.succ.zero |
      succ.succ.succ.succ.succ.zero => exact .turned _ _
  all_goals exact absurd rfl hcontent

/-- What stands under names without records is none. -/
theorem eq_plain_of_lookup {fieldNames : List String}
    (h : (Part.plainNames fieldNames).lookup name = some content) : content = .plain := by
  obtain ⟨before, after, hnames, -⟩ := List.lookup_eq_some_iff.mp h
  have hmem : (name, content) ∈ Part.plainNames fieldNames := by simp [hnames]
  obtain ⟨_, _, heq⟩ := List.mem_map.mp hmem
  exact (Prod.mk.inj heq).2.symm

/-- What stands at the places of names without records is none. -/
theorem eq_plain_of_getElem? {fieldNames : List String} {place : Nat}
    (h : (Part.plainNames fieldNames)[place]? = some (name, content)) : content = .plain := by
  obtain ⟨_, _, heq⟩ := List.mem_map.mp (List.mem_of_getElem? h)
  exact (Prod.mk.inj heq).2.symm

/-- Only bindings and what holds some must have been set aside. -/
def Content.ArrivesBy (arrival : Arrival) (content : Content) : Prop :=
  ∀ part ∈ content.part?, part.mayHoldBindings → arrival = .setAside

/-- The values of bindings hold no bindings, so they may arrive in any way. -/
theorem arrivesBy_of_bindingContents {type : Nat}
    (h : Part.bindingContents.getD type .plain = content) (arrival : Arrival) :
    content.ArrivesBy arrival := by
  have hnone : ∀ content ∈ Part.bindingContents, ∀ part ∈ content.part?,
      ¬ part.mayHoldBindings := by
    decide
  intro part hpart hholds
  subst h
  rw [List.getD_eq_getElem?_getD] at hpart
  cases hcontent : Part.bindingContents[type]? with
  | none =>
    rw [hcontent] at hpart
    cases hpart
  | some content =>
    rw [hcontent] at hpart
    exact absurd hholds (hnone content (List.mem_of_getElem? hcontent) part hpart)

variable {part : Part} {kind : Nat} {arrival : Arrival}

/-- Records stand only under the second name of a binding. -/
theorem names_binding_of_lookup (hname : (Part.binding.names kind).lookup name = some content)
    (hcontent : content ≠ .plain) :
    name = valueTag ∧ Part.bindingContents.getD kind .plain = content := by
  obtain ⟨before, after, hnames, -⟩ := List.lookup_eq_some_iff.mp hname
  have hmem : (name, content) ∈ Part.binding.names kind := by simp [hnames]
  rcases List.mem_cons.mp hmem with heq | hmem
  · exact absurd (Prod.mk.inj heq).2 hcontent
  · obtain ⟨hvalue, hcontents⟩ := Prod.mk.inj (List.mem_singleton.mp hmem)
    exact ⟨hvalue, hcontents.symm⟩

/-- Records stand only at the second place of a binding. -/
theorem names_binding_of_getElem? {place : Nat}
    (hplace : (Part.binding.names kind)[place]? = some (name, content))
    (hcontent : content ≠ .plain) :
    place = 1 ∧ Part.bindingContents.getD kind .plain = content := by
  rcases place with _ | _ | place
  · exact absurd (Prod.mk.inj (Option.some.inj hplace)).2.symm hcontent
  · exact ⟨rfl, (Prod.mk.inj (Option.some.inj hplace)).2⟩
  · cases hplace

/-- Reading an object goes through the records under its names. -/
theorem exists_readsThrough_member
    (harrival : part ∉ Part.roots → part.mayHoldBindings → arrival = .setAside)
    (hkind : part.kindOf? (front ++ back) = some kind)
    (hname : (part.names kind).lookup name = some content) (hcontent : content ≠ .plain) :
    ∃ inner, content.ArrivesBy inner ∧
      ReadsThrough (arrive? arrival (part.read? arrival)) (arrive? inner (content.read? inner))
        (Spot.member front name .here back).fill := by
  cases part with
  | settings | input | output | result | javaAction =>
    exact absurd (eq_plain_of_lookup hname) hcontent
  | loop => cases kind <;> exact absurd (eq_plain_of_lookup hname) hcontent
  | signature | task | action | workflow =>
    obtain rfl := harrival (by decide) rfl
    obtain rfl := Option.some.inj hkind
    have hthrough := (readsFields_of_mem_records (by decide) .setAside).member (by decide) hname
      hcontent front back
    exact ⟨.setAside, fun _ _ _ => rfl, hthrough.arrive .setAside⟩
  | executable =>
    have hthrough := (readsThrough_executable_member hkind hname hcontent).arrive arrival
    rw [arrive?_arrive?_setAside] at hthrough
    exact ⟨.setAside, fun _ _ _ => rfl, hthrough⟩
  | binding =>
    obtain ⟨rfl, hvalue⟩ := names_binding_of_lookup hname hcontent
    have hinside := fun inner => (readsThrough_bindingValue? hvalue hcontent inner).arrive inner
    have hthrough := (readsThrough_binding_member arrival hkind).arrive arrival
    split at hthrough
    · rw [arrive?_arrive?_setAside] at hthrough
      exact ⟨_, arrivesBy_of_bindingContents hvalue _, hthrough.trans (hinside _)⟩
    · exact ⟨_, arrivesBy_of_bindingContents hvalue _, hthrough.trans (hinside _)⟩

/-- Reading an array goes through the records at its places. -/
theorem exists_readsThrough_item {front : List Json}
    (harrival : part ∉ Part.roots → part.mayHoldBindings → arrival = .setAside)
    (hkind : part.arrayKindOf? front = some kind)
    (hplace : (part.names kind)[front.length]? = some (name, content)) (hcontent : content ≠ .plain)
    (back : List Json) :
    ∃ inner, content.ArrivesBy inner ∧
      ReadsThrough (arrive? arrival (part.read? arrival)) (arrive? inner (content.read? inner))
        (Spot.item front .here back).fill := by
  cases part with
  | settings | input | output | result | javaAction =>
    exact absurd (eq_plain_of_getElem? hplace) hcontent
  | loop => cases kind <;> exact absurd (eq_plain_of_getElem? hplace) hcontent
  | signature | task | action | workflow =>
    obtain rfl := harrival (by decide) rfl
    obtain rfl := Option.some.inj hkind
    have hthrough := (readsFields_of_mem_records (by decide) .setAside).item hplace hcontent back
    exact ⟨.setAside, fun _ _ _ => rfl, hthrough.arrive .setAside⟩
  | executable =>
    have hthrough := (readsThrough_executable_item hkind hplace hcontent back).arrive arrival
    rw [arrive?_arrive?_setAside] at hthrough
    exact ⟨.setAside, fun _ _ _ => rfl, hthrough⟩
  | binding =>
    obtain ⟨hlength, hvalue⟩ := names_binding_of_getElem? hplace hcontent
    have hthrough := (readsThrough_binding_item arrival hkind hlength back).arrive arrival
    exact ⟨arrival, arrivesBy_of_bindingContents hvalue arrival,
      hthrough.trans ((readsThrough_bindingValue? hvalue hcontent arrival).arrive arrival)⟩

/-- No record stands in what holds none. -/
theorem ne_plain_of_partAt? {spot : Spot} (h : content.partAt? spot = some part) :
    content ≠ .plain := by
  rintro rfl
  cases spot <;> cases h

/-- What a spot leads to is a spot inside of what its outermost step leads to. -/
theorem ReadsThrough.fill {β γ : Type} {part? : Json → Option β} {inner? : Json → Option γ}
    {outer inside spot : Spot} (houter : ReadsThrough read? part? outer.fill)
    (hinside : ReadsThrough part? inner? inside.fill)
    (hspot : ∀ tree, spot.fill tree = outer.fill (inside.fill tree)) :
    ReadsThrough read? inner? spot.fill :=
  (houter.trans hinside).of_eq fun tree => congrArg read? (hspot tree)

/-- A record inside of another stands in what is under one of its names, and reading goes through
it if reading that does. -/
theorem exists_inside {root : Part} {spot : Spot}
    (h : (Content.one root).partAt? spot = some part) (hspot : spot ≠ .here)
    (harrival : root ∉ Part.roots → root.mayHoldBindings → arrival = .setAside) :
    ∃ content : Content, ∃ middle, content.partAt? spot.inside = some part ∧
      content.ArrivesBy middle ∧ ∀ {β : Type} (part? : Json → Option β),
        ReadsThrough (arrive? middle (content.read? middle)) part? spot.inside.fill →
          ReadsThrough (arrive? arrival (root.read? arrival)) part? spot.fill := by
  cases spot with
  | here => exact absurd rfl hspot
  | item front inner back =>
    obtain ⟨kind, hkind, h⟩ := Option.bind_eq_some_iff.mp h
    obtain ⟨⟨name, content⟩, hplace, hinner⟩ := Option.bind_eq_some_iff.mp h
    obtain ⟨middle, hmiddle, houter⟩ := exists_readsThrough_item harrival hkind hplace
      (ne_plain_of_partAt? hinner) back
    exact ⟨content, middle, hinner, hmiddle, fun _ hinside => houter.fill hinside fun _ => rfl⟩
  | member front name inner back =>
    obtain ⟨kind, hkind, h⟩ := Option.bind_eq_some_iff.mp h
    obtain ⟨content, hname, hinner⟩ := Option.bind_eq_some_iff.mp h
    obtain ⟨middle, hmiddle, houter⟩ := exists_readsThrough_member harrival hkind hname
      (ne_plain_of_partAt? hinner)
    exact ⟨content, middle, hinner, hmiddle, fun _ hinside => houter.fill hinside fun _ => rfl⟩

/-- Reading goes through the record at a spot, however deep inside it stands. -/
theorem exists_readsThrough_of_partAt? {spot : Spot} {content : Content} {arrival : Arrival}
    (h : content.partAt? spot = some part) (harrival : content.ArrivesBy arrival) :
    ∃ inner, (part.mayHoldBindings → inner = .setAside) ∧
      ReadsThrough (arrive? arrival (content.read? arrival)) (arrive? inner (part.read? inner))
        spot.fill := by
  induction spot generalizing content arrival with
  | here =>
    cases content with
    | one root =>
      obtain rfl : root = part := Option.some.inj h
      exact ⟨arrival, harrival root rfl, .refl _⟩
    | _ => cases h
  | item front inside back ih =>
    cases content with
    | one root =>
      obtain ⟨content, middle, hinside, hmiddle, houter⟩ :=
        exists_inside h Spot.noConfusion fun _ => harrival root rfl
      obtain ⟨inner, hinner, hthrough⟩ := ih hinside hmiddle
      exact ⟨inner, hinner, houter _ hthrough⟩
    | list root =>
      obtain ⟨inner, hinner, hthrough⟩ := @ih (.one root) arrival h harrival
      have houter := (readsThrough_listOf? (root.read? arrival) front back).arrive arrival
      exact ⟨inner, hinner, houter.fill hthrough fun _ => rfl⟩
    | _ => cases h
  | member front name inside back ih =>
    cases content with
    | one root =>
      obtain ⟨content, middle, hinside, hmiddle, houter⟩ :=
        exists_inside h Spot.noConfusion fun _ => harrival root rfl
      obtain ⟨inner, hinner, hthrough⟩ := ih hinside hmiddle
      exact ⟨inner, hinner, houter _ hthrough⟩
    | dict root =>
      obtain ⟨inner, hinner, hthrough⟩ := @ih (.one root) arrival h harrival
      have houter := (readsThrough_dictOf? (root.read? arrival) front back name).arrive arrival
      exact ⟨inner, hinner, houter.fill hthrough fun _ => rfl⟩
    | _ => cases h

/-- Of the records that texts are read as, only a binding may be one that holds bindings. -/
theorem not_mayHoldBindings {root : Part} (hroot : root ∈ Part.roots) (hne : root ≠ .binding) :
    ¬ root.mayHoldBindings := by
  cases root with
  | binding => exact absurd rfl hne
  | signature | task | action | workflow => exact absurd hroot (by decide)
  | _ => exact Bool.false_ne_true

/-- Reading a text goes through every record in it but the outermost binding, and has set it aside
if it is a binding or may hold some. -/
theorem exists_readsThrough_of_root {root : Part} {spot : Spot} (hroot : root ∈ Part.roots)
    (h : (Content.one root).partAt? spot = some part)
    (hinside : ¬ (spot = .here ∧ part = .binding)) :
    ∃ inner, (part.mayHoldBindings → inner = .setAside) ∧
      ReadsThrough (root.read? .inPlace) (arrive? inner (part.read? inner)) spot.fill := by
  have hplace : arrive? .inPlace (root.read? .inPlace) = root.read? .inPlace :=
    funext fun tree => arrive?_inPlace _ tree
  rw [← hplace]
  by_cases hspot : spot = .here
  · subst hspot
    obtain rfl : root = part := Option.some.inj h
    have hnone := not_mayHoldBindings hroot fun hbinding => hinside ⟨rfl, hbinding⟩
    exact ⟨.inPlace, fun hholds => absurd hholds hnone, .refl _⟩
  · obtain ⟨content, middle, hinner, hmiddle, houter⟩ :=
      exists_inside h hspot fun hnot => absurd hroot hnot
    obtain ⟨inner, hholds, hthrough⟩ := exists_readsThrough_of_partAt? hinner hmiddle
    exact ⟨inner, hholds, houter _ hthrough⟩

end Taskflow.Wire
