import Taskflow.Proofs.Keyword.Declared

/-!
# The grammar of inputs

What an entry of a list of inputs may look like, and which input it stands for, said without the
steps by which it is read; and with which fault an entry is refused that stands for none. The main
statement says that a list of inputs is read exactly as its entries say, that the first entry that
stands for no input decides the fault, and that the arguments of an invocation are read alike, with
the reference in place of the keyword.
-/

namespace Taskflow

/-- The properties of an input that are booleans, in the order in which they are looked at. -/
def Input.flagProperties : List String :=
  [requiredProperty, encryptedProperty, overridableProperty]

/-- The value of a boolean; no other value has one. -/
def Value.flag? : Value → Option Bool
  | .boolean flag => some flag
  | _ => none

/-- What a property gives: nothing if it is absent or null, or else what its value is read as. -/
inductive Mapping.Provides {α : Type} (properties : Mapping) (property : String)
    (read : Value → Option α) : Option α → Prop
  | absent (h : properties.get? property = none) : Provides properties property read none
  | null (h : properties.get? property = some .null) : Provides properties property read none
  | value {value : Value} {content : α} (h : properties.get? property = some value)
      (hread : read value = some content) : Provides properties property read (some content)

/-- The value of a property is neither null nor can it be read. -/
structure Mapping.Misfits {α : Type} (properties : Mapping) (property : String)
    (read : Value → Option α) (value : Value) : Prop where
  /-- The value stands under the property. -/
  found : properties.get? property = some value
  /-- It is not null. -/
  not_null : value ≠ .null
  /-- It cannot be read. -/
  unread : read value = none

namespace Mapping

variable {α : Type} {properties : Mapping} {property : String} {read : Value → Option α}
  {value other : Value} {given : Option α}

/-- A property is absent, null, or has a value that is not null. -/
theorem cases_of_property (properties : Mapping) (property : String) :
    (properties.get? property = none ∨ properties.get? property = some .null) ∨
      ∃ value, properties.get? property = some value ∧ value ≠ .null := by
  cases hfound : properties.get? property with
  | none => exact .inl (.inl rfl)
  | some value =>
    by_cases hnull : value = .null
    · exact .inl (.inr (by rw [hnull]))
    · exact .inr ⟨value, rfl, hnull⟩

/-- A property that is absent or null gives nothing. -/
theorem provides_iff_of_absent (hread : read .null = none)
    (h : properties.get? property = none ∨ properties.get? property = some .null) :
    properties.Provides property read given ↔ given = none := by
  constructor
  · intro hprovides
    cases hprovides with
    | absent _ => rfl
    | null _ => rfl
    | value hfound hvalue =>
      rcases h with h | h
      · cases hfound.symm.trans h
      · obtain rfl := Option.some.inj (hfound.symm.trans h)
        rw [hread] at hvalue
        cases hvalue
  · rintro rfl
    exact h.elim .absent .null

/-- A property with a value that is not null gives what its value is read as. -/
theorem provides_iff_of_found (h : properties.get? property = some value) (hnull : value ≠ .null) :
    properties.Provides property read given ↔ ∃ content, read value = some content ∧
      given = some content := by
  constructor
  · intro hprovides
    cases hprovides with
    | absent hnone => cases hnone.symm.trans h
    | null hfound => exact absurd (Option.some.inj (h.symm.trans hfound)) hnull
    | value hfound hread =>
      obtain rfl := Option.some.inj (hfound.symm.trans h)
      exact ⟨_, hread, rfl⟩
  · rintro ⟨content, hread, rfl⟩
    exact .value h hread

/-- A property that is absent or null has no value that cannot be read. -/
theorem not_misfits_of_absent
    (h : properties.get? property = none ∨ properties.get? property = some .null) :
    ¬ properties.Misfits property read value := by
  intro hmisfits
  rcases h with h | h
  · cases hmisfits.found.symm.trans h
  · exact hmisfits.not_null (Option.some.inj (hmisfits.found.symm.trans h))

/-- A value that is not null misfits exactly if it cannot be read. -/
theorem misfits_iff_of_found (h : properties.get? property = some value) (hnull : value ≠ .null) :
    properties.Misfits property read other ↔ other = value ∧ read value = none := by
  constructor
  · rintro ⟨hfound, -, hunread⟩
    obtain rfl := Option.some.inj (hfound.symm.trans h)
    exact ⟨rfl, hunread⟩
  · rintro ⟨rfl, hunread⟩
    exact ⟨h, hnull, hunread⟩

end Mapping

namespace Entry

/-- An entry stands for an input: it is a name, a pair of a name and null or a scalar, or a pair of
a name and properties that an input has, each of them absent, null or of its kind. -/
inductive StandsFor : Value → Input → Prop
  | name (name : String) : StandsFor (.text name) (.named name)
  | alone (name : String) : StandsFor (.map [(name, .null)]) (.named name)
  | inline {name : String} {value : Value} {expression : String}
      (htext : value.scalarText? = some expression) :
      StandsFor (.map [(name, value)]) { Input.named name with expression := some expression }
  | described {name : String} {properties : Mapping} {expression : Option String}
      {required encrypted overridable : Option Bool}
      (hknown : ∀ property ∈ properties.keys, property ∈ Input.properties)
      (hdefault : properties.Provides Input.defaultProperty Value.scalarText? expression)
      (hrequired : properties.Provides Input.requiredProperty Value.flag? required)
      (hencrypted : properties.Provides Input.encryptedProperty Value.flag? encrypted)
      (hoverridable : properties.Provides Input.overridableProperty Value.flag? overridable) :
      StandsFor (.map [(name, .map properties)])
        ⟨name, expression, required.getD true, encrypted.getD false, overridable.getD false⟩

/-- The fault with which an entry is refused. Of the properties of an input an unknown one counts
first, then the default, then the flags in their order. -/
inductive RefusedWith (key : String) : Value → Fault → Prop
  | notInput {item : Value} (htext : item.shape ≠ .string) (hmap : item.shape ≠ .map) :
      RefusedWith key item (.invalidEntry key (.notInput item.shape))
  | notOnePair {entries : Mapping} (h : entries.length ≠ 1) :
      RefusedWith key (.map entries) (.invalidEntry key (.notOnePair entries.length))
  | notExpression (name : String) (items : List Value) :
      RefusedWith key (.map [(name, .list items)])
        (.invalidEntry key (.notExpression name .list))
  | unknownProperty {name property : String} {properties : Mapping} {front back : List String}
      (hkeys : properties.keys = front ++ property :: back)
      (hfront : ∀ other ∈ front, other ∈ Input.properties)
      (hunknown : property ∉ Input.properties) :
      RefusedWith key (.map [(name, .map properties)])
        (.invalidEntry key (.unknownProperty property name))
  | notDefault {name : String} {properties : Mapping} {value : Value}
      (hknown : ∀ property ∈ properties.keys, property ∈ Input.properties)
      (hvalue : properties.Misfits Input.defaultProperty Value.scalarText? value) :
      RefusedWith key (.map [(name, .map properties)])
        (.invalidEntry key (.notExpression name value.shape))
  | notFlag {name property : String} {properties : Mapping} {value : Value}
      {front back : List String}
      (hknown : ∀ property ∈ properties.keys, property ∈ Input.properties)
      (hdefault : ∃ expression,
        properties.Provides Input.defaultProperty Value.scalarText? expression)
      (hflags : Input.flagProperties = front ++ property :: back)
      (hfront : ∀ other ∈ front, ∃ flag, properties.Provides other Value.flag? flag)
      (hvalue : properties.Misfits property Value.flag? value) :
      RefusedWith key (.map [(name, .map properties)])
        (.invalidEntry key (.notBoolean property name value.shape))

variable {key name property : String} {properties : Mapping} {value item : Value} {fault : Fault}

/-- The check of properties passes exactly if an input has all of them. -/
theorem checkProperties_eq_ok_iff :
    checkProperties key name properties = .ok () ↔
      ∀ property ∈ properties.keys, property ∈ Input.properties := by
  unfold checkProperties
  split
  · next property hfound =>
    have hunknown : property ∉ Input.properties := by simpa using List.find?_some hfound
    have hmem := List.mem_of_find?_eq_some hfound
    exact iff_of_false (fun h => by cases h) fun h => hunknown (h property hmem)
  · next hnone => simpa using hnone

/-- The check of properties refuses the first that no input has. -/
theorem checkProperties_eq_error_iff :
    checkProperties key name properties = .error fault ↔
      ∃ front property back, properties.keys = front ++ property :: back ∧
        (∀ other ∈ front, other ∈ Input.properties) ∧ property ∉ Input.properties ∧
          fault = .invalidEntry key (.unknownProperty property name) := by
  have hfind : ∀ property, (properties.keys.find? fun property =>
      !Input.properties.contains property) = some property ↔
        ∃ front back, properties.keys = front ++ property :: back ∧
          (∀ other ∈ front, other ∈ Input.properties) ∧ property ∉ Input.properties := by
    intro property
    rw [List.find?_eq_some_iff_append]
    simp only [Bool.not_eq_true', List.contains_eq_mem, decide_eq_false_iff_not, Bool.not_not,
      decide_eq_true_eq]
    constructor
    · rintro ⟨hunknown, front, back, hkeys, hfront⟩
      exact ⟨front, back, hkeys, hfront, hunknown⟩
    · rintro ⟨front, back, hkeys, hfront, hunknown⟩
      exact ⟨hunknown, front, back, hkeys, hfront⟩
  unfold checkProperties
  constructor
  · intro h
    split at h
    · next property hfound =>
      obtain ⟨front, back, hkeys, hfront, hunknown⟩ := (hfind property).mp hfound
      exact ⟨front, property, back, hkeys, hfront, hunknown, (Except.error.inj h).symm⟩
    · cases h
  · rintro ⟨front, property, back, hkeys, hfront, hunknown, rfl⟩
    rw [(hfind property).mpr ⟨front, back, hkeys, hfront, hunknown⟩]

/-- An expression is read from exactly the values that have a text. -/
theorem readExpression_eq_ok_iff {expression : String} :
    readExpression key name value = .ok expression ↔ value.scalarText? = some expression := by
  unfold readExpression
  cases value.scalarText? <;> simp

/-- A value without a text is no expression. -/
theorem readExpression_eq_error_iff :
    readExpression key name value = .error fault ↔
      value.scalarText? = none ∧ fault = .invalidEntry key (.notExpression name value.shape) := by
  unfold readExpression
  cases value.scalarText? <;> simp [eq_comm]

/-- Without a default none is read. -/
theorem readDefault_of_absent (h : properties.get? Input.defaultProperty = none ∨
      properties.get? Input.defaultProperty = some .null) :
    readDefault key name properties = .ok none := by
  unfold readDefault
  rcases h with h | h <;> rw [h]

/-- A default that is not null is read as an expression. -/
theorem readDefault_of_found (h : properties.get? Input.defaultProperty = some value)
    (hnull : value ≠ .null) :
    readDefault key name properties = (readExpression key name value).map some := by
  unfold readDefault
  rw [h]
  cases value with
  | null => exact absurd rfl hnull
  | _ => rfl

/-- The default is read as what the properties give. -/
theorem readDefault_eq_ok_iff {expression : Option String} :
    readDefault key name properties = .ok expression ↔
      properties.Provides Input.defaultProperty Value.scalarText? expression := by
  rcases properties.cases_of_property Input.defaultProperty with h | ⟨value, h, hnull⟩
  · rw [readDefault_of_absent h, Mapping.provides_iff_of_absent rfl h, Except.ok.injEq, eq_comm]
  · rw [readDefault_of_found h hnull, Mapping.provides_iff_of_found h hnull]
    unfold readExpression
    cases value.scalarText? <;> simp [Except.map, eq_comm]

/-- A default is refused exactly if it misfits. -/
theorem readDefault_eq_error_iff :
    readDefault key name properties = .error fault ↔
      ∃ value, properties.Misfits Input.defaultProperty Value.scalarText? value ∧
        fault = .invalidEntry key (.notExpression name value.shape) := by
  rcases properties.cases_of_property Input.defaultProperty with h | ⟨value, h, hnull⟩
  · rw [readDefault_of_absent h]
    simp [Mapping.not_misfits_of_absent h]
  · rw [readDefault_of_found h hnull]
    simp only [Mapping.misfits_iff_of_found h hnull]
    unfold readExpression
    cases value.scalarText? <;> simp [Except.map, eq_comm]

/-- Without a flag its preset is read. -/
theorem readFlag_of_absent {preset : Bool}
    (h : properties.get? property = none ∨ properties.get? property = some .null) :
    readFlag key name properties property preset = .ok preset := by
  unfold readFlag
  rcases h with h | h <;> rw [h]

/-- A flag that is not null is read as a boolean. -/
theorem readFlag_of_found {preset : Bool} (h : properties.get? property = some value)
    (hnull : value ≠ .null) :
    readFlag key name properties property preset =
      match value.flag? with
      | some flag => .ok flag
      | none => .error (.invalidEntry key (.notBoolean property name value.shape)) := by
  unfold readFlag
  rw [h]
  cases value with
  | null => exact absurd rfl hnull
  | _ => rfl

/-- A flag is read as what the properties give, or else as its preset. -/
theorem readFlag_eq_ok_iff {preset flag : Bool} :
    readFlag key name properties property preset = .ok flag ↔
      ∃ given, properties.Provides property Value.flag? given ∧ flag = given.getD preset := by
  rcases properties.cases_of_property property with h | ⟨value, h, hnull⟩
  · rw [readFlag_of_absent h]
    have hnull : Value.flag? .null = none := rfl
    simp [Mapping.provides_iff_of_absent hnull h, eq_comm]
  · rw [readFlag_of_found h hnull]
    simp only [Mapping.provides_iff_of_found h hnull]
    cases value.flag? <;> simp [eq_comm]

/-- A flag is refused exactly if it misfits. -/
theorem readFlag_eq_error_iff {preset : Bool} :
    readFlag key name properties property preset = .error fault ↔
      ∃ value, properties.Misfits property Value.flag? value ∧
        fault = .invalidEntry key (.notBoolean property name value.shape) := by
  rcases properties.cases_of_property property with h | ⟨value, h, hnull⟩
  · rw [readFlag_of_absent h]
    simp [Mapping.not_misfits_of_absent h]
  · rw [readFlag_of_found h hnull]
    simp only [Mapping.misfits_iff_of_found h hnull]
    cases value.flag? <;> simp [eq_comm]

/-- An input is read from properties exactly if it is what they give. -/
theorem readProperties_eq_ok_iff {input : Input} :
    readProperties key name properties = .ok input ↔
      StandsFor (.map [(name, .map properties)]) input := by
  constructor
  · intro h
    obtain ⟨⟨⟩, hknown, h⟩ := bind_eq_ok_iff.mp h
    obtain ⟨expression, hdefault, h⟩ := bind_eq_ok_iff.mp h
    obtain ⟨required, hrequired, h⟩ := bind_eq_ok_iff.mp h
    obtain ⟨encrypted, hencrypted, h⟩ := bind_eq_ok_iff.mp h
    obtain ⟨overridable, hoverridable, h⟩ := bind_eq_ok_iff.mp h
    obtain rfl := Except.ok.inj h
    obtain ⟨_, hgivenRequired, rfl⟩ := readFlag_eq_ok_iff.mp hrequired
    obtain ⟨_, hgivenEncrypted, rfl⟩ := readFlag_eq_ok_iff.mp hencrypted
    obtain ⟨_, hgivenOverridable, rfl⟩ := readFlag_eq_ok_iff.mp hoverridable
    exact .described (checkProperties_eq_ok_iff.mp hknown) (readDefault_eq_ok_iff.mp hdefault)
      hgivenRequired hgivenEncrypted hgivenOverridable
  · intro h
    cases h with
    | inline htext => cases htext
    | described hknown hdefault hrequired hencrypted hoverridable =>
      have hrequired' : readFlag key name properties Input.requiredProperty true = .ok _ :=
        readFlag_eq_ok_iff.mpr ⟨_, hrequired, rfl⟩
      have hencrypted' : readFlag key name properties Input.encryptedProperty false = .ok _ :=
        readFlag_eq_ok_iff.mpr ⟨_, hencrypted, rfl⟩
      have hoverridable' : readFlag key name properties Input.overridableProperty false = .ok _ :=
        readFlag_eq_ok_iff.mpr ⟨_, hoverridable, rfl⟩
      rw [readProperties, checkProperties_eq_ok_iff.mpr hknown, readDefault_eq_ok_iff.mpr hdefault,
        hrequired', hencrypted', hoverridable']
      rfl

/-- Properties that cannot be read are refused with the fault of the first of them that misfits. -/
theorem refusedWith_of_readProperties_eq_error
    (h : readProperties key name properties = .error fault) :
    RefusedWith key (.map [(name, .map properties)]) fault := by
  rcases bind_eq_error_iff.mp h with h | ⟨⟨⟩, hknown, h⟩
  · obtain ⟨front, property, back, hkeys, hfront, hunknown, rfl⟩ :=
      checkProperties_eq_error_iff.mp h
    exact .unknownProperty hkeys hfront hunknown
  have hproperties := checkProperties_eq_ok_iff.mp hknown
  rcases bind_eq_error_iff.mp h with h | ⟨expression, hdefault, h⟩
  · obtain ⟨value, hvalue, rfl⟩ := readDefault_eq_error_iff.mp h
    exact .notDefault hproperties hvalue
  have hgiven : ∃ expression,
      properties.Provides Input.defaultProperty Value.scalarText? expression :=
    ⟨expression, readDefault_eq_ok_iff.mp hdefault⟩
  -- The flags are read in order, so those in front of a refused one are given.
  have hfirst : Input.flagProperties = [] ++ Input.requiredProperty :: _ := rfl
  have hsecond : Input.flagProperties =
      [Input.requiredProperty] ++ Input.encryptedProperty :: _ := rfl
  have hthird : Input.flagProperties =
      [Input.requiredProperty, Input.encryptedProperty] ++ Input.overridableProperty :: _ := rfl
  rcases bind_eq_error_iff.mp h with h | ⟨required, hrequired, h⟩
  · obtain ⟨value, hvalue, rfl⟩ := readFlag_eq_error_iff.mp h
    exact .notFlag hproperties hgiven hfirst (by simp) hvalue
  obtain ⟨_, hrequired, -⟩ := readFlag_eq_ok_iff.mp hrequired
  rcases bind_eq_error_iff.mp h with h | ⟨encrypted, hencrypted, h⟩
  · obtain ⟨value, hvalue, rfl⟩ := readFlag_eq_error_iff.mp h
    exact .notFlag hproperties hgiven hsecond (by simpa using ⟨_, hrequired⟩) hvalue
  obtain ⟨_, hencrypted, -⟩ := readFlag_eq_ok_iff.mp hencrypted
  rcases bind_eq_error_iff.mp h with h | ⟨overridable, -, h⟩
  · obtain ⟨value, hvalue, rfl⟩ := readFlag_eq_error_iff.mp h
    exact .notFlag hproperties hgiven hthird (by simpa using ⟨⟨_, hrequired⟩, _, hencrypted⟩) hvalue
  · cases h

/-- Behind known properties and a readable default the first flag that misfits is refused. -/
theorem readProperties_eq_error_of_misfits {expression : Option String} {front back : List String}
    (hknown : ∀ property ∈ properties.keys, property ∈ Input.properties)
    (hdefault : properties.Provides Input.defaultProperty Value.scalarText? expression)
    (hflags : Input.flagProperties = front ++ property :: back)
    (hfront : ∀ other ∈ front, ∃ flag, properties.Provides other Value.flag? flag)
    (hvalue : properties.Misfits property Value.flag? value) :
    readProperties key name properties =
      .error (.invalidEntry key (.notBoolean property name value.shape)) := by
  have hrefused : ∀ preset, readFlag key name properties property preset = .error _ :=
    fun preset => readFlag_eq_error_iff.mpr ⟨_, hvalue, rfl⟩
  have hread : ∀ other ∈ front, ∀ preset,
      ∃ flag, readFlag key name properties other preset = .ok flag := by
    intro other hother preset
    obtain ⟨given, hgiven⟩ := hfront other hother
    exact ⟨_, readFlag_eq_ok_iff.mpr ⟨given, hgiven, rfl⟩⟩
  rw [readProperties, checkProperties_eq_ok_iff.mpr hknown, readDefault_eq_ok_iff.mpr hdefault]
  simp only [Input.flagProperties] at hflags
  match front, hflags, hread with
  | [], hflags, _ =>
    obtain ⟨rfl, -⟩ := List.cons.inj hflags
    rw [hrefused true]
    rfl
  | [first], hflags, hread =>
    obtain ⟨rfl, hrest⟩ := List.cons.inj hflags
    obtain ⟨rfl, -⟩ := List.cons.inj hrest
    obtain ⟨required, hrequired⟩ := hread _ List.mem_cons_self true
    rw [hrequired, hrefused false]
    rfl
  | first :: second :: others, hflags, hread =>
    obtain ⟨rfl, hrest⟩ := List.cons.inj hflags
    obtain ⟨rfl, hlast⟩ := List.cons.inj hrest
    obtain ⟨rfl, rfl, rfl⟩ : others = [] ∧ property = Input.overridableProperty ∧ back = [] := by
      simpa [List.singleton_eq_append_iff] using hlast
    obtain ⟨required, hrequired⟩ := hread _ List.mem_cons_self true
    obtain ⟨encrypted, hencrypted⟩ := hread Input.encryptedProperty (by simp) false
    rw [hrequired, hencrypted, hrefused false]
    rfl

/-- Properties are refused exactly with the fault of the first of them that misfits. -/
theorem readProperties_eq_error_iff :
    readProperties key name properties = .error fault ↔
      RefusedWith key (.map [(name, .map properties)]) fault := by
  refine ⟨refusedWith_of_readProperties_eq_error, fun h => ?_⟩
  cases h with
  | notInput _ hmap => exact absurd rfl hmap
  | notOnePair hlength => exact absurd rfl hlength
  | unknownProperty hkeys hfront hunknown =>
    have hcheck : checkProperties key name properties = .error _ :=
      checkProperties_eq_error_iff.mpr ⟨_, _, _, hkeys, hfront, hunknown, rfl⟩
    rw [readProperties, hcheck]
    rfl
  | notDefault hknown hvalue =>
    have hdefault : readDefault key name properties = .error _ :=
      readDefault_eq_error_iff.mpr ⟨_, hvalue, rfl⟩
    rw [readProperties, checkProperties_eq_ok_iff.mpr hknown, hdefault]
    rfl
  | notFlag hknown hdefault hflags hfront hvalue =>
    obtain ⟨expression, hdefault⟩ := hdefault
    exact readProperties_eq_error_of_misfits hknown hdefault hflags hfront hvalue

/-- What stands beside a name, if it is neither null nor a map, is read as an expression. -/
theorem readInputValue_of_inline (hnull : value.shape ≠ .null) (hmap : value.shape ≠ .map) :
    readInputValue key name value = readExpression key name value >>= fun expression =>
      .ok { Input.named name with expression := some expression } := by
  cases value with
  | null => exact absurd rfl hnull
  | map => exact absurd rfl hmap
  | _ => rfl

/-- Beside a name, what is neither null nor a map makes an input exactly if it has a text. -/
theorem standsFor_inline_iff {input : Input} (hnull : value.shape ≠ .null)
    (hmap : value.shape ≠ .map) :
    StandsFor (.map [(name, value)]) input ↔ ∃ expression, value.scalarText? = some expression ∧
      { Input.named name with expression := some expression } = input := by
  constructor
  · intro h
    cases h with
    | alone => exact absurd rfl hnull
    | inline htext => exact ⟨_, htext, rfl⟩
    | described => exact absurd rfl hmap
  · rintro ⟨expression, htext, rfl⟩
    exact .inline htext

/-- Beside a name, what is neither null nor a map is refused exactly if it has no text. -/
theorem refusedWith_inline_iff (hnull : value.shape ≠ .null) (hmap : value.shape ≠ .map) :
    RefusedWith key (.map [(name, value)]) fault ↔ value.scalarText? = none ∧
      fault = .invalidEntry key (.notExpression name value.shape) := by
  constructor
  · intro h
    cases h with
    | notInput _ hpair => exact absurd rfl hpair
    | notOnePair hlength => exact absurd rfl hlength
    | notExpression => exact ⟨rfl, rfl⟩
    | unknownProperty | notDefault | notFlag => exact absurd rfl hmap
  · rintro ⟨htext, rfl⟩
    cases value with
    | list items => exact .notExpression name items
    | null => exact absurd rfl hnull
    | map => exact absurd rfl hmap
    | boolean flag => cases flag <;> cases htext
    | number | text => cases htext

/-- What stands beside a name is read exactly as the input that both stand for. -/
theorem readInputValue_eq_ok_iff {input : Input} :
    readInputValue key name value = .ok input ↔ StandsFor (.map [(name, value)]) input := by
  cases value with
  | null =>
    rw [readInputValue, Except.ok.injEq]
    constructor
    · rintro rfl
      exact .alone name
    · intro h
      cases h with
      | alone => rfl
      | inline htext => cases htext
  | map properties => exact readProperties_eq_ok_iff
  | boolean | number | text | list =>
    rw [readInputValue_of_inline (by simp [Value.shape]) (by simp [Value.shape]), bind_eq_ok_iff,
      standsFor_inline_iff (by simp [Value.shape]) (by simp [Value.shape])]
    simp only [readExpression_eq_ok_iff, Except.ok.injEq]

/-- What stands beside a name is refused exactly if both stand for no input. -/
theorem readInputValue_eq_error_iff :
    readInputValue key name value = .error fault ↔
      RefusedWith key (.map [(name, value)]) fault := by
  cases value with
  | null =>
    refine iff_of_false (fun h => by cases h) fun h => ?_
    cases h with
    | notInput _ hpair => exact hpair rfl
    | notOnePair hlength => exact hlength rfl
  | map properties => exact readProperties_eq_error_iff
  | boolean | number | text | list =>
    rw [readInputValue_of_inline (by simp [Value.shape]) (by simp [Value.shape]), bind_eq_error_iff,
      refusedWith_inline_iff (by simp [Value.shape]) (by simp [Value.shape])]
    simp [readExpression_eq_error_iff]

/-- A map without exactly one pair is refused. -/
theorem readInput_of_length_ne {entries : Mapping} (h : entries.length ≠ 1) :
    readInput key (.map entries) = .error (.invalidEntry key (.notOnePair entries.length)) := by
  match entries, h with
  | [], _ => rfl
  | [_], h => exact absurd rfl h
  | _ :: _ :: _, _ => rfl

/-- An entry is read exactly as the input that it stands for. -/
theorem readInput_eq_ok_iff {input : Input} :
    readInput key item = .ok input ↔ StandsFor item input := by
  cases item with
  | text name =>
    rw [readInput, Except.ok.injEq]
    constructor
    · rintro rfl
      exact .name name
    · intro h
      cases h
      rfl
  | map entries =>
    by_cases hlength : entries.length = 1
    · obtain ⟨⟨name, value⟩, rfl⟩ := List.length_eq_one_iff.mp hlength
      exact readInputValue_eq_ok_iff
    · rw [readInput_of_length_ne hlength]
      refine iff_of_false (fun h => by cases h) fun h => ?_
      cases h <;> exact hlength rfl
  | null | boolean | number | list => exact iff_of_false (fun h => by cases h) fun h => by cases h

/-- An entry is refused exactly if it stands for no input. -/
theorem readInput_eq_error_iff :
    readInput key item = .error fault ↔ RefusedWith key item fault := by
  cases item with
  | text name =>
    refine iff_of_false (fun h => by cases h) fun h => ?_
    cases h with
    | notInput htext => exact htext rfl
  | map entries =>
    by_cases hlength : entries.length = 1
    · obtain ⟨⟨name, value⟩, rfl⟩ := List.length_eq_one_iff.mp hlength
      exact readInputValue_eq_error_iff
    · rw [readInput_of_length_ne hlength, Except.error.injEq]
      constructor
      · rintro rfl
        exact .notOnePair hlength
      · intro h
        cases h with
        | notInput _ hmap => exact absurd rfl hmap
        | notOnePair => rfl
        | _ => exact absurd rfl hlength
  | null | boolean | number | list =>
    rw [readInput, Except.error.injEq]
    · constructor
      · rintro rfl
        exact .notInput (by simp [Value.shape]) (by simp [Value.shape])
      · intro h
        cases h
        rfl
    all_goals simp

end Entry

namespace Keyword

/-- A list is read item by item as inputs. -/
theorem convert_inputs_eq (key : String) (items : List Value) :
    inputs.convert key (some (.list items)) =
      items.mapM (Entry.readInput key) >>= fun found => .ok (some (.inputs found)) := rfl

/-- The arguments of an invocation are read as inputs under its reference. -/
theorem convert_invoke_eq (key reference : String) (items : List Value) :
    invoke.convert key (some (.map [(reference, .list items)])) =
      inputs.convert reference (some (.list items)) := rfl

/-- The keyword of inputs reads a list exactly as its entries say: it gives one input for each, in
order, or is refused with the fault of the first entry that stands for no input. The arguments of an
invocation are read as inputs, with the reference in place of the keyword. -/
theorem inputs_follow_grammar (key reference : String) (items : List Value) :
    (∀ binding, inputs.convert key (some (.list items)) = .ok binding ↔
      ∃ found, binding = some (.inputs found) ∧ List.Forall₂ Entry.StandsFor items found) ∧
    ((∃ binding, inputs.convert key (some (.list items)) = .ok binding) ↔
      ∀ item ∈ items, ∃ input, Entry.StandsFor item input) ∧
    (∀ fault, inputs.convert key (some (.list items)) = .error fault ↔
      ∃ front item back, items = front ++ item :: back ∧
        (∀ other ∈ front, ∃ input, Entry.StandsFor other input) ∧
          Entry.RefusedWith key item fault) ∧
    invoke.convert key (some (.map [(reference, .list items)])) =
      inputs.convert reference (some (.list items)) := by
  have hok : ∀ binding, inputs.convert key (some (.list items)) = .ok binding ↔
      ∃ found, binding = some (.inputs found) ∧ List.Forall₂ Entry.StandsFor items found := by
    intro binding
    rw [convert_inputs_eq, bind_eq_ok_iff]
    simp only [mapM_eq_ok_iff, Entry.readInput_eq_ok_iff, Except.ok.injEq]
    constructor
    · rintro ⟨found, hfound, rfl⟩
      exact ⟨found, rfl, hfound⟩
    · rintro ⟨found, rfl, hfound⟩
      exact ⟨found, hfound, rfl⟩
  refine ⟨hok, ?_, fun fault => ?_, convert_invoke_eq key reference items⟩
  · have hread : ∀ item input, Entry.StandsFor item input ↔ Entry.readInput key item = .ok input :=
      fun _ _ => Entry.readInput_eq_ok_iff.symm
    simp only [hok, hread, ← exists_mapM_eq_ok_iff]
    constructor
    · rintro ⟨binding, found, -, hfound⟩
      exact ⟨found, mapM_eq_ok_iff.mpr (hfound.imp fun _ _ => (hread _ _).mp)⟩
    · rintro ⟨found, hfound⟩
      exact ⟨_, found, rfl, (mapM_eq_ok_iff.mp hfound).imp fun _ _ => (hread _ _).mpr⟩
  · rw [convert_inputs_eq, bind_eq_error_iff, mapM_eq_error_iff]
    simp only [Entry.readInput_eq_ok_iff, Entry.readInput_eq_error_iff]
    simp

end Keyword

end Taskflow
