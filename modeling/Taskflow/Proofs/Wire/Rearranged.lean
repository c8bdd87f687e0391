import Taskflow.Proofs.Wire.Loop
import Taskflow.Proofs.Wire.Within

/-!
# Objects that are written in another way

The members of an object may come in another order, and among others that nobody asks for. The main
statement says that a record is read as before then, whatever it is but a binding, and that it is
refused if a name that it asks for is repeated.
-/

namespace Taskflow.Wire

variable {α : Type} {part : Part} {arrival : Arrival} {read? behind? : Json → Option α}
  {names : List String} {name : String} {members members' : List (String × Json)}
  {tag tree : Json}

/-- Whether a tree is a text, a boolean or null. -/
def isSimple : Json → Bool
  | .null | .boolean _ | .text _ => true
  | _ => false

/-- The members of an object in another order and among others, which have simple values and none
of the known names. -/
def Rearranged (names : List String) (members members' : List (String × Json)) : Prop :=
  ∃ added : List (String × Json), (∀ member ∈ added, member.1 ∉ names ∧ isSimple member.2) ∧
    members'.Perm (members ++ added)

/-- The members of an object in another order, with a second one of a known name. -/
def Repeats (names : List String) (members members' : List (String × Json)) : Prop :=
  ∃ name ∈ names, name ∈ members.map Prod.fst ∧ ∃ value, members'.Perm ((name, value) :: members)

/-- What is simple is readable. -/
theorem isReadable_of_isSimple (h : isSimple tree) : tree.isReadable = true := by
  cases tree with
  | null | boolean | text => rfl
  | _ => cases h

/-- A field is refused if its name is repeated. -/
theorem field?_eq_none (h : 1 < (occurrences members name).length) :
    field? members name = none := by
  unfold field?
  split
  · next hfound => simp [hfound] at h
  · next hfound => simp [hfound] at h
  · rfl

/-- A field does not depend on the order of the members. -/
theorem field?_eq_of_perm (h : (occurrences members' name).Perm (occurrences members name)) :
    field? members' name = field? members name := by
  rcases Nat.lt_or_ge 1 (occurrences members name).length with hmany | hfew
  · rw [field?_eq_none hmany, field?_eq_none (h.length_eq ▸ hmany)]
  · have hsame : occurrences members' name = occurrences members name := by
      cases hfound : occurrences members name with
      | nil => exact List.perm_nil.mp (hfound ▸ h)
      | cons value rest =>
        rw [hfound, List.length_cons] at hfew
        obtain rfl := List.length_eq_zero_iff.mp (Nat.le_zero.mp (Nat.le_of_succ_le_succ hfew))
        exact List.perm_singleton.mp (hfound ▸ h)
    rw [field?, field?, hsame]

namespace Rearranged

/-- Of a known name there are the same members. -/
theorem occurrences_perm (h : Rearranged names members members') (hname : name ∈ names) :
    (occurrences members' name).Perm (occurrences members name) := by
  obtain ⟨added, hadded, hperm⟩ := h
  have hnone : occurrences added name = [] := by
    refine occurrences_eq_nil fun hmem => ?_
    obtain ⟨member, hmember, rfl⟩ := List.mem_map.mp hmem
    exact (hadded member hmember).1 hname
  have hall := Wire.occurrences_perm hperm name
  rwa [occurrences_append, hnone, List.append_nil] at hall

/-- The only member of a known name is still the only one. -/
theorem occurrences_eq (h : Rearranged names members members') (hname : name ∈ names)
    {value : Json} (honly : occurrences members name = [value]) :
    occurrences members' name = [value] :=
  List.perm_singleton.mp (honly ▸ h.occurrences_perm hname)

/-- Without their tag the members are those in another order still. -/
theorem filter (h : Rearranged names members members') (tagName : String) :
    Rearranged names (members.filter (·.1 != tagName)) (members'.filter (·.1 != tagName)) := by
  obtain ⟨added, hadded, hperm⟩ := h
  refine ⟨added.filter (·.1 != tagName), fun member hmember => ?_, ?_⟩
  · exact hadded member (List.mem_of_mem_filter hmember)
  · rw [← List.filter_append]
    exact hperm.filter _

/-- The object is as readable as it was. -/
theorem isReadable_eq (h : Rearranged names members members') :
    (Json.object members').isReadable = (Json.object members).isReadable := by
  obtain ⟨added, hadded, hperm⟩ := h
  have hreadable : Json.haveReadableValues added = true :=
    Json.haveReadableValues_iff.mpr fun member hmember =>
      isReadable_of_isSimple (hadded member hmember).2
  have hsame : Json.haveReadableValues members' = Json.haveReadableValues (members ++ added) := by
    rw [Bool.eq_iff_iff, Json.haveReadableValues_iff, Json.haveReadableValues_iff]
    exact forall_congr' fun member => by rw [hperm.mem_iff]
  rw [Json.isReadable, Json.isReadable, hsame, Json.haveReadableValues_append, hreadable,
    Bool.and_true]

/-- Known fields are found as before. -/
theorem fields?_eq (h : Rearranged names members members') {asked : List String}
    (hknown : ∀ name ∈ asked, name ∈ names) :
    fields? asked (.object members') = fields? asked (.object members) :=
  mapM_congr fun name hname => field?_eq_of_perm (h.occurrences_perm (hknown name hname))

end Rearranged

/-- A record is refused if one of its names is repeated. -/
theorem fields?_eq_none (hname : name ∈ names) (h : 1 < (occurrences members name).length) :
    fields? names (.object members) = none :=
  mapM_eq_none hname (field?_eq_none h)

/-- An object is refused if its tag is repeated. -/
theorem tagged?_eq_none (h : 1 < (occurrences members name).length) :
    tagged? name (.object members) = none := by
  unfold tagged?
  dsimp only
  split
  · next tag htag => simp [htag] at h
  · rfl

/-- A name that is given once more is repeated. -/
theorem one_lt_length_occurrences {value : Json} (hmem : name ∈ members.map Prod.fst)
    (hperm : members'.Perm ((name, value) :: members)) :
    1 < (occurrences members' name).length := by
  obtain ⟨member, hmember, rfl⟩ := List.mem_map.mp hmem
  have hoccurs : member.2 ∈ occurrences members member.1 :=
    List.mem_map_of_mem (List.mem_filter.mpr ⟨hmember, beq_self_eq_true member.1⟩)
  rw [(occurrences_perm hperm member.1).length_eq, occurrences_cons_self, List.length_cons]
  exact Nat.succ_lt_succ (List.length_pos_of_mem hoccurs)

/-- Reading an object asks for the members of the given names and for no others. -/
structure AsksFor (read? : Json → Option α) (members : List (String × Json))
    (names : List String) : Prop where
  /-- The order of the members does not matter, nor do simple ones of other names. -/
  rearranged : ∀ members', Rearranged names members members' →
    read? (.object members') = read? (.object members)
  /-- No name may be repeated. -/
  repeated : ∀ members', Repeats names members members' → read? (.object members') = none

/-- What is set aside must be readable, which depends only on the members that matter. -/
theorem AsksFor.arrive (h : AsksFor read? members names) (arrival : Arrival) :
    AsksFor (arrive? arrival read?) members names := by
  constructor
  · intro members' hrearranged
    rw [arrive?, arrive?, hrearranged.isReadable_eq, h.rearranged members' hrearranged]
  · intro members' hrepeats
    rw [arrive?, h.repeated members' hrepeats, ite_self]

/-- A record asks for its fields. -/
theorem asksFor_of_fields {make : List (Option Json) → Option α}
    (hread : ∀ members, read? (.object members) = (fields? names (.object members)).bind make) :
    AsksFor read? members names := by
  constructor
  · intro members' hrearranged
    rw [hread, hread, hrearranged.fields?_eq fun _ hname => hname]
  · rintro members' ⟨name, hname, hmem, value, hperm⟩
    rw [hread, fields?_eq_none hname (one_lt_length_occurrences hmem hperm), Option.bind_none]

/-- A record with a tag asks for the tag and for the fields behind it. -/
theorem asksFor_of_tagged {tagName : String} {make : List (Option Json) → Option α}
    (htag : occurrences members tagName = [tag])
    (hrefused : ∀ tree, tagged? tagName tree = none → read? tree = none)
    (hread : ∀ tree rest,
      tagged? tagName tree = (if rest.isReadable then some (tag, rest) else none) →
        read? tree = arrive? .setAside behind? rest)
    (hbehind : ∀ members, behind? (.object members) = (fields? names (.object members)).bind make) :
    AsksFor read? members (tagName :: names) := by
  constructor
  · intro members' hrearranged
    have htag' := hrearranged.occurrences_eq List.mem_cons_self htag
    have hrest := hrearranged.filter tagName
    rw [hread _ _ (tagged?_object htag'), hread _ _ (tagged?_object htag), arrive?_setAside,
      arrive?_setAside, hrest.isReadable_eq, hbehind, hbehind,
      hrest.fields?_eq fun _ => List.mem_cons_of_mem tagName]
  · rintro members' ⟨name, hname, hmem, value, hperm⟩
    have hrepeated := one_lt_length_occurrences hmem hperm
    by_cases heq : name = tagName
    · subst heq
      exact hrefused _ (tagged?_eq_none hrepeated)
    · have htag' : occurrences members' tagName = [tag] := by
        have hsame := occurrences_perm hperm tagName
        rw [occurrences_cons_of_ne heq, htag] at hsame
        exact List.perm_singleton.mp hsame
      have hasked : name ∈ names := (List.mem_cons.mp hname).resolve_left heq
      rw [← occurrences_filter_ne heq] at hrepeated
      rw [hread _ _ (tagged?_object htag'), arrive?_setAside, hbehind,
        fields?_eq_none hasked hrepeated, Option.bind_none, ite_self]

/-- A tag that was found is the only member of its name. -/
theorem occurrences_of_tagged? {tagName : String} {rest : Json}
    (h : tagged? tagName (.object members) = some (tag, rest)) :
    occurrences members tagName = [tag] := by
  unfold tagged? at h
  dsimp only at h
  split at h
  · next found hfound =>
    rw [hfound, (Prod.mk.inj (Option.some.inj (Option.ite_none_right_eq_some.mp h).2)).1]
  · cases h

/-- What an only member says is what the tag says. -/
theorem sayOf?_eq {place? : Json → Option Nat} (h : occurrences members name = [tag]) :
    Part.sayOf? members name place? = place? tag := by
  rw [Part.sayOf?, h]

/-- Behind its tag, a loop of the given kind is read by this. -/
def loopBehindTag? : Nat → Json → Option LoopStatement
  | 0 => listLoop?
  | _ => mapLoop?

/-- A loop is read from what stands behind its tag. -/
theorem loop?_of_tagged? {rest : Json} {kind : Nat}
    (htag : tagged? kindTag tree = if rest.isReadable then some (tag, rest) else none)
    (hkind : tagIndex? arrival loopKinds tag = some kind) :
    loop? arrival tree = arrive? .setAside (loopBehindTag? kind) rest := by
  rw [loop?, htag, arrive?_setAside]
  cases rest.isReadable with
  | false => rfl
  | true => cases kind <;> simp [hkind, loopBehindTag?]

/-- A record without a tag asks for its fields. -/
theorem asksFor_of_mem_records (h : part ∈ Part.records) (arrival : Arrival)
    (members : List (String × Json)) :
    AsksFor (part.read? arrival) members (part.knownNames 0) := by
  obtain ⟨make, hread, -⟩ := readsFields_of_mem_records h arrival
  exact asksFor_of_fields fun members => hread (.object members)

/-- A loop that is read asks for the names of its kind. -/
theorem asksFor_loop {statement : LoopStatement}
    (h : loop? arrival (.object members) = some statement) :
    ∃ kind, Part.loop.kindOf? members = some kind ∧
      AsksFor (loop? arrival) members (Part.loop.knownNames kind) := by
  obtain ⟨⟨tag, rest⟩, htagged, h⟩ := Option.bind_eq_some_iff.mp h
  obtain ⟨kind, hkind, -⟩ := Option.bind_eq_some_iff.mp h
  have htag := occurrences_of_tagged? htagged
  refine ⟨kind, (sayOf?_eq htag).trans (tagIndex?_setAside hkind), ?_⟩
  have hrefused : ∀ tree, tagged? kindTag tree = none → loop? arrival tree = none := by
    intro tree hnone
    rw [loop?, hnone]
    rfl
  -- The fields behind the tag depend on the kind.
  cases kind <;>
    exact asksFor_of_tagged htag hrefused (fun _ _ hfound => loop?_of_tagged? hfound hkind)
      fun _ => rfl

/-- An executable that is read asks for the names of its kind. -/
theorem asksFor_executable {executable : Executable}
    (h : executable? (.object members) = some executable) :
    ∃ kind, Part.executable.kindOf? members = some kind ∧
      AsksFor executable? members (Part.executable.knownNames kind) := by
  obtain ⟨⟨tag, rest⟩, htagged, h⟩ := Option.bind_eq_some_iff.mp h
  obtain ⟨kind, hkind, -⟩ := Option.bind_eq_some_iff.mp h
  have htag := occurrences_of_tagged? htagged
  refine ⟨kind, (sayOf?_eq htag).trans hkind, ?_⟩
  obtain ⟨make, hread, -⟩ := readsFields_behindTag? kind
  rw [Part.knownNames, names_executable, List.map_cons]
  refine asksFor_of_tagged htag (fun tree hnone => ?_)
    (fun _ _ hfound => executable?_of_tagged? hfound hkind) fun members => hread (.object members)
  rw [executable?, hnone]
  rfl

/-- A record that is read asks for the names of its kind, unless it is a binding. -/
theorem asksFor_read? (hpart : part ≠ .binding) {value : part.Value}
    (h : part.read? arrival (.object members) = some value) :
    ∃ kind, part.kindOf? members = some kind ∧
      AsksFor (part.read? arrival) members (part.knownNames kind) := by
  cases part with
  | settings => exact ⟨0, rfl, asksFor_of_fields fun _ => rfl⟩
  | input | output | result | javaAction | signature | task | action | workflow =>
    exact ⟨0, rfl, asksFor_of_mem_records (by decide) arrival members⟩
  | loop => exact asksFor_loop h
  | executable => exact asksFor_executable h
  | binding => exact absurd rfl hpart

end Taskflow.Wire
