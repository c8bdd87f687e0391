import Mathlib.Data.List.Count
import Mathlib.Data.List.Nodup
import Mathlib.Data.Set.List
import Taskflow.Keyword.Registry

/-!
# Keywords that occur more than once

A registry is refused if keywords that are checked together have a text in common, and the refusal
lists such texts. Since different keywords have different texts and each is checked in some group,
this concerns exactly the keywords that were given more than once. The main statement says so, and
what the refusal reports: the first group with such a keyword, and the texts of all of them in this
group, each once, in the order of their second occurrences.
-/

namespace Taskflow

/-- The second occurrence of one item stands in front of the second occurrence of another. -/
def RepeatsBefore {α : Type} [BEq α] (items : List α) (a b : α) : Prop :=
  ∃ front middle back, items = front ++ a :: middle ++ b :: back ∧
    front.count a = 1 ∧ (front ++ a :: middle).count b = 1

section

variable {α β : Type} [BEq α] [LawfulBEq α] [BEq β] [LawfulBEq β] {items : List α} {a b : α}

/-- Of two items one repeats first. -/
theorem RepeatsBefore.asymm (h : RepeatsBefore items a b) : ¬ RepeatsBefore items b a := by
  rintro ⟨front', middle', back', hitems', hb', ha'⟩
  obtain ⟨front, middle, back, hitems, ha, hb⟩ := h
  -- Both second occurrences end a part at the front, and one of these parts contains the other.
  have hpart : front ++ a :: middle <+: items := ⟨b :: back, hitems.symm⟩
  have hpart' : front' ++ b :: middle' <+: items := ⟨a :: back', hitems'.symm⟩
  rcases List.prefix_or_prefix_of_prefix hpart hpart' with hle | hle
  · have hcount := hle.sublist.count_le a
    rw [List.count_append, List.count_cons_self] at hcount
    omega
  · have hcount := hle.sublist.count_le b
    rw [List.count_append, List.count_cons_self] at hcount
    omega

/-- No item repeats before itself. -/
theorem RepeatsBefore.ne (h : RepeatsBefore items a b) : a ≠ b := by
  rintro rfl
  exact h.asymm h

/-- Items repeat in the order of their images. -/
theorem RepeatsBefore.of_map {f : α → β} (hf : Function.Injective f)
    (h : RepeatsBefore (items.map f) (f a) (f b)) : RepeatsBefore items a b := by
  obtain ⟨front, middle, back, hitems, ha, hb⟩ := h
  obtain ⟨part, rest, rfl, hpart, hrest⟩ := List.map_eq_append_iff.mp hitems
  obtain ⟨b', back, rfl, hb', rfl⟩ := List.map_eq_cons_iff.mp hrest
  obtain ⟨front, rest, rfl, rfl, hrest⟩ := List.map_eq_append_iff.mp hpart
  obtain ⟨a', middle, rfl, ha', rfl⟩ := List.map_eq_cons_iff.mp hrest
  obtain rfl := hf ha'
  obtain rfl := hf hb'
  rw [List.count_map_of_injective _ f hf] at ha
  rw [← hpart, List.count_map_of_injective _ f hf] at hb
  exact ⟨front, middle, back, rfl, ha, hb⟩

/-- Items repeat in the order in which they do among some of the items. -/
theorem RepeatsBefore.of_filter {p : α → Bool} (h : RepeatsBefore (items.filter p) a b) :
    RepeatsBefore items a b := by
  obtain ⟨front, middle, back, hitems, ha, hb⟩ := h
  obtain ⟨part, rest, rfl, hpart, hrest⟩ := List.filter_eq_append_iff.mp hitems
  obtain ⟨skipped, back, rfl, hskipped, hpb, rfl⟩ := List.filter_eq_cons_iff.mp hrest
  obtain ⟨front, rest, rfl, rfl, hrest⟩ := List.filter_eq_append_iff.mp hpart
  obtain ⟨skipped', middle, rfl, hskipped', hpa, rfl⟩ := List.filter_eq_cons_iff.mp hrest
  refine ⟨front ++ skipped', middle ++ skipped, back, by simp, ?_, ?_⟩
  · have hnone : skipped'.count a = 0 := List.count_eq_zero.mpr fun hmem => hskipped' a hmem hpa
    rw [List.count_append, hnone, ← List.count_filter hpa, ha]
  · have hnone : skipped.count b = 0 := List.count_eq_zero.mpr fun hmem => hskipped b hmem hpb
    rw [← hpart, List.count_filter hpb] at hb
    simpa [List.count_append, List.count_cons, hnone, Nat.add_assoc, Nat.add_comm,
      Nat.add_left_comm] using hb

end

/-- A listed item has its second occurrence behind those in front. -/
theorem exists_of_mem_repeatedAfter {front rest : List String} {x : String}
    (h : x ∈ repeatedAfter front rest) :
    ∃ before after, rest = before ++ x :: after ∧ (front.reverse ++ before).count x = 1 := by
  induction rest generalizing front with
  | nil => cases h
  | cons head rest ih =>
    have hlater : x ∈ repeatedAfter (head :: front) rest → ∃ before after,
        head :: rest = before ++ x :: after ∧ (front.reverse ++ before).count x = 1 := by
      intro hrest
      obtain ⟨before, after, rfl, hcount⟩ := ih hrest
      exact ⟨head :: before, after, rfl, by simpa using hcount⟩
    unfold repeatedAfter at h
    split at h
    · next hcount =>
      rcases List.mem_cons.mp h with rfl | h
      · exact ⟨[], rest, rfl, by simpa using hcount⟩
      · exact hlater h
    · exact hlater h

/-- Items are listed in the order of their second occurrences. -/
theorem pairwise_repeatedAfter (front rest : List String) :
    (repeatedAfter front rest).Pairwise (RepeatsBefore (front.reverse ++ rest)) := by
  induction rest generalizing front with
  | nil => exact List.Pairwise.nil
  | cons head rest ih =>
    have hlater : (repeatedAfter (head :: front) rest).Pairwise
        (RepeatsBefore (front.reverse ++ head :: rest)) := by
      simpa using ih (head :: front)
    unfold repeatedAfter
    split
    · next hcount =>
      refine List.pairwise_cons.mpr ⟨fun x hx => ?_, hlater⟩
      obtain ⟨before, after, hrest, hx⟩ := exists_of_mem_repeatedAfter hx
      refine ⟨front.reverse, before, after, by simp [hrest], ?_, by simpa using hx⟩
      rw [List.count_reverse, hcount]
    · exact hlater

/-- Repeated items are listed in the order of their second occurrences. -/
theorem pairwise_repeated (texts : List String) :
    (repeated texts).Pairwise (RepeatsBefore texts) :=
  pairwise_repeatedAfter [] texts

/-- A keyword may stand in one of the scopes of a group. -/
def Keyword.IsIn (keyword : Keyword) (group : List Scope) : Prop :=
  ∃ scope ∈ group, scope ∈ keyword.scopes

/-- A keyword occurs more than once and may stand in a group. -/
def Keyword.IsRepeatedIn (keyword : Keyword) (keywords : List Keyword) (group : List Scope) :
    Prop :=
  2 ≤ keywords.count keyword ∧ keyword.IsIn group

/-- The repeated keywords of a group, each once, in the order of their second occurrences. -/
structure ListsRepeated (keywords : List Keyword) (group : List Scope) (found : List Keyword) :
    Prop where
  /-- They are the keywords that are repeated in the group. -/
  mem_iff : ∀ keyword, keyword ∈ found ↔ keyword.IsRepeatedIn keywords group
  /-- None is listed twice. -/
  nodup : found.Nodup
  /-- One stands in front of another if it is the first of them to occur again. -/
  ordered : found.Pairwise (RepeatsBefore keywords)

/-- What is reported of some keywords: the first group that has repeated ones, and the texts of
these. -/
structure RepeatedKeywords.ReportsOn (reported : RepeatedKeywords) (keywords : List Keyword) :
    Prop where
  /-- No group in front of the reported one has a repeated keyword. -/
  first : ∃ front back, validationGroups = front ++ reported.scopes :: back ∧
    ∀ group ∈ front, ∀ keyword : Keyword, ¬ keyword.IsRepeatedIn keywords group
  /-- The reported group has one. -/
  repeats : ∃ keyword : Keyword, keyword.IsRepeatedIn keywords reported.scopes
  /-- The texts of all of them are listed. -/
  texts : ∃ found, reported.texts = found.map Keyword.text ∧
    ListsRepeated keywords reported.scopes found

variable {keywords : List Keyword} {group : List Scope} {keyword : Keyword}

/-- The keywords that repeat in a group can be listed in one way only. -/
theorem ListsRepeated.unique {found found' : List Keyword} (h : ListsRepeated keywords group found)
    (h' : ListsRepeated keywords group found') : found = found' := by
  have hperm : found.Perm found' := (List.perm_ext_iff_of_nodup h.nodup h'.nodup).mpr
    fun keyword => (h.mem_iff keyword).trans (h'.mem_iff keyword).symm
  exact hperm.eq_of_pairwise (fun _ _ _ _ hab hba => absurd hba hab.asymm) h.ordered h'.ordered

/-- The texts of keywords are as distinct as the keywords. -/
theorem Keyword.injective_text : Function.Injective Keyword.text := fun _ _ => text_injective

/-- Every keyword is checked in some group. -/
theorem Keyword.exists_group (keyword : Keyword) :
    ∃ group ∈ validationGroups, keyword.IsIn group := by
  cases keyword <;> simp [validationGroups, IsIn, scopes]

/-- The keywords of a group are those that may stand in it. -/
theorem any_isInScope_iff : (group.any (keyword.isInScope ·)) = true ↔ keyword.IsIn group := by
  simp [Keyword.IsIn, Keyword.isInScope]

/-- The text of a keyword is listed exactly if the keyword is repeated in the group. -/
theorem text_mem_repeatedIn_iff :
    keyword.text ∈ repeatedIn keywords group ↔ keyword.IsRepeatedIn keywords group := by
  rw [repeatedIn, mem_repeated, List.count_map_of_injective _ _ Keyword.injective_text,
    Keyword.IsRepeatedIn, ← any_isInScope_iff]
  by_cases hgroup : group.any (keyword.isInScope ·) = true
  · have hall : (keywords.filter fun k => group.any (k.isInScope ·)).count keyword =
        keywords.count keyword := List.count_filter hgroup
    rw [hall, and_iff_left hgroup]
  · have hnone : (keywords.filter fun k => group.any (k.isInScope ·)).count keyword = 0 :=
      List.count_eq_zero.mpr fun hmem => hgroup (List.mem_filter.mp hmem).2
    rw [hnone]
    simp [hgroup]

/-- The listed texts are those of the repeated keywords of the group. -/
theorem listsRepeated_repeatedIn (keywords : List Keyword) (group : List Scope) :
    ∃ found, repeatedIn keywords group = found.map Keyword.text ∧
      ListsRepeated keywords group found := by
  have hordered := pairwise_repeated
    ((keywords.filter fun k => group.any (k.isInScope ·)).map Keyword.text)
  have htexts : ∀ text ∈ repeatedIn keywords group, text ∈ Set.range Keyword.text := by
    intro text htext
    have hmem := List.count_pos_iff.mp (Nat.lt_of_lt_of_le Nat.zero_lt_two (mem_repeated.mp htext))
    obtain ⟨keyword, _, rfl⟩ := List.mem_map.mp hmem
    exact ⟨keyword, rfl⟩
  obtain ⟨found, hfound⟩ : repeatedIn keywords group ∈ Set.range (List.map Keyword.text) := by
    rw [Set.range_list_map]
    exact htexts
  have hpairs : found.Pairwise (RepeatsBefore keywords) := by
    rw [← repeatedIn, ← hfound, List.pairwise_map] at hordered
    exact hordered.imp fun h => (h.of_map Keyword.injective_text).of_filter
  refine ⟨found, hfound.symm, ?_, hpairs.imp RepeatsBefore.ne, hpairs⟩
  intro keyword
  rw [← text_mem_repeatedIn_iff, ← hfound, List.mem_map_of_injective Keyword.injective_text]

/-- No text is listed for a group exactly if it has no repeated keyword. -/
theorem isEmpty_repeatedIn_iff :
    (repeatedIn keywords group).isEmpty = true ↔
      ∀ keyword : Keyword, ¬ keyword.IsRepeatedIn keywords group := by
  obtain ⟨found, htexts, hlists⟩ := listsRepeated_repeatedIn keywords group
  simp only [htexts, List.isEmpty_map, List.isEmpty_iff, List.eq_nil_iff_forall_not_mem,
    hlists.mem_iff]

namespace Registry

/-- Building is refused with exactly the report on the keywords. -/
theorem build_eq_error_iff {reported : RepeatedKeywords} :
    build keywords = .error reported ↔ reported.ReportsOn keywords := by
  have hfind : ∀ group, (validationGroups.find? fun group => !(repeatedIn keywords group).isEmpty) =
      some group ↔ (∃ keyword : Keyword, keyword.IsRepeatedIn keywords group) ∧
        ∃ front back, validationGroups = front ++ group :: back ∧
          ∀ other ∈ front, ∀ keyword : Keyword, ¬ keyword.IsRepeatedIn keywords other := by
    intro group
    rw [List.find?_eq_some_iff_append]
    simp only [Bool.not_not, isEmpty_repeatedIn_iff, Bool.not_eq_true', ← Bool.not_eq_true,
      not_forall, not_not]
  constructor
  · intro h
    unfold build at h
    split at h
    · next group hgroup =>
      obtain rfl := Except.error.inj h
      obtain ⟨hrepeats, hfirst⟩ := (hfind group).mp hgroup
      exact ⟨hfirst, hrepeats, listsRepeated_repeatedIn keywords group⟩
    · cases h
  · rintro ⟨hfirst, hrepeats, found, htexts, hlists⟩
    obtain ⟨found', htexts', hlists'⟩ := listsRepeated_repeatedIn keywords reported.scopes
    have hreported : repeatedIn keywords reported.scopes = reported.texts := by
      rw [htexts, htexts', hlists.unique hlists']
    rw [build, (hfind reported.scopes).mpr ⟨hrepeats, hfirst⟩]
    dsimp only
    rw [hreported]

/-- A registry is built exactly from keywords without repeats, and it holds them in their order. -/
theorem build_eq_ok_iff {registry : Registry} :
    build keywords = .ok registry ↔ keywords.Nodup ∧ registry = ⟨keywords⟩ := by
  have hnone : (validationGroups.find? fun group => !(repeatedIn keywords group).isEmpty) = none ↔
      keywords.Nodup := by
    simp only [List.find?_eq_none, Bool.not_eq_true', Bool.not_eq_false, isEmpty_repeatedIn_iff,
      List.nodup_iff_count_le_one]
    constructor
    · intro h keyword
      obtain ⟨group, hgroup, hin⟩ := keyword.exists_group
      by_contra hcount
      exact h group hgroup keyword ⟨by omega, hin⟩
    · intro h group _ keyword hrepeated
      have hcount := h keyword
      have htwice := hrepeated.1
      omega
  rw [← hnone]
  unfold build
  split
  · next group hgroup => simp [hgroup]
  · next hgroup => simp [hgroup, eq_comm]

/-- Building a registry is refused exactly if some keyword occurs more than once. The refusal
reports the first group that has such a keyword and the texts of all that it has, each once, in the
order of their second occurrences, and nothing else is ever reported. A registry that is built
holds the given keywords, and no two of them have the same text. -/
theorem build_refuses_repeated (keywords : List Keyword) :
    ((∃ reported, build keywords = .error reported) ↔ ∃ keyword, 2 ≤ keywords.count keyword) ∧
    (∀ reported, build keywords = .error reported ↔ reported.ReportsOn keywords) ∧
    ∀ registry, build keywords = .ok registry →
      registry.keywords = keywords ∧ registry.keywords.Pairwise fun a b => a.text ≠ b.text := by
  refine ⟨?_, fun reported => build_eq_error_iff, fun registry h => ?_⟩
  · constructor
    · rintro ⟨reported, h⟩
      obtain ⟨keyword, hrepeated⟩ := (build_eq_error_iff.mp h).repeats
      exact ⟨keyword, hrepeated.1⟩
    · rintro ⟨keyword, htwice⟩
      cases hbuild : build keywords with
      | error reported => exact ⟨reported, rfl⟩
      | ok registry =>
        have honce := List.nodup_iff_count_le_one.mp (build_eq_ok_iff.mp hbuild).1 keyword
        omega
  · obtain ⟨hnodup, rfl⟩ := build_eq_ok_iff.mp h
    exact ⟨rfl, hnodup.imp fun hne htext => hne (Keyword.text_injective htext)⟩

/-- Keywords of two groups, of which `publish` occurs again before `navigate` does. -/
def publishedTwice : List Keyword :=
  [.navigate, .publish, .results, .publish, .navigate, .publish]

/-- The two repeated keywords are reported in that order for their group, and without the repeats
the others form a registry. -/
theorem build_refuses_repeated_of_publishedTwice :
    RepeatedKeywords.ReportsOn ⟨["publish", "navigate"], [.beforeTask, .afterTask]⟩
        publishedTwice ∧
      build publishedTwice.eraseDups = .ok ⟨[.navigate, .publish, .results]⟩ ∧
      [Keyword.navigate, .publish, .results].Pairwise fun a b => a.text ≠ b.text := by
  have hrefused : build publishedTwice =
      .error ⟨["publish", "navigate"], [.beforeTask, .afterTask]⟩ := by rfl
  have hbuilt : build publishedTwice.eraseDups = .ok ⟨[.navigate, .publish, .results]⟩ := by rfl
  exact ⟨((build_refuses_repeated publishedTwice).2.1 _).mp hrefused, hbuilt,
    ((build_refuses_repeated publishedTwice.eraseDups).2.2 _ hbuilt).2⟩

end Registry

end Taskflow
