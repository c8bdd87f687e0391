import Taskflow.Keyword.Legal
import Taskflow.Proofs.Text.AsciiForm

/-!
# Entries that keywords reach

The check of a map accepts a key by its lower-case form, whereas the lookup of a keyword takes the
key that is spelled as the keyword, or else the first one that differs from it in the case of
ASCII letters only. The main statement says which entries of an accepted map are reached by a
keyword: those spelled as one, and of the others those that stand first among the keys of their
keyword while none of these is spelled as it.
-/

namespace Taskflow

open Text

/-- One of the keywords reaches the entry: its value is the one that the keyword reads. -/
def Mapping.IsReached (entries : Mapping) (legal : List Keyword) (entry : String × Value) : Prop :=
  ∃ keyword ∈ legal, entries.entryNamed? keyword.text = some entry

namespace Keyword

/-- The text of a keyword is ASCII. -/
theorem ascii_text (keyword : Keyword) : ∀ c ∈ keyword.text.toList, c.toNat < 0x80 := by
  have hall : (keyword.text.toList.all fun c => c.toNat < 0x80) = true := by
    cases keyword <;> rfl
  simpa using hall

/-- The text of a keyword has no capitals. -/
theorem asciiLower_text (keyword : Keyword) : asciiLower keyword.text = keyword.text.toList := by
  cases keyword <;> decide

/-- Keywords whose texts differ in case only are the same. -/
theorem eq_of_caselessEq {a b : Keyword} {key : String} (ha : caselessEq key a.text = true)
    (hb : caselessEq key b.text = true) : a = b := by
  rw [caselessEq_iff, asciiLower_text] at ha hb
  exact text_injective (String.toList_injective (ha.symm.trans hb))

/-- A key that is lowered to the text of a keyword matches it, unless it has a Kelvin sign. -/
theorem caselessEq_text {keyword : Keyword} {key : String} (h : lowerCase key = keyword.text)
    (hkelvin : kelvinSign ∉ key.toList) : caselessEq key keyword.text = true := by
  have hascii : ∀ d ∈ (lowerCase key).toList, d.toNat < 0x80 := h ▸ keyword.ascii_text
  rw [caselessEq_iff, asciiLower_text, ← toList_lowerCase_of_ascii hascii hkelvin, h]

end Keyword

namespace Mapping

variable {front back : Mapping} {entry : String × Value} {keyword : String}

/-- Nothing is found under a key exactly if no entry has it. -/
theorem entryAt?_eq_none_iff {entries : Mapping} {key : String} :
    entryAt? entries key = none ↔ ∀ other ∈ entries, other.1 ≠ key := by
  simp [entryAt?, List.find?_eq_none]

/-- An entry is found under its key if that is new. -/
theorem entryAt?_append_cons (hnew : entry.1 ∉ front.keys) :
    entryAt? (front ++ entry :: back) entry.1 = some entry := by
  have hfront : entryAt? front entry.1 = none :=
    entryAt?_eq_none_iff.mpr fun other hmem heq => hnew (heq ▸ List.mem_map_of_mem hmem)
  unfold entryAt? at hfront ⊢
  rw [List.find?_append, hfront]
  simp

/-- An entry that matches a keyword is the first one to do so exactly if none does before it. -/
theorem caselessEntryAt?_append_cons (hnew : entry ∉ front)
    (hmatch : caselessEq entry.1 keyword = true) :
    caselessEntryAt? (front ++ entry :: back) keyword = some entry ↔
      ∀ other ∈ front, caselessEq other.1 keyword = false := by
  unfold caselessEntryAt?
  rw [List.find?_append]
  cases hfound : front.find? fun other => caselessEq other.1 keyword with
  | none =>
    have hfront : ∀ other ∈ front, caselessEq other.1 keyword = false := by
      simpa using List.find?_eq_none.mp hfound
    simpa [hmatch] using hfront
  | some other =>
    have hmem := List.mem_of_find?_eq_some hfound
    have hother : caselessEq other.1 keyword = true := by simpa using List.find?_some hfound
    refine iff_of_false ?_ fun hall => ?_
    · intro heq
      obtain rfl : other = entry := by simpa using heq
      exact hnew hmem
    · rw [hall other hmem] at hother
      cases hother

/-- A keyword names an entry that matches it exactly if the entry is spelled as the keyword, or no
entry is and none matches before it. -/
theorem entryNamed?_append_cons (hnew : entry.1 ∉ front.keys)
    (hmatch : caselessEq entry.1 keyword = true) :
    entryNamed? (front ++ entry :: back) keyword = some entry ↔
      entry.1 = keyword ∨
        (∀ other ∈ front ++ back, other.1 ≠ keyword) ∧
          ∀ other ∈ front, caselessEq other.1 keyword = false := by
  by_cases hexact : entry.1 = keyword
  · subst hexact
    rw [entryNamed?, entryAt?_append_cons hnew]
    exact iff_of_true rfl (.inl rfl)
  · have hnever : entryAt? (front ++ entry :: back) keyword ≠ some entry := fun hfound =>
      hexact (by simpa using List.find?_some hfound)
    have hspelled : entryAt? (front ++ entry :: back) keyword = none ↔
        ∀ other ∈ front ++ back, other.1 ≠ keyword := by
      rw [entryAt?_eq_none_iff]
      simp only [List.mem_append, List.mem_cons]
      constructor
      · intro hall other hmem
        exact hall other (hmem.imp_right .inr)
      · rintro hall other (hmem | rfl | hmem)
        · exact hall other (.inl hmem)
        · exact hexact
        · exact hall other (.inr hmem)
    have hfirst : caselessEntryAt? (front ++ entry :: back) keyword = some entry ↔
        ∀ other ∈ front, caselessEq other.1 keyword = false :=
      caselessEntryAt?_append_cons (fun hmem => hnew (List.mem_map_of_mem hmem)) hmatch
    rw [entryNamed?, Option.or_eq_some_iff, hspelled, hfirst, or_iff_right hnever,
      or_iff_right hexact]

end Mapping

section

variable {legal : List Keyword} {own : Keyword} {key context : String}

/-- A key that passes the check matches one of the keywords, unless it has a Kelvin sign. -/
theorem exists_caselessEq_of_checkKeys {entries : Mapping}
    (hcheck : checkKeys entries legal [] context = .ok ()) (hkey : key ∈ entries.keys)
    (hkelvin : kelvinSign ∉ key.toList) : ∃ own ∈ legal, caselessEq key own.text = true := by
  have hlegal := checkKeys_eq_ok_iff.mp hcheck key hkey
  obtain ⟨own, hown, htext⟩ : ∃ own ∈ legal, own.text = lowerCase key := by
    simpa [legalKeys] using hlegal
  exact ⟨own, hown, Keyword.caselessEq_text htext.symm hkelvin⟩

/-- A key that matches a keyword is spelled as one only if it is spelled as that one. -/
theorem eq_text_iff (hown : own ∈ legal) (hmatch : caselessEq key own.text = true) :
    key = own.text ↔ ∃ keyword ∈ legal, key = keyword.text := by
  constructor
  · exact fun h => ⟨own, hown, h⟩
  · rintro ⟨keyword, _, rfl⟩
    rw [Keyword.eq_of_caselessEq (caselessEq_refl keyword.text) hmatch]

/-- An entry whose key matches a keyword can be reached by that one only. -/
theorem isReached_iff_entryNamed? {entries : Mapping} {entry : String × Value}
    (hown : own ∈ legal) (hmatch : caselessEq entry.1 own.text = true) :
    entries.IsReached legal entry ↔ entries.entryNamed? own.text = some entry := by
  constructor
  · rintro ⟨keyword, _, hnamed⟩
    obtain rfl := Keyword.eq_of_caselessEq (Mapping.mem_of_entryNamed? hnamed).2 hmatch
    exact hnamed
  · exact fun hnamed => ⟨own, hown, hnamed⟩

end

/-- In a map that passes the check, take an entry whose key has no Kelvin sign. A keyword reaches
it exactly if its key is spelled as one of the keywords, or no key before it differs from it in
case only and none behind it that does is spelled as a keyword. -/
theorem isReached_iff {front back : Mapping} {entry : String × Value} {legal : List Keyword}
    {context : String} (hdistinct : (front ++ entry :: back).keys.Nodup)
    (hcheck : checkKeys (front ++ entry :: back) legal [] context = .ok ())
    (hkelvin : kelvinSign ∉ entry.1.toList) :
    Mapping.IsReached (front ++ entry :: back) legal entry ↔
      (∃ keyword ∈ legal, entry.1 = keyword.text) ∨
        (∀ other ∈ front, caselessEq other.1 entry.1 = false) ∧
          ∀ other ∈ back, caselessEq other.1 entry.1 = true →
            ∀ keyword ∈ legal, other.1 ≠ keyword.text := by
  have hkey : entry.1 ∈ Mapping.keys (front ++ entry :: back) := by simp [Mapping.keys]
  obtain ⟨own, hown, hmatch⟩ := exists_caselessEq_of_checkKeys hcheck hkey hkelvin
  have hnew : entry.1 ∉ front.keys := by
    intro hmem
    rw [Mapping.keys, List.map_append, List.map_cons] at hdistinct
    exact (List.nodup_append.mp hdistinct).2.2 _ hmem _ List.mem_cons_self rfl
  have hsame : ∀ key, caselessEq key entry.1 = caselessEq key own.text := by
    intro key
    rw [caselessEq, caselessEq, caselessEq_iff.mp hmatch]
  rw [isReached_iff_entryNamed? hown hmatch, Mapping.entryNamed?_append_cons hnew hmatch,
    eq_text_iff hown hmatch]
  simp only [hsame]
  refine or_congr_right ?_
  constructor
  · rintro ⟨hothers, hfront⟩
    refine ⟨hfront, fun other hmem hcase keyword hkeyword htext => ?_⟩
    exact hothers other (List.mem_append_right _ hmem)
      ((eq_text_iff hown hcase).mpr ⟨keyword, hkeyword, htext⟩)
  · rintro ⟨hfront, hback⟩
    refine ⟨fun other hmem htext => ?_, hfront⟩
    have hcase : caselessEq other.1 own.text = true := htext ▸ caselessEq_refl other.1
    rcases List.mem_append.mp hmem with hmem | hmem
    · rw [hfront other hmem] at hcase
      cases hcase
    · exact hback other hmem hcase own hown htext

/-- A key in capitals is reached if no other key is like it. -/
theorem isReached_of_capitals :
    Mapping.IsReached [("do", .null), ("LOOP", .text "host in hosts")] [.invoke, .loop]
      ("LOOP", .text "host in hosts") := by
  have hdistinct : Mapping.keys [("do", .null), ("LOOP", .text "host in hosts")] |>.Nodup := by
    decide
  have hcheck :
      checkKeys [("do", .null), ("LOOP", .text "host in hosts")] [.invoke, .loop] [] "task" =
        .ok () := by rfl
  have hreached := @isReached_iff [("do", .null)] [] ("LOOP", .text "host in hosts")
    [.invoke, .loop] "task" hdistinct hcheck (by decide)
  refine hreached.mpr (.inr ⟨fun other hmem => ?_, fun other hmem => absurd hmem List.not_mem_nil⟩)
  obtain rfl := List.mem_singleton.mp hmem
  rfl

/-- A key is accepted although another one is read in its place, namely the one that is spelled
as their common keyword. -/
theorem not_isReached_of_capitalized :
    checkKeys [("break", .list [.text "A"]), ("Break", .list [.text "B"])] [.breakOn] [] "task" =
        .ok () ∧
      ¬Mapping.IsReached [("break", .list [.text "A"]), ("Break", .list [.text "B"])] [.breakOn]
        ("Break", .list [.text "B"]) := by
  refine ⟨by rfl, ?_⟩
  rintro ⟨keyword, hmem, hnamed⟩
  obtain rfl := List.mem_singleton.mp hmem
  have hread : Mapping.entryNamed?
      [("break", .list [.text "A"]), ("Break", .list [.text "B"])] Keyword.breakOn.text =
        some ("break", .list [.text "A"]) := by rfl
  rw [hread] at hnamed
  have hkey : "break" = "Break" := congrArg Prod.fst (Option.some.inj hnamed)
  exact absurd hkey (by decide)

end Taskflow
