import Taskflow.Proofs.Loop.Grammar

/-!
# Blanks around the parts of a clause

A clause over a list has blanks around its variable, the word `in` and its expression. Between three
bare words any blanks will do. Around any other expression they count: the word `in` separates only
between two spaces, and only if it does not stand there once more in front. The main statement says
exactly under which blanks a clause is read as the loop that it spells, and that under all others
it is refused.
-/

namespace Taskflow

namespace Text

variable {text front back gap word : List Char} {c : Char}

/-- The words around a blank are those in front of it and those behind it. -/
theorem words_append_cons (h : isBlank c = true) (front back : List Char) :
    words (front ++ c :: back) = words front ++ words back := by
  simp only [words_eq_tokens, tokens]
  rw [List.splitOnP_append_cons front back h, List.filter_append]

/-- Blanks in front of a text are no part of its words. -/
theorem words_append_of_isBlankText (h : isBlankText front = true) :
    words (front ++ text) = words text := by
  induction front with
  | nil => rfl
  | cons c rest ih =>
    obtain ⟨hc, hrest⟩ := Bool.and_eq_true_iff.mp h
    rw [List.cons_append, words_cons_of_isBlank hc, ih hrest]

/-- Blanks between two texts, at least one, divide their words. -/
theorem words_append_gap (hgap : isBlankText gap = true) (hne : gap ≠ []) (front back : List Char) :
    words (front ++ (gap ++ back)) = words front ++ words back := by
  cases gap with
  | nil => exact absurd rfl hne
  | cons c rest =>
    obtain ⟨hc, hrest⟩ := Bool.and_eq_true_iff.mp hgap
    rw [List.cons_append, words_append_cons hc, words_append_of_isBlankText hrest]

/-- Blanks behind a text are no part of its words. -/
theorem words_append_right (h : isBlankText back = true) : words (text ++ back) = words text := by
  by_cases hne : back = []
  · rw [hne, List.append_nil]
  · have hgap := words_append_gap h hne text []
    rwa [List.append_nil, words_nil, List.append_nil] at hgap

/-- A text without blanks is a word of its own. -/
theorem words_eq_singleton (hne : word ≠ []) (h : ∀ c ∈ word, isBlank c = false) :
    words word = [word] := by
  rw [words_eq_tokens, tokens, List.splitOnP_eq_singleton h]
  simp [hne]

/-- A text with a character that is not blank has a word. -/
theorem words_ne_nil (hmem : c ∈ text) (hc : isBlank c = false) : words text ≠ [] := by
  induction text with
  | nil => cases hmem
  | cons d rest ih =>
    by_cases hd : isBlank d = true
    · have hne : c ≠ d := by
        rintro rfl
        simp [hd] at hc
      rw [words_cons_of_isBlank hd]
      exact ih (List.mem_of_ne_of_mem hne hmem)
    · rw [words, if_neg hd]
      split
      · exact List.cons_ne_nil _ _
      · split <;> exact List.cons_ne_nil _ _

/-- On both sides of a blank in a trimmed text there are characters that are not blank. -/
theorem exists_around_of_hasTrimmedEnds (hends : HasTrimmedEnds (front ++ c :: back))
    (hc : isBlank c = true) :
    (∃ d ∈ front, isBlank d = false) ∧ ∃ d ∈ back, isBlank d = false := by
  obtain ⟨hhead, hlast⟩ := hends
  constructor
  · cases front with
    | nil =>
      have hnot := hhead c rfl
      simp [hc] at hnot
    | cons d rest => exact ⟨d, List.mem_cons_self, hhead d rfl⟩
  · rcases List.eq_nil_or_concat back with rfl | ⟨rest, d, rfl⟩
    · have hnot := hlast c (by simp)
      simp [hc] at hnot
    · have htext : front ++ c :: rest.concat d = (front ++ c :: rest) ++ [d] := by simp
      rw [htext] at hlast
      exact ⟨d, by simp, hlast d List.getLast?_concat⟩

/-- A trimmed text of a single word is that word. -/
theorem eq_of_words_eq_singleton (hends : HasTrimmedEnds text) (h : words text = [word]) :
    text = word := by
  by_cases hblank : ∃ c ∈ text, isBlank c = true
  · obtain ⟨c, hmem, hc⟩ := hblank
    obtain ⟨front, back, rfl⟩ := List.append_of_mem hmem
    obtain ⟨⟨d, hd, hdblank⟩, e, he, heblank⟩ := exists_around_of_hasTrimmedEnds hends hc
    have hfront := List.length_pos_of_ne_nil (words_ne_nil hd hdblank)
    have hback := List.length_pos_of_ne_nil (words_ne_nil he heblank)
    have hlength := congrArg List.length h
    rw [words_append_cons hc, List.length_append, List.length_singleton] at hlength
    omega
  · have hnone : ∀ c ∈ text, isBlank c = false := by simpa using hblank
    have hne : text ≠ [] := by
      rintro rfl
      cases h
    rw [words_eq_singleton hne hnone] at h
    exact List.singleton_inj.mp h

/-- A character between two others that are not blank belongs to the core of a text. -/
theorem TrimsTo.mem_of_between {core : List Char} (h : TrimsTo (front ++ c :: back) core)
    (hfront : ∃ d ∈ front, isBlank d = false) (hback : ∃ d ∈ back, isBlank d = false) :
    c ∈ core := by
  obtain ⟨-, left, right, htext, hleft, hright⟩ := h
  obtain ⟨d, hd, hdblank⟩ := hfront
  obtain ⟨e, he, heblank⟩ := hback
  have hdleft : d ∉ left := fun hmem => by simp [hleft d hmem] at hdblank
  have heright : e ∉ right := fun hmem => by simp [hright e hmem] at heblank
  rw [List.append_assoc] at htext
  -- The blanks in front end before the character, and those behind begin after it.
  rcases List.append_eq_append_iff.mp htext with ⟨middle, hleftEq, -⟩ | ⟨middle, rfl, hrest⟩
  · exact absurd (hleftEq ▸ List.mem_append_left middle hd) hdleft
  · rcases List.append_eq_append_iff.mp hrest with ⟨others, -, hrightEq⟩ | ⟨others, rfl, hcons⟩
    · exact absurd (by simp [hrightEq, he]) heright
    · cases others with
      | nil =>
        obtain rfl : c :: back = right := hcons
        exact absurd (List.mem_cons_of_mem c he) heright
      | cons first rest =>
        obtain rfl := (List.cons.inj hcons).1
        simp

/-- What is not blank is not among blanks. -/
theorem not_mem_of_isBlankText (h : isBlankText text = true) (hc : isBlank c = false) :
    c ∉ text := by
  intro hmem
  have hblank := List.all_eq_true.mp h c hmem
  simp [hc] at hblank

/-- No identifier has a space. -/
theorem space_not_mem_of_isIdentifier (h : isIdentifier text = true) : ' ' ∉ text := by
  intro hmem
  have hname := (isIdentifier_iff.mp h).2 ' ' hmem
  exact absurd hname (by decide)

/-- What precedes a character that is not in the front of a text is all of that front and more. -/
theorem exists_middle_of_not_mem {rest before after : List Char} (hc : c ∉ front)
    (h : front ++ rest = before ++ c :: after) :
    ∃ middle, before = front ++ middle ∧ rest = middle ++ c :: after := by
  rcases List.append_eq_append_iff.mp h with hbehind | ⟨others, rfl, hcons⟩
  · exact hbehind
  · cases others with
    | nil => exact ⟨[], by simp, hcons.symm⟩
    | cons first others =>
      obtain rfl := (List.cons.inj hcons).1
      simp at hc

/-- Two characters, the second of which is not in the front of a text, stand behind that front
unless the first one ends it. -/
theorem exists_middle_or_of_not_mem {rest before after : List Char} {d : Char} (hd : d ∉ front)
    (h : front ++ rest = before ++ c :: d :: after) :
    (∃ middle, before = front ++ middle ∧ rest = middle ++ c :: d :: after) ∨
      front = before ++ [c] ∧ rest = d :: after := by
  have happend : front ++ rest = (before ++ [c]) ++ d :: after := by rw [h]; simp
  obtain ⟨middle, hbefore, hrest⟩ := exists_middle_of_not_mem hd happend
  rcases List.eq_nil_or_concat middle with rfl | ⟨others, last, rfl⟩
  · exact .inr ⟨by simpa using hbefore.symm, hrest⟩
  · rw [List.concat_eq_append, ← List.append_assoc] at hbefore
    obtain ⟨hfront, hlast⟩ := List.append_inj' hbefore rfl
    obtain rfl := List.singleton_inj.mp hlast
    exact .inl ⟨others, hfront, by simpa using hrest⟩

end Text

open Text LoopStatement

namespace LoopClause

/-- A clause over a list, written with blanks around its parts. -/
structure SpacedClause where
  /-- The blanks in front of the variable. -/
  left : String
  /-- The variable. -/
  varName : String
  /-- The blanks between the variable and the word `in`. -/
  before : String
  /-- The blanks between the word `in` and the expression. -/
  behind : String
  /-- The expression. -/
  expression : String
  /-- The blanks behind the expression. -/
  right : String
  /-- Nothing else stands in front of the variable. -/
  left_blank : isBlankText left.toList = true
  /-- The variable is an identifier, which may be the word `in`. -/
  varName_isIdentifier : isIdentifier varName.toList = true
  /-- The variable is followed by blanks only. -/
  before_blank : isBlankText before.toList = true
  /-- There is one at least. -/
  before_ne : before ≠ ""
  /-- The word `in` is followed by blanks only. -/
  behind_blank : isBlankText behind.toList = true
  /-- There is one at least. -/
  behind_ne : behind ≠ ""
  /-- The expression is neither empty nor has it blanks at its ends. -/
  expression_isTrimmed : IsTrimmed expression
  /-- Nothing else stands behind the expression. -/
  right_blank : isBlankText right.toList = true

namespace SpacedClause

/-- The clause as it is written. -/
def text (clause : SpacedClause) : String :=
  clause.left ++ clause.varName ++ clause.before ++ "in" ++ clause.behind ++ clause.expression ++
    clause.right

/-- The loop that the clause spells. -/
def statement (clause : SpacedClause) (inParallel : Bool) : LoopStatement :=
  .list clause.varName clause.expression inParallel

/-- The word `in` is the first separator of the clause: a space is on either side of it, and the
variable is not that word between two spaces itself. -/
def IsSeparated (clause : SpacedClause) : Prop :=
  clause.before.toList.getLast? = some ' ' ∧ clause.behind.toList.head? = some ' ' ∧
    ¬ (clause.varName = "in" ∧ clause.left.toList.getLast? = some ' ' ∧
      clause.before.toList.head? = some ' ')

instance : DecidablePred IsSeparated := fun _ => inferInstanceAs (Decidable (_ ∧ _ ∧ ¬ _))

variable {clause : SpacedClause} {inParallel : Bool}

/-- What stands in a clause from the expression on. -/
def ending (clause : SpacedClause) : List Char :=
  clause.behind.toList ++ (clause.expression.toList ++ clause.right.toList)

/-- The characters of a clause, part by part. -/
theorem toList_text (clause : SpacedClause) :
    clause.text.toList =
      clause.left.toList ++ (clause.varName.toList ++
        (clause.before.toList ++ ('i' :: 'n' :: clause.ending))) := by
  simp [text, ending]

/-- The words of a clause are its variable, the word `in` and the words of its expression. -/
theorem words_text (clause : SpacedClause) :
    words clause.text.toList =
      clause.varName.toList :: ['i', 'n'] :: words clause.expression.toList := by
  have hbefore : clause.before.toList ≠ [] := by simpa using clause.before_ne
  have hbehind : clause.behind.toList ≠ [] := by simpa using clause.behind_ne
  obtain ⟨hne, hname⟩ := isIdentifier_iff.mp clause.varName_isIdentifier
  have hvar : words clause.varName.toList = [clause.varName.toList] :=
    words_eq_singleton hne fun c hc => isBlank_of_isNameChar (hname c hc)
  have hin : words ['i', 'n'] = [['i', 'n']] := by decide
  calc words clause.text.toList
      = words (clause.varName.toList ++
          (clause.before.toList ++ (['i', 'n'] ++ clause.ending))) := by
        rw [toList_text, words_append_of_isBlankText clause.left_blank]
        rfl
    _ = words clause.varName.toList ++ (words ['i', 'n'] ++
          words (clause.expression.toList ++ clause.right.toList)) := by
        rw [words_append_gap clause.before_blank hbefore, ending,
          words_append_gap clause.behind_blank hbehind]
    _ = clause.varName.toList :: ['i', 'n'] :: words clause.expression.toList := by
        rw [hvar, hin, words_append_right clause.right_blank]
        rfl

/-- A clause is three bare words exactly if its expression is an identifier. -/
theorem bareWords_text_iff {varName expression : List Char} :
    BareWords clause.text.toList varName expression ↔
      varName = clause.varName.toList ∧ expression = clause.expression.toList ∧
        isIdentifier clause.expression.toList = true := by
  rw [BareWords, ← words_eq_tokens, words_text]
  constructor
  · rintro ⟨hwords, -, hexpression⟩
    obtain ⟨hvar, hrest⟩ := List.cons.inj hwords
    have hsingle := (List.cons.inj hrest).2
    obtain rfl := eq_of_words_eq_singleton clause.expression_isTrimmed.2 hsingle
    exact ⟨hvar.symm, rfl, hexpression⟩
  · rintro ⟨rfl, rfl, hexpression⟩
    obtain ⟨hne, hname⟩ := isIdentifier_iff.mp hexpression
    have hsingle := words_eq_singleton hne fun c hc => isBlank_of_isNameChar (hname c hc)
    exact ⟨by rw [hsingle], clause.varName_isIdentifier, hexpression⟩

/-- Wherever the separator stands in a clause, it is before the variable, which is then that word
itself, or between the variable and the expression, or behind the word `in`. -/
theorem separator_places {before after : List Char}
    (h : clause.text.toList = before ++ separator ++ after) :
    (clause.left.toList = before ++ [' '] ∧ clause.varName = "in" ∧
      clause.before.toList.head? = some ' ') ∨
    (∃ front, before = clause.left.toList ++ (clause.varName.toList ++ front) ∧
      clause.before.toList = front ++ [' '] ∧ clause.ending = ' ' :: after) ∨
    ∃ middle, before = clause.left.toList ++ (clause.varName.toList ++
      (clause.before.toList ++ ('i' :: 'n' :: middle))) := by
  have hi : ∀ blanks : List Char, isBlankText blanks = true → 'i' ∉ blanks :=
    fun blanks hblanks => not_mem_of_isBlankText hblanks (by decide)
  have hseparator : clause.left.toList ++ (clause.varName.toList ++
      (clause.before.toList ++ ('i' :: 'n' :: clause.ending))) =
        before ++ ' ' :: 'i' :: 'n' :: ' ' :: after := by
    rw [← toList_text, h]
    simp [separator]
  have hspace := space_not_mem_of_isIdentifier clause.varName_isIdentifier
  rcases exists_middle_or_of_not_mem (hi _ clause.left_blank) hseparator with
    ⟨behindLeft, rfl, hrest⟩ | ⟨hleft, hrest⟩
  · -- The separator stands behind the variable, for that has no space.
    obtain ⟨behindVar, rfl, hbehindVar⟩ := exists_middle_of_not_mem hspace hrest
    rcases exists_middle_or_of_not_mem (hi _ clause.before_blank) hbehindVar with
      ⟨behindBlanks, rfl, hbehindBlanks⟩ | ⟨hbefore, hin⟩
    · have hletters : ' ' ∉ ['i', 'n'] := by decide
      have hword :
          ['i', 'n'] ++ clause.ending = behindBlanks ++ ' ' :: 'i' :: 'n' :: ' ' :: after :=
        hbehindBlanks
      obtain ⟨middle, rfl, -⟩ := exists_middle_of_not_mem hletters hword
      exact .inr (.inr ⟨middle, rfl⟩)
    · simp only [List.cons.injEq, true_and] at hin
      exact .inr (.inl ⟨behindVar, rfl, hbefore, hin⟩)
  · -- The separator ends in the blanks behind the variable, so the variable is the word `in`.
    left
    have hrest' : clause.varName.toList ++ (clause.before.toList ++ ('i' :: 'n' :: clause.ending)) =
        ['i', 'n'] ++ ' ' :: after := hrest
    obtain ⟨middle, hin, hblanks⟩ := exists_middle_of_not_mem hspace hrest'
    cases hgap : clause.before.toList with
    | nil => exact absurd (by simpa using hgap) clause.before_ne
    | cons first others =>
      have hblank := clause.before_blank
      rw [hgap] at hblanks hblank
      obtain ⟨hfirst, -⟩ := Bool.and_eq_true_iff.mp hblank
      cases middle with
      | nil =>
        obtain rfl := (List.cons.inj hblanks).1
        refine ⟨hleft, String.toList_inj.mp ?_, rfl⟩
        rw [List.append_nil] at hin
        exact hin.symm
      | cons other middle =>
        obtain rfl := (List.cons.inj hblanks).1
        have hletters : isIdentifier ['i', 'n'] = true := by decide
        have hmem : first ∈ ['i', 'n'] := by rw [hin]; simp
        have hnot := isBlank_of_isNameChar ((isIdentifier_iff.mp hletters).2 first hmem)
        simp [hnot] at hfirst

/-- Where the word `in` is the first separator, it divides the clause. -/
theorem firstCut_of_isSeparated (h : clause.IsSeparated) :
    ∃ front behind, clause.before.toList = front ++ [' '] ∧
      clause.behind.toList = ' ' :: behind ∧
      FirstCut separator clause.text.toList
        (clause.left.toList ++ (clause.varName.toList ++ front))
        (behind ++ (clause.expression.toList ++ clause.right.toList)) := by
  obtain ⟨hlast, hhead, hnot⟩ := h
  obtain ⟨front, hbefore⟩ := List.getLast?_eq_some_iff.mp hlast
  obtain ⟨behind, hbehind⟩ := List.head?_eq_some_iff.mp hhead
  refine ⟨front, behind, hbefore, hbehind, ?_, fun before' after' h' => ?_⟩
  · rw [toList_text, ending, hbefore, hbehind]
    simp [separator]
  · rcases separator_places h' with
      ⟨hleft, hvar, hspace⟩ | ⟨front', rfl, hfront', -⟩ | ⟨middle, rfl⟩
    · exact absurd ⟨hvar, by simp [hleft], hspace⟩ hnot
    · have hlength := congrArg List.length (hbefore.symm.trans hfront')
      simp only [List.length_append, List.length_singleton] at hlength ⊢
      omega
    · simp only [hbefore, List.length_append]
      omega

/-- A clause is not blank. -/
theorem notBlank_text (clause : SpacedClause) : isBlankText clause.text.toList = false := by
  refine Bool.eq_false_iff.mpr fun hblank => ?_
  have hwords := words_text clause
  rw [words_eq_nil hblank] at hwords
  cases hwords

/-- A clause whose expression is an identifier is read as the loop that it spells. -/
theorem read_of_isIdentifier (h : isIdentifier clause.expression.toList = true)
    (inParallel : Bool) :
    read clause.text inParallel = .ok (some (clause.statement inParallel)) := by
  have hwords : BareWords clause.text.toList clause.varName.toList clause.expression.toList :=
    bareWords_text_iff.mpr ⟨rfl, rfl, h⟩
  have hmeans : Means clause.text.toList inParallel _ := .bareWords hwords
  have hread := read_eq_of_means hmeans
  rwa [String.ofList_toList, String.ofList_toList] at hread

/-- A clause whose expression is no identifier is no three bare words. -/
theorem not_bareWords_text (h : ¬ isIdentifier clause.expression.toList = true)
    (varName expression : List Char) : ¬ BareWords clause.text.toList varName expression :=
  fun hwords => h (bareWords_text_iff.mp hwords).2.2

/-- The variable is what is left of the part in front of the separator. -/
theorem trimsTo_varName {front : List Char} (hbefore : clause.before.toList = front ++ [' ']) :
    TrimsTo (clause.left.toList ++ (clause.varName.toList ++ front)) clause.varName.toList := by
  refine ⟨hasTrimmedEnds_of_isIdentifier clause.varName_isIdentifier, clause.left.toList, front,
    by simp, List.all_eq_true.mp clause.left_blank, fun c hc => ?_⟩
  exact List.all_eq_true.mp clause.before_blank c (by simp [hbefore, hc])

/-- The expression is what is left of the part behind the separator. -/
theorem trimsTo_expression {behind : List Char} (hbehind : clause.behind.toList = ' ' :: behind) :
    TrimsTo (behind ++ (clause.expression.toList ++ clause.right.toList))
      clause.expression.toList := by
  refine ⟨clause.expression_isTrimmed.2, behind, clause.right.toList, by simp, fun c hc => ?_,
    List.all_eq_true.mp clause.right_blank⟩
  exact List.all_eq_true.mp clause.behind_blank c (by simp [hbehind, hc])

/-- Where the word `in` is the first separator, the clause is read as the loop that it spells. -/
theorem read_of_isSeparated (h : clause.IsSeparated) (inParallel : Bool) :
    read clause.text inParallel = .ok (some (clause.statement inParallel)) := by
  by_cases hidentifier : isIdentifier clause.expression.toList = true
  · exact read_of_isIdentifier hidentifier inParallel
  · obtain ⟨front, behind, hbefore, hbehind, hcut⟩ := firstCut_of_isSeparated h
    have hdivided : Divides clause.text.toList _ _ :=
      ⟨clause.notBlank_text, not_bareWords_text hidentifier,
        .separated hcut (trimsTo_expression hbehind)⟩
    have hfilled : clause.expression.toList ≠ [] := by
      simpa using clause.expression_isTrimmed.1
    have hmeans : Means clause.text.toList inParallel _ :=
      .bound hdivided (.element (trimsTo_varName hbefore) clause.varName_isIdentifier) hfilled
    have hread := read_eq_of_means hmeans
    rwa [Binder.statement, String.ofList_toList, String.ofList_toList] at hread

/-- The core of what goes on behind the word `in` of a clause is no identifier. -/
theorem not_isIdentifier_of_trimsTo {core : List Char} (middle : List Char)
    (h : TrimsTo (clause.left.toList ++ (clause.varName.toList ++
      (clause.before.toList ++ ('i' :: 'n' :: middle)))) core) : isIdentifier core = false := by
  -- The blanks behind the variable are in the core.
  cases hbefore : clause.before.toList with
  | nil => exact absurd (by simpa using hbefore) clause.before_ne
  | cons blank others =>
    have hblank : isBlank blank = true :=
      List.all_eq_true.mp clause.before_blank blank (by simp [hbefore])
    obtain ⟨hne, hname⟩ := isIdentifier_iff.mp clause.varName_isIdentifier
    obtain ⟨first, hfirst⟩ := List.exists_mem_of_ne_nil _ hne
    have hmem : blank ∈ core := by
      rw [hbefore, List.cons_append, ← List.append_assoc] at h
      refine h.mem_of_between ⟨first, by simp [hfirst], ?_⟩ ⟨'i', by simp, by decide⟩
      exact isBlank_of_isNameChar (hname first hfirst)
    refine Bool.eq_false_iff.mpr fun hcore => ?_
    have hnot := isBlank_of_isNameChar ((isIdentifier_iff.mp hcore).2 blank hmem)
    simp [hblank] at hnot

/-- What goes on behind the word `in` of a clause binds nothing. -/
theorem not_binds_behind (clause : SpacedClause) (middle : List Char) (binder : Binder) :
    ¬ Binds (clause.left.toList ++ (clause.varName.toList ++
      (clause.before.toList ++ ('i' :: 'n' :: middle)))) binder := by
  intro hbinds
  cases hbinds with
  | element htrim hname => simp [not_isIdentifier_of_trimsTo middle htrim] at hname
  | @entry first second keyName valueName htext honce hfirst hsecond hkey hvalue =>
    -- A comma stands behind the word `in` too, so that word is in the first of the two parts.
    have hcomma : ∀ blanks : List Char, isBlankText blanks = true → ',' ∉ blanks :=
      fun blanks hblanks => not_mem_of_isBlankText hblanks (by decide)
    have hvar := comma_not_mem_of_isIdentifier clause.varName_isIdentifier
    have hfront : ',' ∉ clause.left.toList ++ (clause.varName.toList ++
        (clause.before.toList ++ ['i', 'n'])) := by
      simp [hcomma _ clause.left_blank, hcomma _ clause.before_blank, hvar]
    have hparts : clause.left.toList ++ (clause.varName.toList ++
        (clause.before.toList ++ ['i', 'n'])) ++ middle = first ++ ',' :: second := by
      rw [← htext]
      simp
    obtain ⟨others, rfl, -⟩ := exists_middle_of_not_mem hfront hparts
    have hcore : isIdentifier keyName = false :=
      not_isIdentifier_of_trimsTo others (by simpa using hfirst)
    simp [hcore] at hkey

/-- Blanks bind nothing. -/
theorem not_binds_of_isBlankText {text : List Char} (h : isBlankText text = true)
    (binder : Binder) : ¬ Binds text binder := by
  intro hbinds
  cases hbinds with
  | @element varName htrim hname =>
    obtain ⟨hne, hchars⟩ := isIdentifier_iff.mp hname
    obtain ⟨first, hfirst⟩ := List.exists_mem_of_ne_nil _ hne
    obtain ⟨-, front, back, rfl, -⟩ := htrim
    exact not_mem_of_isBlankText h (isBlank_of_isNameChar (hchars first hfirst)) (by simp [hfirst])
  | entry htext => exact not_mem_of_isBlankText h (by decide) (by simp [htext] : ',' ∈ text)

/-- A separator between the variable and the expression is the first one only if the clause is
separated there. -/
theorem isSeparated_of_firstCut {front after : List Char}
    (hbefore : clause.before.toList = front ++ [' ']) (hending : clause.ending = ' ' :: after)
    (hfirst : ∀ before' after', clause.text.toList = before' ++ separator ++ after' →
      (clause.left.toList ++ (clause.varName.toList ++ front)).length ≤ before'.length) :
    clause.IsSeparated := by
  refine ⟨by simp [hbefore], ?_, ?_⟩
  · cases hbehind : clause.behind.toList with
    | nil => exact absurd (by simpa using hbehind) clause.behind_ne
    | cons first others =>
      rw [ending, hbehind] at hending
      obtain rfl := (List.cons.inj hending).1
      rfl
  · rintro ⟨hvar, hspace, hhead⟩
    -- The variable is the word `in` between two spaces, so it is a separator further in front.
    obtain ⟨blanks, hleft⟩ := List.getLast?_eq_some_iff.mp hspace
    obtain ⟨others, hothers⟩ := List.head?_eq_some_iff.mp hhead
    have hlength := hfirst blanks (others ++ ('i' :: 'n' :: clause.ending)) (by
      rw [toList_text, hleft, hvar, hothers]
      simp [separator])
    simp only [hleft, List.length_append, List.length_singleton] at hlength
    omega

/-- Unless the word `in` is the first separator, what stands in front of the separator of a clause
binds nothing. -/
theorem not_binds_of_parts {text expression : List Char} (h : ¬ clause.IsSeparated)
    (hparts : Parts clause.text.toList text expression) (binder : Binder) :
    ¬ Binds text binder := by
  cases hparts with
  | bare hnone =>
    rw [toList_text]
    exact clause.not_binds_behind clause.ending binder
  | separated hcut htrim =>
    obtain ⟨htext, hfirst⟩ := hcut
    rcases separator_places htext with ⟨hleft, -⟩ | ⟨front, rfl, hbefore, hending⟩ | ⟨middle, rfl⟩
    · have hblank := clause.left_blank
      rw [hleft, isBlankText, List.all_append, Bool.and_eq_true] at hblank
      exact not_binds_of_isBlankText hblank.1 binder
    · exact absurd (isSeparated_of_firstCut hbefore hending hfirst) h
    · exact clause.not_binds_behind middle binder

/-- Any other clause is refused with what stands in front of its separator. -/
theorem read_of_not_isSeparated (hexpression : ¬ isIdentifier clause.expression.toList = true)
    (h : ¬ clause.IsSeparated) (inParallel : Bool) :
    read clause.text inParallel =
      .error (.characterRules (.ofList (trim (splitClause clause.text.toList).1))) := by
  have hparts := parts_splitClause clause.text.toList
  have hdivided : Divides clause.text.toList _ _ :=
    ⟨clause.notBlank_text, not_bareWords_text hexpression, hparts⟩
  exact read_eq_of_means (.unbound hdivided (not_binds_of_parts h hparts) (trimsTo_trim _))

end SpacedClause

/-- A clause with blanks around its parts is read as the loop that it spells exactly if its
expression is an identifier or the word `in` is its first separator, with a space on either side.
Otherwise it is refused, and the fault names what stands in front of the first separator. -/
theorem read_spaced_iff (clause : SpacedClause) (inParallel : Bool) :
    (read clause.text inParallel = .ok (some (clause.statement inParallel)) ↔
      isIdentifier clause.expression.toList = true ∨ clause.IsSeparated) ∧
    (read clause.text inParallel = .ok (some (clause.statement inParallel)) ∨
      read clause.text inParallel =
        .error (.characterRules (.ofList (trim (splitClause clause.text.toList).1)))) := by
  by_cases hexpression : isIdentifier clause.expression.toList = true
  · have hread := SpacedClause.read_of_isIdentifier hexpression inParallel
    exact ⟨iff_of_true hread (.inl hexpression), .inl hread⟩
  · by_cases hseparated : clause.IsSeparated
    · have hread := SpacedClause.read_of_isSeparated hseparated inParallel
      exact ⟨iff_of_true hread (.inr hseparated), .inl hread⟩
    · have hread := SpacedClause.read_of_not_isSeparated hexpression hseparated inParallel
      refine ⟨iff_of_false (fun hok => ?_) (by simp [hexpression, hseparated]), .inr hread⟩
      rw [hread] at hok
      cases hok

/-- A clause with tabs, line feeds and spaces between its parts, whose variable is the word `in`. -/
def mixedClause : SpacedClause where
  left := "\n\t"
  varName := "in"
  before := "\t "
  behind := " \n"
  expression := "rows in f(y)"
  right := " \t"
  left_blank := by decide
  varName_isIdentifier := by decide
  before_blank := by decide
  before_ne := by decide
  behind_blank := by decide
  behind_ne := by decide
  expression_isTrimmed := by decide
  right_blank := by decide

/-- Where spaces stand next to the word `in`, it does not matter which blanks are around them. -/
theorem read_spaced_of_mixedClause :
    mixedClause.IsSeparated ∧
      read "\n\tin\t in \nrows in f(y) \t" true = .ok (some (.list "in" "rows in f(y)" true)) := by
  have hseparated : mixedClause.IsSeparated := by decide
  exact ⟨hseparated, (read_spaced_iff mixedClause true).1.mpr (.inr hseparated)⟩

/-- A clause with a tab in front of the word `in`. -/
def tabbedClause : SpacedClause where
  left := ""
  varName := "x"
  before := "\t"
  behind := " "
  expression := "f(y)"
  right := ""
  left_blank := by decide
  varName_isIdentifier := by decide
  before_blank := by decide
  before_ne := by decide
  behind_blank := by decide
  behind_ne := by decide
  expression_isTrimmed := by decide
  right_blank := by decide

/-- The blanks around the parts of a clause do matter: with a tab in front of the word `in` it is
refused. -/
theorem blanks_matter_of_tabbedClause :
    tabbedClause.text = "x\tin f(y)" ∧
      read "x\tin f(y)" false = .error (.characterRules "x\tin f(y)") ∧
      ¬ ∀ (clause : SpacedClause) (inParallel : Bool),
        read clause.text inParallel = .ok (some (clause.statement inParallel)) := by
  have hrefused : read "x\tin f(y)" false = .error (.characterRules "x\tin f(y)") :=
    faultOf_eq_some_iff.mp (by decide)
  refine ⟨by decide, hrefused, fun hall => ?_⟩
  have hread : read "x\tin f(y)" false = .ok (some (.list "x" "f(y)" false)) :=
    hall tabbedClause false
  rw [hrefused] at hread
  cases hread

/-- Between bare words the blanks do not matter. -/
example : read "x\tin\nrows" false = .ok (some (.list "x" "rows" false)) := by rfl

/-- A variable that is the word `in` between two spaces is taken for the separator. -/
example : faultOf (read " in in f(y)" false) = some (.characterRules "") := by decide

end LoopClause

end Taskflow
