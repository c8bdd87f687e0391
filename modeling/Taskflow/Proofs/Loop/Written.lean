import Taskflow.Proofs.Loop.Spacing

/-!
# Writing a statement and reading it back

A statement that was read from a clause is canonical, and its expression is a part of that clause.
Written with single spaces, a canonical statement is read back as it was, whatever its names and
its expression look like. The main statement joins both: exactly the canonical statements can be
read, and reading what was written changes nothing.
-/

namespace Taskflow

namespace Text

variable {text core word : List Char}

/-- A word is a part of the text. -/
theorem infix_of_mem_words {text : List Char} (h : word ∈ words text) : word <:+: text := by
  by_cases hblank : ∃ c ∈ text, isBlank c = true
  · -- The words on either side of a blank are words of a shorter text.
    obtain ⟨c, hmem, hc⟩ := hblank
    obtain ⟨front, back, htext⟩ := List.append_of_mem hmem
    have hlength : text.length = front.length + (back.length + 1) := by simp [htext]
    have hfront : front <:+: text := ⟨[], c :: back, by simp [htext]⟩
    have hback : back <:+: text := ⟨front ++ [c], [], by simp [htext]⟩
    rw [htext, words_append_cons hc] at h
    rcases List.mem_append.mp h with h | h
    · exact (infix_of_mem_words h).trans hfront
    · exact (infix_of_mem_words h).trans hback
  · have hnone : ∀ c ∈ text, isBlank c = false := by simpa using hblank
    by_cases hne : text = []
    · subst hne
      cases h
    · rw [words_eq_singleton hne hnone] at h
      obtain rfl := List.mem_singleton.mp h
      exact List.infix_rfl
termination_by text.length

/-- The empty text is blank. -/
theorem isBlankText_empty : isBlankText "".toList = true := by decide

/-- A text of one space is blank. -/
theorem isBlankText_space : isBlankText " ".toList = true := by decide

/-- A text of one space is not empty. -/
theorem space_ne_empty : " " ≠ "" := by decide

/-- The core of a text is a part of it. -/
theorem TrimsTo.isInfix (h : TrimsTo text core) : core <:+: text := by
  obtain ⟨-, front, back, rfl, -⟩ := h
  exact List.infix_append front core back

end Text

open Text

/-- The statement with another choice of parallelism. -/
def LoopStatement.withParallel (inParallel : Bool) : LoopStatement → LoopStatement
  | .list varName expression _ => .list varName expression inParallel
  | .mapFor keyName valueName expression _ => .mapFor keyName valueName expression inParallel

namespace LoopClause

variable {clause : String} {statement : LoopStatement} {inParallel : Bool}

/-- The expression of a clause is a part of it. -/
theorem Parts.isInfix {clause text expression : List Char} (h : Parts clause text expression) :
    expression <:+: clause := by
  cases h with
  | separated hcut htrim =>
    obtain ⟨rfl, -⟩ := hcut
    exact htrim.isInfix.trans (List.suffix_append _ _).isInfix
  | bare _ => exact List.nil_infix

/-- A statement runs over the expression that its names are bound over. -/
theorem Binder.expression_statement (binder : Binder) (expression : List Char) :
    (binder.statement expression inParallel).expression.toList = expression := by
  cases binder <;> exact String.toList_ofList

/-- The expression of a statement is a part of the clause that it was read from. -/
theorem infix_of_read_eq_ok (h : read clause inParallel = .ok (some statement)) :
    statement.expression.toList <:+: clause.toList := by
  cases read_eq_iff_means.mp h with
  | @bareWords varName expression hwords =>
    have hmem : expression ∈ words clause.toList := by
      rw [words_eq_tokens, hwords.1]
      simp
    rw [LoopStatement.expression, String.toList_ofList]
    exact infix_of_mem_words hmem
  | bound hdivided hbinds hfilled =>
    rw [Binder.expression_statement]
    exact hdivided.parts.isInfix

/-- A loop over a list is written with a space on either side of the word `in`. -/
def writtenClause {varName expression : String} (hvar : isIdentifier varName.toList = true)
    (hexpression : IsTrimmed expression) : SpacedClause where
  left := ""
  varName := varName
  before := " "
  behind := " "
  expression := expression
  right := ""
  left_blank := isBlankText_empty
  varName_isIdentifier := hvar
  before_blank := isBlankText_space
  before_ne := space_ne_empty
  behind_blank := isBlankText_space
  behind_ne := space_ne_empty
  expression_isTrimmed := hexpression
  right_blank := isBlankText_empty

/-- A written loop over a list is read back. -/
theorem read_write_list {varName expression : String} {written : Bool}
    (hvar : isIdentifier varName.toList = true) (hexpression : IsTrimmed expression)
    (inParallel : Bool) :
    read (write (.list varName expression written)) inParallel =
      .ok (some (.list varName expression inParallel)) := by
  have hseparated : (writtenClause hvar hexpression).IsSeparated := by
    simp [SpacedClause.IsSeparated, writtenClause]
  have hread := SpacedClause.read_of_isSeparated hseparated inParallel
  have htext :
      (writtenClause hvar hexpression).text = write (.list varName expression written) := by
    refine String.toList_inj.mp ?_
    simp [SpacedClause.text, writtenClause, write]
  rwa [htext] at hread

/-- Two identifiers with a comma between them bind an entry. -/
theorem binds_entry {keyName valueName : List Char} (hkey : isIdentifier keyName = true)
    (hvalue : isIdentifier valueName = true) :
    Binds (keyName ++ ',' :: valueName) (.entry keyName valueName) := by
  have honce : (keyName ++ ',' :: valueName).count ',' = 1 := by
    rw [List.count_append, List.count_cons_self,
      List.count_eq_zero.mpr (comma_not_mem_of_isIdentifier hkey),
      List.count_eq_zero.mpr (comma_not_mem_of_isIdentifier hvalue)]
  have htrim : ∀ name : List Char, isIdentifier name = true → TrimsTo name name :=
    fun name hname => ⟨hasTrimmedEnds_of_isIdentifier hname, [], [], by simp⟩
  exact .entry rfl honce (htrim _ hkey) (htrim _ hvalue) hkey hvalue

/-- The separator is first where no space is in front of it. -/
theorem firstCut_of_not_mem {text : List Char} (h : ' ' ∉ text) (rest : List Char) :
    FirstCut separator (text ++ separator ++ rest) text rest := by
  refine ⟨rfl, fun before after hsplit => ?_⟩
  rw [List.append_assoc, List.append_assoc] at hsplit
  obtain ⟨middle, rfl, -⟩ := exists_middle_of_not_mem h hsplit
  simp

/-- With a comma in its first word a clause is no three bare words. -/
theorem not_bareWords_of_comma {text rest : List Char} (hcomma : ',' ∈ text)
    (hblank : ∀ c ∈ text, isBlank c = false) (varName expression : List Char) :
    ¬ BareWords (text ++ separator ++ rest) varName expression := by
  rintro ⟨hwords, hvar, -⟩
  have hspace : isBlank ' ' = true := by decide
  rw [← words_eq_tokens, List.append_assoc, separator, List.cons_append, words_append_cons hspace,
    words_eq_singleton (List.ne_nil_of_mem hcomma) hblank] at hwords
  obtain rfl := (List.cons.inj hwords).1
  exact comma_not_mem_of_isIdentifier hvar hcomma

/-- A written loop over a map is read back. -/
theorem read_write_mapFor {keyName valueName expression : String} {written : Bool}
    (hkey : isIdentifier keyName.toList = true) (hvalue : isIdentifier valueName.toList = true)
    (hexpression : IsTrimmed expression) (inParallel : Bool) :
    read (write (.mapFor keyName valueName expression written)) inParallel =
      .ok (some (.mapFor keyName valueName expression inParallel)) := by
  have hbinds := binds_entry hkey hvalue
  have hcomma : ',' ∈ keyName.toList ++ ',' :: valueName.toList := by simp
  have hspace : ' ' ∉ keyName.toList ++ ',' :: valueName.toList := by
    simp [space_not_mem_of_isIdentifier hkey, space_not_mem_of_isIdentifier hvalue]
  have hblank : ∀ c ∈ keyName.toList ++ ',' :: valueName.toList, isBlank c = false := by
    intro c hc
    rcases List.mem_append.mp hc with hc | hc
    · exact isBlank_of_isNameChar ((isIdentifier_iff.mp hkey).2 c hc)
    · rcases List.mem_cons.mp hc with rfl | hc
      · decide
      · exact isBlank_of_isNameChar ((isIdentifier_iff.mp hvalue).2 c hc)
  have htext : (write (.mapFor keyName valueName expression written)).toList =
      keyName.toList ++ ',' :: valueName.toList ++ separator ++ expression.toList := by
    simp [write, separator]
  have hdivided : Divides (keyName.toList ++ ',' :: valueName.toList ++ separator ++
      expression.toList) (keyName.toList ++ ',' :: valueName.toList) expression.toList := {
    notBlank := Bool.eq_false_iff.mpr fun h =>
      not_mem_of_isBlankText h (by decide : isBlank ',' = false) (by simp)
    notWords := not_bareWords_of_comma hcomma hblank
    parts := .separated (firstCut_of_not_mem hspace expression.toList)
      ⟨hexpression.2, [], [], by simp⟩
  }
  rw [← htext] at hdivided
  have hfilled : expression.toList ≠ [] := by simpa using hexpression.1
  have hmeans : Means (write (.mapFor keyName valueName expression written)).toList inParallel
      (.ok (some (Binder.statement (.entry keyName.toList valueName.toList) expression.toList
        inParallel))) := .bound hdivided hbinds hfilled
  have hread := read_eq_of_means hmeans
  rwa [Binder.statement, String.ofList_toList, String.ofList_toList, String.ofList_toList] at hread

/-- A canonical statement is read back from its written form. -/
theorem read_write (h : statement.Canonical) (inParallel : Bool) :
    read (write statement) inParallel = .ok (some (statement.withParallel inParallel)) := by
  cases statement with
  | list varName expression written => exact read_write_list h.1 h.2 inParallel
  | mapFor keyName valueName expression written =>
    exact read_write_mapFor h.1 h.2.1 h.2.2 inParallel

/-- A statement keeps the choice of parallelism that it was made with. -/
theorem withParallel_isParallel (statement : LoopStatement) :
    statement.withParallel statement.isParallel = statement := by
  cases statement <;> rfl

/-- What is read from a clause is canonical, parallel as the keyword says and runs over a part of
the clause, and it is read back from its written form under either choice. The canonical statements
are exactly those that can be read, each of them from its written form. -/
theorem statements_read_back (statement : LoopStatement) :
    (∀ clause inParallel, read clause inParallel = .ok (some statement) →
      statement.isParallel = inParallel ∧ statement.Canonical ∧
        statement.expression.toList <:+: clause.toList ∧
        ∀ again, read (write statement) again = .ok (some (statement.withParallel again))) ∧
    (statement.Canonical →
      read (write statement) statement.isParallel = .ok (some statement)) ∧
    ((∃ clause inParallel, read clause inParallel = .ok (some statement)) ↔
      statement.Canonical) := by
  have hback : statement.Canonical →
      read (write statement) statement.isParallel = .ok (some statement) := by
    intro hcanonical
    have hread := read_write hcanonical statement.isParallel
    rwa [withParallel_isParallel] at hread
  refine ⟨fun clause inParallel hread => ?_, hback, ?_⟩
  · obtain ⟨hparallel, hcanonical⟩ := canonical_of_read_eq_ok hread
    exact ⟨hparallel, hcanonical, infix_of_read_eq_ok hread, read_write hcanonical⟩
  · constructor
    · rintro ⟨clause, inParallel, hread⟩
      exact (canonical_of_read_eq_ok hread).2
    · exact fun hcanonical => ⟨_, _, hback hcanonical⟩

/-- A loop over the entries of a map that are bound to the word `in` and to another name is read
back, although its expression looks like a clause of its own. -/
theorem statements_read_back_of_nestedClause :
    read "in ,\tv in  k, in in in x " true = .ok (some (.mapFor "in" "v" "k, in in in x" true)) ∧
      read "in,v in k, in in in x" false = .ok (some (.mapFor "in" "v" "k, in in in x" false)) := by
  have hread : read "in ,\tv in  k, in in in x " true =
      .ok (some (.mapFor "in" "v" "k, in in in x" true)) := by rfl
  exact ⟨hread, (((statements_read_back _).1 _ _ hread).2.2.2 false)⟩

end LoopClause

end Taskflow
