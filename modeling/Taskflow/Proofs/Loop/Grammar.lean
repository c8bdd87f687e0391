import Mathlib.Data.List.TakeWhile
import Taskflow.Proofs.Loop.Valid

/-!
# The grammar of loop clauses

What clauses mean, said without the steps by which they are read: a blank clause means no loop,
three bare words mean a loop over a list whatever blanks are between them, and in any other clause
the first separator divides what is bound from the expression. The main statement says that a
clause is read as an outcome exactly if the grammar gives it that meaning.
-/

namespace Taskflow

namespace Text

/-- The runs of characters between the blanks of a text. -/
def tokens (text : List Char) : List (List Char) :=
  (text.splitOnP isBlank).filter fun run => !run.isEmpty

/-- The words of a text are the runs between its blanks. -/
theorem words_eq_tokens (text : List Char) : words text = tokens text := by
  induction text with
  | nil => rfl
  | cons c rest ih =>
    rw [tokens, List.splitOnP_cons_eq_if_modifyHead]
    by_cases hc : isBlank c = true
    · rw [words_cons_of_isBlank hc, if_pos hc, ih]
      rfl
    · rw [words, if_neg hc, if_neg hc, ih, tokens]
      -- Whether the character begins a word of its own depends on the one behind it.
      cases rest with
      | nil => simp [List.splitOnP_nil]
      | cons d others =>
        obtain ⟨run, runs, hruns⟩ :=
          List.exists_cons_of_ne_nil (List.splitOnP_ne_nil isBlank others)
        rw [List.splitOnP_cons_eq_if_modifyHead]
        by_cases hd : isBlank d = true
        · simp [hd, hruns]
        · simp [hd, hruns]

/-- A blank text has no words. -/
theorem words_eq_nil {text : List Char} (h : isBlankText text = true) : words text = [] := by
  induction text with
  | nil => rfl
  | cons c rest ih =>
    obtain ⟨hc, hrest⟩ := Bool.and_eq_true_iff.mp h
    rw [words_cons_of_isBlank hc]
    exact ih hrest

/-- A text is its core with nothing but blanks around it, and the core has none at its ends. -/
def TrimsTo (text core : List Char) : Prop :=
  HasTrimmedEnds core ∧ ∃ front back, text = front ++ core ++ back ∧
    (∀ c ∈ front, isBlank c = true) ∧ ∀ c ∈ back, isBlank c = true

/-- A text that does not begin with a blank keeps its front. -/
theorem trimStart_eq_self {text : List Char} (h : ∀ c ∈ text.head?, isBlank c = false) :
    trimStart text = text := by
  cases text with
  | nil => rfl
  | cons c rest => simp [trimStart, h c rfl]

/-- Blanks in front of a text are dropped with those at its own front. -/
theorem trimStart_append {front : List Char} (h : ∀ c ∈ front, isBlank c = true)
    (text : List Char) : trimStart (front ++ text) = trimStart text :=
  List.dropWhile_append_of_pos h

/-- Blanks behind a text are dropped with those at its own end. -/
theorem trimEnd_append {back : List Char} (h : ∀ c ∈ back, isBlank c = true)
    (text : List Char) : trimEnd (text ++ back) = trimEnd text := by
  rw [trimEnd, trimEnd, List.reverse_append, List.dropWhile_append_of_pos]
  exact fun c hc => h c (List.mem_reverse.mp hc)

/-- A text that does not end with a blank keeps its end. -/
theorem trimEnd_eq_self {text : List Char} (h : ∀ c ∈ text.getLast?, isBlank c = false) :
    trimEnd text = text := by
  have hreverse : trimStart text.reverse = text.reverse :=
    trimStart_eq_self (by rwa [List.head?_reverse])
  rw [trimEnd, ← trimStart, hreverse, List.reverse_reverse]

/-- Trimming leaves the core of a text. -/
theorem trimsTo_iff {text core : List Char} : TrimsTo text core ↔ trim text = core := by
  constructor
  · rintro ⟨⟨hhead, hlast⟩, front, back, rfl, hfront, hback⟩
    rw [trim, List.append_assoc, trimStart_append hfront]
    cases core with
    | nil =>
      have hnone : trimStart back = [] := List.dropWhile_eq_nil_iff.mpr hback
      rw [List.nil_append, hnone]
      rfl
    | cons c rest =>
      have hkept : trimStart (c :: rest ++ back) = c :: rest ++ back :=
        trimStart_eq_self fun d hd => hhead d hd
      rw [hkept, trimEnd_append hback, trimEnd_eq_self hlast]
  · rintro rfl
    refine ⟨hasTrimmedEnds_trim text, text.takeWhile isBlank,
      ((trimStart text).reverse.takeWhile isBlank).reverse, ?_, ?_, ?_⟩
    · have hend : trim text ++ ((trimStart text).reverse.takeWhile isBlank).reverse =
          trimStart text := by
        rw [trim, trimEnd, ← List.reverse_append, List.takeWhile_append_dropWhile,
          List.reverse_reverse]
      rw [List.append_assoc, hend, trimStart, List.takeWhile_append_dropWhile]
    · exact fun c hc => List.mem_takeWhile_imp hc
    · exact fun c hc => List.mem_takeWhile_imp (List.mem_reverse.mp hc)

/-- Every text has a core. -/
theorem trimsTo_trim (text : List Char) : TrimsTo text (trim text) := trimsTo_iff.mpr rfl

/-- A character that is neither blank nor in the core of a text is not in the text. -/
theorem TrimsTo.not_mem {text core : List Char} (h : TrimsTo text core) {c : Char}
    (hblank : isBlank c = false) (hcore : c ∉ core) : c ∉ text := by
  obtain ⟨-, front, back, rfl, hfront, hback⟩ := h
  intro hmem
  rcases List.mem_append.mp hmem with hmem | hmem
  · rcases List.mem_append.mp hmem with hmem | hmem
    · exact absurd (hfront c hmem) (by simp [hblank])
    · exact hcore hmem
  · exact absurd (hback c hmem) (by simp [hblank])

end Text

open Text LoopStatement

namespace LoopClause

variable {clause text expression : List Char} {binder : Binder} {inParallel : Bool}

/-- A clause is three words: an identifier, the word `in`, and another identifier. -/
def BareWords (clause varName expression : List Char) : Prop :=
  tokens clause = [varName, ['i', 'n'], expression] ∧ isIdentifier varName = true ∧
    isIdentifier expression = true

/-- What a clause binds and what it runs over: the parts around its first separator, of which the
expression is trimmed. Without a separator all of it is bound and the expression is empty. -/
inductive Parts (clause : List Char) : List Char → List Char → Prop
  | separated {text rest expression : List Char} (hcut : FirstCut separator clause text rest)
      (htrim : TrimsTo rest expression) : Parts clause text expression
  | bare (h : ¬ separator <:+: clause) : Parts clause clause []

/-- A clause that is neither blank nor three bare words is divided into its parts. -/
structure Divides (clause text expression : List Char) : Prop where
  /-- There is something to read. -/
  notBlank : isBlankText clause = false
  /-- The clause is not three bare words. -/
  notWords : ∀ varName expression, ¬ BareWords clause varName expression
  /-- The parts are those around the first separator. -/
  parts : Parts clause text expression

/-- A text binds two identifiers around its only comma, or else one identifier. -/
inductive Binds (text : List Char) : Binder → Prop
  | entry {left right keyName valueName : List Char} (htext : text = left ++ ',' :: right)
      (honce : text.count ',' = 1) (hleft : TrimsTo left keyName) (hright : TrimsTo right valueName)
      (hkey : isIdentifier keyName = true) (hvalue : isIdentifier valueName = true) :
      Binds text (.entry keyName valueName)
  | element {varName : List Char} (htrim : TrimsTo text varName)
      (hname : isIdentifier varName = true) : Binds text (.element varName)

/-- The statement that binds the given names over an expression. -/
def Binder.statement (binder : Binder) (expression : List Char) (inParallel : Bool) :
    LoopStatement :=
  match binder with
  | .element varName => .list (.ofList varName) (.ofList expression) inParallel
  | .entry keyName valueName =>
    .mapFor (.ofList keyName) (.ofList valueName) (.ofList expression) inParallel

/-- The meaning of a clause: no loop, a statement, or the fault that it is refused with. -/
inductive Means (clause : List Char) (inParallel : Bool) :
    Except Fault (Option LoopStatement) → Prop
  | noLoop (hblank : isBlankText clause = true) : Means clause inParallel (.ok none)
  | bareWords {varName expression : List Char} (hwords : BareWords clause varName expression) :
      Means clause inParallel
        (.ok (some (.list (.ofList varName) (.ofList expression) inParallel)))
  | bound {text expression : List Char} {binder : Binder}
      (hdivided : Divides clause text expression) (hbinds : Binds text binder)
      (hfilled : expression ≠ []) :
      Means clause inParallel (.ok (some (binder.statement expression inParallel)))
  | overNothing {text : List Char} {binder : Binder} (hdivided : Divides clause text [])
      (hbinds : Binds text binder) : Means clause inParallel (.error .emptyLoopExpression)
  | unbound {text expression token : List Char} (hdivided : Divides clause text expression)
      (hnone : ∀ binder, ¬ Binds text binder) (htrim : TrimsTo text token) :
      Means clause inParallel (.error (.characterRules (.ofList token)))

/-- Three bare words are found where the clause is made of them. -/
theorem bareWords?_eq_some_iff {varName : List Char} :
    bareWords? clause = some (varName, expression) ↔ BareWords clause varName expression := by
  rw [BareWords, ← words_eq_tokens]
  constructor
  · intro h
    obtain ⟨hvar, hexpression⟩ := isIdentifier_of_bareWords? h
    unfold bareWords? at h
    split at h
    · next hwords =>
      split at h
      · obtain ⟨rfl, rfl⟩ := Prod.mk.inj (Option.some.inj h)
        exact ⟨hwords, hvar, hexpression⟩
      · cases h
    · cases h
  · rintro ⟨hwords, hvar, hexpression⟩
    simp [bareWords?, hwords, hvar, hexpression]

/-- Every clause has its parts. -/
theorem parts_splitClause (clause : List Char) :
    Parts clause (splitClause clause).1 (splitClause clause).2 := by
  unfold splitClause
  split
  · next text rest hcut => exact .separated (cut?_eq_some_iff.mp hcut) (trimsTo_trim rest)
  · next hcut => exact .bare (cut?_eq_none_iff.mp hcut)

/-- A clause has no other parts than those into which it is split. -/
theorem Parts.splitClause_eq (h : Parts clause text expression) :
    splitClause clause = (text, expression) := by
  unfold splitClause
  cases h with
  | separated hcut htrim =>
    rw [cut?_eq_some_iff.mpr hcut]
    dsimp only
    rw [trimsTo_iff.mp htrim]
  | bare hnone => rw [cut?_eq_none_iff.mpr hnone]

/-- The expression of a clause is trimmed. -/
theorem Parts.hasTrimmedEnds (h : Parts clause text expression) : HasTrimmedEnds expression := by
  have hsplit := hasTrimmedEnds_splitClause clause
  rwa [h.splitClause_eq] at hsplit

/-- No identifier has a comma. -/
theorem comma_not_mem_of_isIdentifier (h : isIdentifier text = true) : ',' ∉ text := by
  intro hmem
  have hname := (isIdentifier_iff.mp h).2 ',' hmem
  exact absurd hname (by decide)

/-- A text whose core is an identifier has no comma. -/
theorem comma_not_mem_of_trimsTo {name : List Char} (htrim : TrimsTo text name)
    (hname : isIdentifier name = true) : ',' ∉ text :=
  htrim.not_mem (by decide) (comma_not_mem_of_isIdentifier hname)

/-- Two names are found where a text binds an entry. -/
theorem pair?_eq_some_iff {keyName valueName : List Char} :
    pair? text = some (keyName, valueName) ↔ Binds text (.entry keyName valueName) := by
  constructor
  · intro h
    obtain ⟨hkey, hvalue⟩ := isIdentifier_of_pair? h
    unfold pair? at h
    split at h
    · cases h
    · next left right hcut =>
      split at h
      · obtain ⟨rfl, rfl⟩ := Prod.mk.inj (Option.some.inj h)
        obtain ⟨hleft, rfl⟩ := cut?_singleton_eq_some_iff.mp hcut
        have hright : ',' ∉ right := comma_not_mem_of_trimsTo (trimsTo_trim right) hvalue
        have honce : (left ++ ',' :: right).count ',' = 1 := by
          rw [List.count_append, List.count_cons_self, List.count_eq_zero.mpr hleft,
            List.count_eq_zero.mpr hright]
        exact .entry rfl honce (trimsTo_trim left) (trimsTo_trim right) hkey hvalue
      · cases h
  · intro h
    cases h with
    | @entry left right _ _ htext honce hleft hright hkey hvalue =>
      have hcut : cut? [','] text = some (left, right) := by
        refine cut?_singleton_eq_some_iff.mpr ⟨List.count_eq_zero.mp ?_, htext⟩
        rw [htext, List.count_append, List.count_cons_self] at honce
        omega
      simp [pair?, hcut, trimsTo_iff.mp hleft, trimsTo_iff.mp hright, hkey, hvalue]

/-- What stands before the separator is read as what it binds. -/
theorem readBinder_eq_ok_iff : readBinder text = .ok binder ↔ Binds text binder := by
  constructor
  · intro h
    unfold readBinder at h
    split at h
    · next hpair =>
      obtain rfl := Except.ok.inj h
      exact pair?_eq_some_iff.mp hpair
    · split at h
      · next hname =>
        obtain rfl := Except.ok.inj h
        exact .element (trimsTo_trim text) hname
      · cases h
  · intro h
    unfold readBinder
    cases binder with
    | entry keyName valueName => rw [pair?_eq_some_iff.mpr h]
    | element varName =>
      cases h with
      | element htrim hname =>
        -- With a comma the core of the text would be no identifier.
        have hnone : pair? text = none := by
          refine Option.eq_none_iff_forall_ne_some.mpr fun pair hpair => ?_
          cases pair?_eq_some_iff.mp hpair with
          | entry htext =>
            refine comma_not_mem_of_trimsTo htrim hname ?_
            simp [htext]
        rw [hnone, trimsTo_iff.mp htrim]
        simp [hname]

/-- What binds nothing is refused with its core. -/
theorem readBinder_eq_error (h : ∀ binder, ¬ Binds text binder) :
    readBinder text = .error (.characterRules (.ofList (trim text))) := by
  cases hread : readBinder text with
  | ok binder => exact absurd (readBinder_eq_ok_iff.mp hread) (h binder)
  | error fault =>
    unfold readBinder at hread
    split at hread
    · cases hread
    · split at hread
      · cases hread
      · exact hread.symm

/-- A text binds identifiers. -/
theorem Binds.isNamed (h : Binds text binder) : binder.IsNamed :=
  isNamed_of_readBinder_eq_ok (readBinder_eq_ok_iff.mpr h)

/-- A trimmed expression has text exactly if it is not empty. -/
theorem hasText_ofList_iff (h : HasTrimmedEnds expression) :
    HasText (.ofList expression) ↔ expression ≠ [] := by
  constructor
  · rintro htext rfl
    cases htext
  · intro hne
    refine hasText_of_isTrimmed ⟨?_, by rwa [String.toList_ofList]⟩
    simpa using hne

/-- Identifiers are bound over a trimmed expression, unless it is empty. -/
theorem over_eq (hnamed : binder.IsNamed) (hends : HasTrimmedEnds expression) :
    binder.over expression inParallel =
      if expression = [] then .error .emptyLoopExpression
      else .ok (binder.statement expression inParallel) := by
  have htext := hasText_ofList_iff hends
  cases binder with
  | element varName =>
    rw [Binder.over, overList_eq]
    by_cases hempty : expression = []
    · rw [if_pos hempty, if_neg fun h => htext.mp h hempty]
    · rw [if_neg hempty, if_pos (htext.mpr hempty)]
      rfl
  | entry keyName valueName =>
    have hkey : HasText (.ofList keyName) :=
      hasText_of_isIdentifier (by rw [String.toList_ofList]; exact hnamed.1)
    have hvalue : HasText (.ofList valueName) :=
      hasText_of_isIdentifier (by rw [String.toList_ofList]; exact hnamed.2)
    rw [Binder.over, overMap_eq, if_neg (not_not_intro hkey), if_neg (not_not_intro hvalue)]
    by_cases hempty : expression = []
    · rw [if_pos hempty, if_pos fun h => htext.mp h hempty]
    · rw [if_neg hempty, if_neg (not_not_intro (htext.mpr hempty))]
      rfl

/-- Three bare words are read as a loop over a list. -/
theorem readChars_of_bareWords {varName : List Char} (h : BareWords clause varName expression) :
    readChars clause inParallel =
      .ok (.list (.ofList varName) (.ofList expression) inParallel) := by
  have hnamed : (Binder.element varName).IsNamed := h.2.1
  have hne : expression ≠ [] := (isIdentifier_iff.mp h.2.2).1
  rw [readChars, bareWords?_eq_some_iff.mpr h]
  dsimp only
  rw [over_eq hnamed (hasTrimmedEnds_of_isIdentifier h.2.2), if_neg hne]
  rfl

/-- Any other clause is read part by part. -/
theorem readChars_of_parts (hwords : ∀ varName expression, ¬ BareWords clause varName expression)
    (hparts : Parts clause text expression) :
    readChars clause inParallel =
      readBinder text >>= fun binder => binder.over expression inParallel := by
  have hnone : bareWords? clause = none :=
    Option.eq_none_iff_forall_ne_some.mpr fun words h =>
      hwords words.1 words.2 (bareWords?_eq_some_iff.mp h)
  rw [readChars, hnone]
  dsimp only
  rw [hparts.splitClause_eq]

/-- The characters of a clause that is not blank are read as it means. -/
theorem means_readChars (hblank : isBlankText clause = false) :
    Means clause inParallel ((readChars clause inParallel).map some) := by
  by_cases hwords : ∃ varName expression, BareWords clause varName expression
  · obtain ⟨varName, expression, h⟩ := hwords
    rw [readChars_of_bareWords h]
    exact .bareWords h
  · have hnot : ∀ varName expression, ¬ BareWords clause varName expression :=
      fun varName expression h => hwords ⟨varName, expression, h⟩
    have hdivided : Divides clause _ _ := ⟨hblank, hnot, parts_splitClause clause⟩
    rw [readChars_of_parts hnot hdivided.parts]
    by_cases hbinds : ∃ binder, Binds (splitClause clause).1 binder
    · obtain ⟨binder, h⟩ := hbinds
      rw [readBinder_eq_ok_iff.mpr h]
      change Means clause inParallel ((binder.over _ inParallel).map some)
      rw [over_eq h.isNamed hdivided.parts.hasTrimmedEnds]
      split
      · next hempty =>
        rw [hempty] at hdivided
        exact .overNothing hdivided h
      · next hfilled => exact .bound hdivided h hfilled
    · have hnone : ∀ binder, ¬ Binds (splitClause clause).1 binder :=
        fun binder h => hbinds ⟨binder, h⟩
      rw [readBinder_eq_error hnone]
      exact .unbound hdivided hnone (trimsTo_trim _)

/-- Three bare words are not blank. -/
theorem BareWords.notBlank {varName : List Char} (h : BareWords clause varName expression) :
    isBlankText clause = false := by
  refine Bool.eq_false_iff.mpr fun hblank => ?_
  have hwords := h.1
  rw [← words_eq_tokens, words_eq_nil hblank] at hwords
  cases hwords

/-- A clause is read as it means. -/
theorem read_eq_of_means {clause : String} {outcome : Except Fault (Option LoopStatement)}
    (h : Means clause.toList inParallel outcome) : read clause inParallel = outcome := by
  unfold read
  cases h with
  | noLoop hblank => rw [if_pos hblank]
  | bareWords hwords =>
    rw [if_neg (by simp [hwords.notBlank]), readChars_of_bareWords hwords]
    rfl
  | bound hdivided hbinds hfilled =>
    rw [if_neg (by simp [hdivided.notBlank]),
      readChars_of_parts hdivided.notWords hdivided.parts, readBinder_eq_ok_iff.mpr hbinds]
    change Except.map some (Binder.over _ _ _) = _
    rw [over_eq hbinds.isNamed hdivided.parts.hasTrimmedEnds, if_neg hfilled]
    rfl
  | overNothing hdivided hbinds =>
    rw [if_neg (by simp [hdivided.notBlank]),
      readChars_of_parts hdivided.notWords hdivided.parts, readBinder_eq_ok_iff.mpr hbinds]
    change Except.map some (Binder.over _ _ _) = _
    rw [over_eq hbinds.isNamed hdivided.parts.hasTrimmedEnds, if_pos rfl]
    rfl
  | unbound hdivided hnone htrim =>
    rw [if_neg (by simp [hdivided.notBlank]),
      readChars_of_parts hdivided.notWords hdivided.parts, readBinder_eq_error hnone,
      trimsTo_iff.mp htrim]
    rfl

/-- A clause is read as an outcome exactly if that is what it means. -/
theorem read_eq_iff_means {clause : String} {outcome : Except Fault (Option LoopStatement)} :
    read clause inParallel = outcome ↔ Means clause.toList inParallel outcome := by
  refine ⟨?_, read_eq_of_means⟩
  rintro rfl
  unfold read
  split
  · next hblank => exact .noLoop hblank
  · next hblank => exact means_readChars (by simpa using hblank)

/-- Only a blank clause means no loop. -/
theorem means_none_iff : Means clause inParallel (.ok none) ↔ ∀ c ∈ clause, isBlank c = true := by
  rw [← List.all_eq_true]
  constructor
  · intro h
    cases h with
    | noLoop hblank => exact hblank
  · exact .noLoop

/-- A clause is read as an outcome exactly if the grammar gives it that meaning. In particular it is
read as no loop exactly if it is blank, and it is never refused because of a blank name. -/
theorem read_follows_grammar (clause : String) (inParallel : Bool) :
    (∀ outcome, read clause inParallel = outcome ↔ Means clause.toList inParallel outcome) ∧
      (read clause inParallel = .ok none ↔ ∀ c ∈ clause.toList, isBlank c = true) ∧
      ∀ which, read clause inParallel ≠ .error (.blankLoopName which) := by
  refine ⟨fun outcome => read_eq_iff_means, ?_, fun which hread => ?_⟩
  · rw [read_eq_iff_means, means_none_iff]
  · -- No rule of the grammar gives this fault.
    cases read_eq_iff_means.mp hread

/-- Of three words `in` the one in the middle separates, so this is a loop. -/
example : read " in   in in " false = .ok (some (.list "in" "in" false)) := by rfl

/-- A binder of two words is refused as it is written, without the blanks around it. -/
example : faultOf (read "x a  in  collection" true) = some (.characterRules "x a") := by decide

end LoopClause

end Taskflow
