import Taskflow.Loop.Clause
import Taskflow.Proofs.Outcome

/-!
# The statements that clauses stand for

A clause may be written with blanks in many places, but the statement that it stands for has none
at the ends of its parts. The main statement says that a clause is only ever read as a statement
whose names are identifiers and whose expression is trimmed and not empty.
-/

namespace Taskflow

namespace Text

/-- Neither the first nor the last character is blank. -/
def HasTrimmedEnds (text : List Char) : Prop :=
  (∀ c ∈ text.head?, isBlank c = false) ∧ ∀ c ∈ text.getLast?, isBlank c = false

instance : DecidablePred HasTrimmedEnds := fun text =>
  decidable_of_iff ((text.head?.all (!isBlank ·)) = true ∧ (text.getLast?.all (!isBlank ·)) = true)
    (by simp [HasTrimmedEnds, Option.all_eq_true])

/-- A text that is not empty and has no blank character at its ends. -/
def IsTrimmed (text : String) : Prop := text ≠ "" ∧ HasTrimmedEnds text.toList

instance : DecidablePred IsTrimmed := fun _ => inferInstanceAs (Decidable (_ ∧ _))

/-- A name character is an ASCII letter, an ASCII digit or the underscore. -/
theorem toNat_of_isNameChar {c : Char} (h : isNameChar c = true) :
    (65 ≤ c.toNat ∧ c.toNat ≤ 90) ∨ (97 ≤ c.toNat ∧ c.toNat ≤ 122) ∨
      (48 ≤ c.toNat ∧ c.toNat ≤ 57) ∨ c.toNat = 95 := by
  unfold isNameChar at h
  rcases Bool.or_eq_true_iff.mp h with halphanum | hunderscore
  · rcases Bool.or_eq_true_iff.mp halphanum with halpha | hdigit
    · rcases Bool.or_eq_true_iff.mp halpha with hupper | hlower
      · exact .inl (of_decide_eq_true hupper)
      · obtain ⟨hleast, hmost⟩ := Bool.and_eq_true_iff.mp hlower
        exact .inr (.inl ⟨of_decide_eq_true hleast, of_decide_eq_true hmost⟩)
    · obtain ⟨hleast, hmost⟩ := Bool.and_eq_true_iff.mp hdigit
      exact .inr (.inr (.inl ⟨of_decide_eq_true hleast, of_decide_eq_true hmost⟩))
  · obtain rfl := eq_of_beq hunderscore
    exact .inr (.inr (.inr rfl))

/-- No name character is blank. -/
theorem isBlank_of_isNameChar {c : Char} (h : isNameChar c = true) : isBlank c = false := by
  have hcode := toNat_of_isNameChar h
  refine Bool.eq_false_iff.mpr fun hblank => ?_
  simp only [isBlank, inRanges, blankRanges, List.any_cons, List.any_nil, Bool.or_false,
    Bool.or_eq_true, Bool.and_eq_true, decide_eq_true_eq] at hblank
  omega

/-- The ends of a text without blanks are trimmed. -/
theorem hasTrimmedEnds_of_forall {text : List Char} (h : ∀ c ∈ text, isBlank c = false) :
    HasTrimmedEnds text :=
  ⟨fun c hc => h c (List.mem_of_mem_head? hc), fun c hc => h c (List.mem_of_mem_getLast? hc)⟩

/-- What is left behind the blanks at the front does not begin with one. -/
theorem isBlank_of_mem_head?_trimStart {text : List Char} {c : Char}
    (h : c ∈ (trimStart text).head?) : isBlank c = false := by
  have hhead := List.head?_dropWhile_not isBlank text
  rw [trimStart] at h
  rw [Option.mem_def.mp h] at hhead
  exact hhead

/-- Trimming leaves no blank at either end. -/
theorem hasTrimmedEnds_trim (text : List Char) : HasTrimmedEnds (trim text) := by
  constructor
  · intro c hc
    -- Trimming the end keeps a front part, so what is left begins as before.
    have hprefix : trim text <+: trimStart text := by
      rw [← List.reverse_suffix]
      simpa [trim, trimEnd] using List.dropWhile_suffix isBlank
    obtain ⟨rest, hrest⟩ := hprefix
    have hstart : c ∈ (trimStart text).head? := by
      rw [← hrest]
      exact List.mem_head?_append_of_mem_head? hc
    exact isBlank_of_mem_head?_trimStart hstart
  · intro c hc
    rw [trim, trimEnd, List.getLast?_reverse] at hc
    exact isBlank_of_mem_head?_trimStart hc

/-- The ends of an identifier are trimmed. -/
theorem hasTrimmedEnds_of_isIdentifier {text : List Char} (h : isIdentifier text = true) :
    HasTrimmedEnds text :=
  hasTrimmedEnds_of_forall fun c hc => isBlank_of_isNameChar ((isIdentifier_iff.mp h).2 c hc)

end Text

open Text

namespace LoopStatement

/-- The names of a canonical statement are identifiers, and its expression is trimmed and not
empty. -/
def Canonical : LoopStatement → Prop
  | .list varName expression _ => isIdentifier varName.toList = true ∧ IsTrimmed expression
  | .mapFor keyName valueName expression _ =>
    isIdentifier keyName.toList = true ∧ isIdentifier valueName.toList = true ∧
      IsTrimmed expression

/-- What has text and trimmed ends is trimmed and not empty. -/
theorem isTrimmed_of_hasText {text : List Char} (htext : HasText (.ofList text))
    (hends : HasTrimmedEnds text) : IsTrimmed (.ofList text) := by
  refine ⟨?_, by rwa [String.toList_ofList]⟩
  intro hempty
  rw [hempty] at htext
  cases htext

end LoopStatement

namespace LoopClause

/-- The names that a binder binds are identifiers. -/
def Binder.IsNamed : Binder → Prop
  | .element varName => isIdentifier varName = true
  | .entry keyName valueName => isIdentifier keyName = true ∧ isIdentifier valueName = true

/-- Both names of a pair are identifiers. -/
theorem isIdentifier_of_pair? {text keyName valueName : List Char}
    (h : pair? text = some (keyName, valueName)) :
    isIdentifier keyName = true ∧ isIdentifier valueName = true := by
  unfold pair? at h
  split at h
  · cases h
  · split at h
    · next hnames =>
      obtain ⟨rfl, rfl⟩ := Prod.mk.inj (Option.some.inj h)
      exact Bool.and_eq_true_iff.mp hnames
    · cases h

/-- The variable and the expression of three bare words are identifiers. -/
theorem isIdentifier_of_bareWords? {clause varName expression : List Char}
    (h : bareWords? clause = some (varName, expression)) :
    isIdentifier varName = true ∧ isIdentifier expression = true := by
  unfold bareWords? at h
  split at h
  · split at h
    · next hnames =>
      obtain ⟨rfl, rfl⟩ := Prod.mk.inj (Option.some.inj h)
      exact Bool.and_eq_true_iff.mp hnames
    · cases h
  · cases h

/-- The binder of a clause binds identifiers. -/
theorem isNamed_of_readBinder_eq_ok {text : List Char} {binder : Binder}
    (h : readBinder text = .ok binder) : binder.IsNamed := by
  unfold readBinder at h
  split at h
  · next keyName valueName hpair =>
    obtain rfl := Except.ok.inj h
    exact isIdentifier_of_pair? hpair
  · split at h
    · next hname =>
      obtain rfl := Except.ok.inj h
      exact hname
    · cases h

/-- Identifiers bound over a trimmed expression make a canonical statement. -/
theorem canonical_of_over_eq_ok {binder : Binder} {expression : List Char} {inParallel : Bool}
    {statement : LoopStatement} (hbinder : binder.IsNamed) (hends : HasTrimmedEnds expression)
    (h : binder.over expression inParallel = .ok statement) :
    statement.isParallel = inParallel ∧ statement.Canonical := by
  cases binder with
  | element varName =>
    rw [Binder.over, LoopStatement.overList_eq] at h
    split at h
    · next htext =>
      obtain rfl := Except.ok.inj h
      refine ⟨rfl, ?_, LoopStatement.isTrimmed_of_hasText htext hends⟩
      rwa [String.toList_ofList]
    · cases h
  | entry keyName valueName =>
    rw [Binder.over, LoopStatement.overMap_eq] at h
    split at h
    · cases h
    · next htext =>
      split at h
      · cases h
      · split at h
        · cases h
        · obtain rfl := Except.ok.inj h
          refine ⟨rfl, ?_, ?_, LoopStatement.isTrimmed_of_hasText (not_not.mp htext) hends⟩
          · rw [String.toList_ofList]
            exact hbinder.1
          · rw [String.toList_ofList]
            exact hbinder.2

/-- What stands behind the separator is trimmed. -/
theorem hasTrimmedEnds_splitClause (clause : List Char) :
    HasTrimmedEnds (splitClause clause).2 := by
  unfold splitClause
  split
  · exact hasTrimmedEnds_trim _
  · exact hasTrimmedEnds_of_forall fun c hc => absurd hc List.not_mem_nil

/-- A clause is read as a canonical statement with the keyword's choice of parallelism. -/
theorem canonical_of_read_eq_ok {clause : String} {inParallel : Bool} {statement : LoopStatement}
    (h : read clause inParallel = .ok (some statement)) :
    statement.isParallel = inParallel ∧ statement.Canonical := by
  unfold read at h
  split at h
  · cases Except.ok.inj h
  · obtain ⟨found, hchars, hfound⟩ := bind_eq_ok_iff.mp h
    obtain rfl : found = statement := Option.some.inj (Except.ok.inj hfound)
    unfold readChars at hchars
    split at hchars
    · next varName expression hwords =>
      obtain ⟨hvar, hexpression⟩ := isIdentifier_of_bareWords? hwords
      have hnamed : (Binder.element varName).IsNamed := hvar
      exact canonical_of_over_eq_ok hnamed (hasTrimmedEnds_of_isIdentifier hexpression) hchars
    · obtain ⟨binder, hbinder, hover⟩ := bind_eq_ok_iff.mp hchars
      exact canonical_of_over_eq_ok (isNamed_of_readBinder_eq_ok hbinder)
        (hasTrimmedEnds_splitClause _) hover

end LoopClause

end Taskflow
