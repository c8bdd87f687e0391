import Taskflow.Executable
import Taskflow.Proofs.Loop.Canonical

/-!
# Valid loop statements

A statement must say what it runs over, and under which names the entries of a map are bound. The
main statements say that canonical statements are valid, and that the builders make exactly the
valid statements.
-/

namespace Taskflow

open Text

namespace LoopStatement

variable {statement : LoopStatement} {text : String}

/-- A text has something to read if one of its characters is not blank. -/
theorem hasText_iff : HasText text ↔ ∃ c ∈ text.toList, isBlank c = false := by
  simp [HasText, isBlankText]

/-- What is trimmed and not empty has text. -/
theorem hasText_of_isTrimmed (h : IsTrimmed text) : HasText text := by
  obtain ⟨hne, hfirst, _⟩ := h
  cases hchars : text.toList with
  | nil => exact absurd (String.toList_eq_nil_iff.mp hchars) hne
  | cons c rest =>
    rw [hchars] at hfirst
    refine hasText_iff.mpr ⟨c, ?_, hfirst c rfl⟩
    rw [hchars]
    exact List.mem_cons_self

/-- An identifier has text. -/
theorem hasText_of_isIdentifier (h : isIdentifier text.toList = true) : HasText text := by
  obtain ⟨hne, hchars⟩ := isIdentifier_iff.mp h
  obtain ⟨c, hc⟩ := List.exists_mem_of_ne_nil _ hne
  exact hasText_iff.mpr ⟨c, hc, isBlank_of_isNameChar (hchars c hc)⟩

/-- A canonical statement is valid. -/
theorem Canonical.valid (h : statement.Canonical) : statement.Valid := by
  cases statement with
  | list varName expression inParallel => exact hasText_of_isTrimmed h.2
  | mapFor keyName valueName expression inParallel =>
    obtain ⟨hkey, hvalue, hexpression⟩ := h
    exact ⟨hasText_of_isTrimmed hexpression, hasText_of_isIdentifier hkey,
      hasText_of_isIdentifier hvalue⟩

/-- A statement that was made by one of the builders. -/
inductive Built : LoopStatement → Prop
  | list {varName expression : String} {inParallel : Bool} {statement : LoopStatement}
      (h : overList varName expression inParallel = .ok statement) : Built statement
  | mapFor {keyName valueName expression : String} {inParallel : Bool} {statement : LoopStatement}
      (h : overMap keyName valueName expression inParallel = .ok statement) : Built statement

/-- The builder for lists makes a statement exactly if it is valid. -/
theorem overList_eq_ok_iff {varName expression : String} {inParallel : Bool} :
    overList varName expression inParallel = .ok statement ↔
      statement = .list varName expression inParallel ∧ statement.Valid := by
  rw [overList_eq]
  split
  · next htext =>
    rw [Except.ok.injEq]
    constructor
    · rintro rfl
      exact ⟨rfl, htext⟩
    · exact fun h => h.1.symm
  · next hblank =>
    refine iff_of_false (fun h => by cases h) ?_
    rintro ⟨rfl, hvalid⟩
    exact hblank hvalid

/-- The builder for maps makes a statement exactly if it is valid. -/
theorem overMap_eq_ok_iff {keyName valueName expression : String} {inParallel : Bool} :
    overMap keyName valueName expression inParallel = .ok statement ↔
      statement = .mapFor keyName valueName expression inParallel ∧ statement.Valid := by
  rw [overMap_eq]
  by_cases hvalid : (LoopStatement.mapFor keyName valueName expression inParallel).Valid
  · obtain ⟨hexpression, hkey, hvalue⟩ := hvalid
    rw [if_neg (not_not_intro hexpression), if_neg (not_not_intro hkey),
      if_neg (not_not_intro hvalue), Except.ok.injEq]
    constructor
    · rintro rfl
      exact ⟨rfl, hexpression, hkey, hvalue⟩
    · exact fun h => h.1.symm
  · refine iff_of_false (fun h => hvalid ?_) ?_
    · by_cases hexpression : HasText expression
      · by_cases hkey : HasText keyName
        · by_cases hvalue : HasText valueName
          · exact ⟨hexpression, hkey, hvalue⟩
          · simp [hexpression, hkey, hvalue] at h
        · simp [hexpression, hkey] at h
      · simp [hexpression] at h
    · rintro ⟨rfl, h⟩
      exact hvalid h

/-- The builders make exactly the valid statements. -/
theorem built_iff_valid : statement.Built ↔ statement.Valid := by
  constructor
  · rintro (h | h)
    · exact (overList_eq_ok_iff.mp h).2
    · exact (overMap_eq_ok_iff.mp h).2
  · intro hvalid
    cases statement with
    | list varName expression inParallel =>
      exact .list (overList_eq_ok_iff.mpr ⟨rfl, hvalid⟩)
    | mapFor keyName valueName expression inParallel =>
      exact .mapFor (overMap_eq_ok_iff.mpr ⟨rfl, hvalid⟩)

end LoopStatement

/-- Every loop among bindings is valid. -/
def HaveValidLoops (bindings : Bindings) : Prop :=
  ∀ key statement, bindings.get? key = some (.loop statement) → statement.Valid

/-- All maps of bindings in an executable: those of its signature, and those of its action or of
its tasks. -/
def Executable.allBindings (executable : Executable) : List Bindings :=
  executable.signature.before :: executable.signature.after ::
    match executable with
    | .operation _ action => [action]
    | .flow _ workflow => workflow.tasks.flatMap fun task => [task.before, task.after]

/-- A loop stands somewhere among the bindings of an executable. -/
def Executable.HasLoop (executable : Executable) (statement : LoopStatement) : Prop :=
  ∃ bindings ∈ executable.allBindings, ∃ key, bindings.get? key = some (.loop statement)

end Taskflow
