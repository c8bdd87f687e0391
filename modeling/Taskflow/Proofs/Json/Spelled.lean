import Taskflow.Json.Lexeme
import Taskflow.Json.Quoted

/-!
# Lexemes that are spelled out

The lexemes of a text are found one by one. The main statements say that lexemes which are spelled
out one after another are found again, that only words are found as words, and that every text can
be quoted.
-/

namespace Taskflow.Json

section

variable {σ α : Type} {step? : σ → α → Option σ} {start next final : σ} {item : α}
  {items front : List α}

/-- A run goes on behind its first step. -/
theorem foldlM_cons_of_some (h : step? start item = some next) (rest : List α) :
    (item :: rest).foldlM step? start = rest.foldlM step? next := by
  rw [List.foldlM_cons, h]
  rfl

/-- A run goes on behind its first part. -/
theorem foldlM_append_of_some (h : front.foldlM step? start = some next) (back : List α) :
    (front ++ back).foldlM step? start = back.foldlM step? next := by
  rw [List.foldlM_append, h]
  rfl

/-- What every step keeps is kept by a run. -/
theorem holds_of_foldlM {Holds : σ → Prop} {Allowed : α → Prop}
    (hstep : ∀ start item next, Holds start → Allowed item → step? start item = some next →
      Holds next)
    (hstart : Holds start) (hitems : ∀ item ∈ items, Allowed item)
    (h : items.foldlM step? start = some final) : Holds final := by
  induction items generalizing start with
  | nil =>
    obtain rfl : start = final := Option.some.inj h
    exact hstart
  | cons item rest ih =>
    obtain ⟨hitem, hrest⟩ := List.forall_mem_cons.mp hitems
    rw [List.foldlM_cons] at h
    obtain ⟨next, hnext, h⟩ := Option.bind_eq_some_iff.mp h
    exact ih (hstep start item next hstart hitem hnext) hrest h

end

/-- Whether a text is a word: it has characters, and all of them may stand in words. -/
def IsWord (chars : List Char) : Prop := chars ≠ [] ∧ ∀ c ∈ chars, isWordChar c = true

/-- A text of which all characters may stand in words is a word. -/
theorem isWord_of_all {chars : List Char} (hne : chars.isEmpty = false)
    (h : chars.all isWordChar = true) : IsWord chars :=
  ⟨List.isEmpty_eq_false_iff.mp hne, List.all_eq_true.mp h⟩

/-- Whether the characters of a lexeme make just this lexeme. -/
inductive Lexeme.IsWhole : Lexeme → Prop
  | mark {c : Char} (hmark : isMark c = true) : IsWhole (.mark c)
  | word {chars : List Char} (hword : IsWord chars) : IsWhole (.word chars)
  | quoted {chars : List Char}
      (hquoted : ∀ found read, chars.foldlM Pass.step? ⟨found, .quoted read⟩ =
        some ⟨found, .quoted (chars.reverse ++ read)⟩) :
      IsWhole (.quoted chars)

/-- The characters of a lexeme. A blank keeps a word from the next one. -/
def Lexeme.spell : Lexeme → List Char
  | .mark c => [c]
  | .word chars => chars ++ [' ']
  | .quoted chars => '"' :: chars ++ ['"']

/-- A character of a word is no blank, no mark and no quotation mark. -/
theorem not_between_of_isWordChar {c : Char} (h : isWordChar c = true) :
    isBetween c = false ∧ isMark c = false ∧ (c == '"') = false := by
  refine ⟨?_, ?_, ?_⟩ <;> rw [← Bool.not_eq_true] <;> intro hother <;>
    simp only [isBetween, isMark, Bool.or_eq_true, beq_iff_eq] at hother
  · rcases hother with ((rfl | rfl) | rfl) | rfl <;> exact absurd h (by decide)
  · rcases hother with ((((rfl | rfl) | rfl) | rfl) | rfl) | rfl <;> exact absurd h (by decide)
  · subst hother
    exact absurd h (by decide)

/-- A word begins with its first character. -/
theorem begin?_of_isWordChar {c : Char} (h : isWordChar c = true) (found : List Lexeme) :
    Pass.begin? found c = some ⟨found, .word [c]⟩ := by
  obtain ⟨hbetween, hmark, hquote⟩ := not_between_of_isWordChar h
  simp [Pass.begin?, hbetween, hmark, hquote, h]

/-- The characters of a word are read one after another. -/
theorem foldlM_word {chars : List Char} (h : ∀ c ∈ chars, isWordChar c = true) (found : List Lexeme)
    (read : List Char) :
    chars.foldlM Pass.step? ⟨found, .word read⟩ = some ⟨found, .word (chars.reverse ++ read)⟩ := by
  induction chars generalizing read with
  | nil => rfl
  | cons c rest ih =>
    obtain ⟨hc, hrest⟩ := List.forall_mem_cons.mp h
    have hstep : Pass.step? ⟨found, .word read⟩ c = some ⟨found, .word (c :: read)⟩ := if_pos hc
    rw [foldlM_cons_of_some hstep, ih hrest, List.reverse_cons, List.append_assoc,
      List.singleton_append]

/-- A lexeme that is spelled out is found. -/
theorem foldlM_spell {lexeme : Lexeme} (h : lexeme.IsWhole) (found : List Lexeme) :
    lexeme.spell.foldlM Pass.step? ⟨found, .nothing⟩ = some ⟨lexeme :: found, .nothing⟩ := by
  cases h with
  | @mark c hmark =>
    have hbetween : isBetween c = false := by
      rw [← Bool.not_eq_true]
      intro hbetween
      simp only [isMark, isBetween, Bool.or_eq_true, beq_iff_eq] at hmark hbetween
      rcases hbetween with ((rfl | rfl) | rfl) | rfl <;> simp at hmark
    simp [Lexeme.spell, Pass.step?, Pass.begin?, hbetween, hmark]
  | @word chars hword =>
    obtain ⟨c, rest, rfl⟩ := List.exists_cons_of_ne_nil hword.1
    obtain ⟨hc, hrest⟩ := List.forall_mem_cons.mp hword.2
    have hbegin : Pass.step? ⟨found, .nothing⟩ c = some ⟨found, .word [c]⟩ :=
      begin?_of_isWordChar hc found
    have hend : Pass.step? ⟨found, .word (rest.reverse ++ [c])⟩ ' ' =
        some ⟨.word (c :: rest) :: found, .nothing⟩ := by
      simp [Pass.step?, Pass.begin?, isWordChar, isBetween]
    rw [Lexeme.spell, List.cons_append, foldlM_cons_of_some hbegin,
      foldlM_append_of_some (foldlM_word hrest found [c]), foldlM_cons_of_some hend]
    rfl
  | @quoted chars hquoted =>
    have hbegin : Pass.step? ⟨found, .nothing⟩ '"' = some ⟨found, .quoted []⟩ := rfl
    have hend : Pass.step? ⟨found, .quoted (chars.reverse ++ [])⟩ '"' =
        some ⟨.quoted chars :: found, .nothing⟩ := by
      simp [Pass.step?]
    rw [Lexeme.spell, List.cons_append, foldlM_cons_of_some hbegin,
      foldlM_append_of_some (hquoted found []), foldlM_cons_of_some hend]
    rfl

/-- Lexemes that are spelled out are found. -/
theorem lexemes?_spell {lexemes : List Lexeme} (h : ∀ lexeme ∈ lexemes, lexeme.IsWhole) :
    lexemes? (lexemes.flatMap Lexeme.spell) = some lexemes := by
  have hall : ∀ found, (lexemes.flatMap Lexeme.spell).foldlM Pass.step? ⟨found, .nothing⟩ =
      some ⟨lexemes.reverse ++ found, .nothing⟩ := by
    induction lexemes with
    | nil => exact fun _ => rfl
    | cons lexeme rest ih =>
      intro found
      obtain ⟨hlexeme, hrest⟩ := List.forall_mem_cons.mp h
      rw [List.flatMap_cons, foldlM_append_of_some (foldlM_spell hlexeme found), ih hrest,
        List.reverse_cons, List.append_assoc, List.singleton_append]
  rw [lexemes?, hall]
  simp [Pass.finish?]

/-- Whether a lexeme is a word if it is said to be one. -/
def Lexeme.IsSound : Lexeme → Prop
  | .word chars => IsWord chars
  | _ => True

/-- Whether all that was found or begun as a word is one. -/
def Pass.IsSound (pass : Pass) : Prop :=
  (∀ lexeme ∈ pass.found, lexeme.IsSound) ∧
    ∀ read, pass.unfinished = .word read → (Lexeme.word read.reverse).IsSound

/-- With nothing unfinished, a character leaves all words what they are. -/
theorem Pass.isSound_of_begin? {found : List Lexeme} {c : Char} {pass : Pass}
    (hfound : ∀ lexeme ∈ found, lexeme.IsSound) (h : Pass.begin? found c = some pass) :
    pass.IsSound := by
  unfold Pass.begin? at h
  split at h
  · cases h
    exact ⟨hfound, fun _ => Unfinished.noConfusion⟩
  split at h
  · cases h
    exact ⟨List.forall_mem_cons.mpr ⟨trivial, hfound⟩, fun _ => Unfinished.noConfusion⟩
  split at h
  · cases h
    exact ⟨hfound, fun _ => Unfinished.noConfusion⟩
  split at h
  · next hword =>
    cases h
    refine ⟨hfound, fun read hread => ?_⟩
    cases hread
    exact ⟨List.cons_ne_nil _ _, List.forall_mem_singleton.mpr hword⟩
  · cases h

/-- A character leaves all words what they are, or adds to the last. -/
theorem Pass.isSound_of_step? {pass pass' : Pass} {c : Char} (hpass : pass.IsSound)
    (h : pass.step? c = some pass') : pass'.IsSound := by
  obtain ⟨hfound, hunfinished⟩ := hpass
  unfold Pass.step? at h
  split at h
  · exact Pass.isSound_of_begin? hfound h
  · next read hread =>
    have hword := hunfinished read hread
    split at h
    · next hc =>
      cases h
      refine ⟨hfound, fun read' hread' => ?_⟩
      cases hread'
      rw [List.reverse_cons]
      exact ⟨List.append_ne_nil_of_right_ne_nil _ (List.cons_ne_nil _ _),
        List.forall_mem_append.mpr ⟨hword.2, List.forall_mem_singleton.mpr hc⟩⟩
    · exact Pass.isSound_of_begin? (List.forall_mem_cons.mpr ⟨hword, hfound⟩) h
  · split at h
    · cases h
      exact ⟨List.forall_mem_cons.mpr ⟨trivial, hfound⟩, fun _ => Unfinished.noConfusion⟩
    split at h
    · cases h
    split at h <;> cases h <;> exact ⟨hfound, fun _ => Unfinished.noConfusion⟩
  · split at h
    · cases h
    · cases h
      exact ⟨hfound, fun _ => Unfinished.noConfusion⟩

/-- The words of a text are words. -/
theorem isSound_of_lexemes? {chars : List Char} {lexemes : List Lexeme}
    (h : lexemes? chars = some lexemes) : ∀ lexeme ∈ lexemes, lexeme.IsSound := by
  obtain ⟨pass, hpass, hfinish⟩ := Option.bind_eq_some_iff.mp h
  have hstart : Pass.IsSound ⟨[], .nothing⟩ :=
    ⟨List.forall_mem_nil _, fun _ => Unfinished.noConfusion⟩
  obtain ⟨hfound, hunfinished⟩ := holds_of_foldlM
    (fun _ _ _ hstart (_ : True) hstep => Pass.isSound_of_step? hstart hstep) hstart
    (fun _ _ => trivial) hpass
  unfold Pass.finish? at hfinish
  split at hfinish
  · cases hfinish
    simpa using hfound
  · next read hread =>
    cases hfinish
    have hall := List.forall_mem_cons.mpr ⟨hunfinished read hread, hfound⟩
    exact fun lexeme hlexeme => hall lexeme (List.mem_reverse.mp hlexeme)
  · cases hfinish

/-- The hexadecimal digit of a value. -/
def hexDigit (value : Nat) : Char := "0123456789abcdef".toList.getD value '0'

/-- A character as it stands in a quoted text. -/
def quoteChar (c : Char) : List Char :=
  if c = '"' ∨ c = '\\' then ['\\', c]
  else if c.toNat < 0x20 then
    ['\\', 'u', '0', '0', hexDigit (c.toNat / 16), hexDigit (c.toNat % 16)]
  else [c]

/-- What a character of a quoted text is read as: control characters are escaped. -/
def quotedPart (c : Char) : QuotedPart := if c.toNat < 0x20 then .unit c.toNat else .char c

/-- The escape of a control character says which it is. -/
theorem hexUnit?_of_lt {code : Nat} (h : code < 0x20) :
    hexUnit? '0' '0' (hexDigit (code / 16)) (hexDigit (code % 16)) = some code := by
  have hall : ∀ code < 0x20,
      hexUnit? '0' '0' (hexDigit (code / 16)) (hexDigit (code % 16)) = some code := by
    decide
  exact hall code h

/-- The parts of a quoted text are those of its characters. -/
theorem quotedParts?_flatMap (chars : List Char) :
    quotedParts? (chars.flatMap quoteChar) = some (chars.map quotedPart) := by
  induction chars with
  | nil => rfl
  | cons c rest ih =>
    rw [List.flatMap_cons, List.map_cons, quoteChar, quotedPart]
    split
    · next hescaped =>
      rcases hescaped with rfl | rfl <;> simp [quotedParts?, ih, shortEscape?]
    · next hescaped =>
      split
      · next hcontrol =>
        simp only [List.cons_append, List.nil_append, quotedParts?, hexUnit?_of_lt hcontrol, ih,
          Option.bind_eq_bind, Option.bind_some, Option.pure_def]
      · rw [not_or] at hescaped
        simp [quotedParts?, ih, hescaped.2]

/-- An escaped control character stands for itself. -/
theorem joinParts?_control {code : Nat} (h : code < 0x20) (parts : List QuotedPart) :
    joinParts? (.unit code :: parts) = (joinParts? parts).map (Char.ofNat code :: ·) := by
  have hhigh : isHighSurrogate code = false := by
    simp only [isHighSurrogate, Bool.and_eq_false_iff, decide_eq_false_iff_not]
    omega
  have hlow : isLowSurrogate code = false := by
    simp only [isLowSurrogate, Bool.and_eq_false_iff, decide_eq_false_iff_not]
    omega
  cases parts with
  | nil => simp [joinParts?, hhigh, hlow]
  | cons part rest => cases part <;> simp [joinParts?, hhigh, hlow]

/-- The parts of characters make up the characters. -/
theorem joinParts?_map (chars : List Char) : joinParts? (chars.map quotedPart) = some chars := by
  induction chars with
  | nil => rfl
  | cons c rest ih =>
    rw [List.map_cons, quotedPart]
    split
    · next hcontrol => rw [joinParts?_control hcontrol, ih, Option.map_some, Char.ofNat_toNat]
    · rw [joinParts?, ih, Option.map_some]

/-- Whether a character stands for itself in a quoted text. -/
def IsPlain (c : Char) : Prop := c ≠ '"' ∧ c ≠ '\\' ∧ ¬ c.toNat < 0x20

instance (c : Char) : Decidable (IsPlain c) := inferInstanceAs (Decidable (_ ∧ _))

/-- A plain character is kept as it is. -/
theorem step?_of_isPlain {c : Char} (h : IsPlain c) (found : List Lexeme) (read : List Char) :
    Pass.step? ⟨found, .quoted read⟩ c = some ⟨found, .quoted (c :: read)⟩ := by
  obtain ⟨hquote, hescape, hcontrol⟩ := h
  simp [Pass.step?, hquote, hescape, hcontrol]

/-- A quoted character does not end the text it stands in. -/
theorem foldlM_quoteChar (c : Char) (found : List Lexeme) (read : List Char) :
    (quoteChar c).foldlM Pass.step? ⟨found, .quoted read⟩ =
      some ⟨found, .quoted ((quoteChar c).reverse ++ read)⟩ := by
  unfold quoteChar
  split
  · next hescaped => rcases hescaped with rfl | rfl <;> simp [Pass.step?]
  · next hescaped =>
    rw [not_or] at hescaped
    split
    · next hcontrol =>
      have hdigits : ∀ code < 0x20,
          IsPlain (hexDigit (code / 16)) ∧ IsPlain (hexDigit (code % 16)) := by
        decide
      obtain ⟨hfirst, hsecond⟩ := hdigits _ hcontrol
      have hescape : Pass.step? ⟨found, .quoted read⟩ '\\' =
          some ⟨found, .escaped ('\\' :: read)⟩ := rfl
      have hmark : Pass.step? ⟨found, .escaped ('\\' :: read)⟩ 'u' =
          some ⟨found, .quoted ('u' :: '\\' :: read)⟩ := rfl
      have hzero : IsPlain '0' := by decide
      rw [foldlM_cons_of_some hescape, foldlM_cons_of_some hmark,
        foldlM_cons_of_some (step?_of_isPlain hzero ..),
        foldlM_cons_of_some (step?_of_isPlain hzero ..),
        foldlM_cons_of_some (step?_of_isPlain hfirst ..),
        foldlM_cons_of_some (step?_of_isPlain hsecond ..)]
      rfl
    · next hcontrol =>
      simp [step?_of_isPlain ⟨hescaped.1, hescaped.2, hcontrol⟩]

/-- A text as it stands between quotation marks. -/
def quote (text : String) : List Char := text.toList.flatMap quoteChar

/-- A quoted text is a lexeme. -/
theorem isWhole_quote (text : String) : (Lexeme.quoted (quote text)).IsWhole := by
  refine .quoted fun found read => ?_
  unfold quote
  induction text.toList generalizing read with
  | nil => rfl
  | cons c rest ih =>
    rw [List.flatMap_cons, foldlM_append_of_some (foldlM_quoteChar c found read), ih,
      List.reverse_append, List.append_assoc]

/-- A quoted text is read as the text. -/
theorem joinParts?_quote (text : String) :
    (quotedParts? (quote text)).bind joinParts? = some text.toList := by
  rw [quote, quotedParts?_flatMap, Option.bind_some, joinParts?_map]

end Taskflow.Json
