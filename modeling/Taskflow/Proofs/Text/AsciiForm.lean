import Taskflow.Text.Caseless
import Taskflow.Text.LowerCase

/-!
# Texts with an ASCII lower-case form

Keys are compared by their full lower-case forms in one place and up to the case of ASCII letters
in another. The main statement says that the two agree where the full form is ASCII, with one
exception: the Kelvin sign, the only character beyond ASCII whose small letter is ASCII.
-/

namespace Taskflow.Text

/-- The Kelvin sign, whose small letter is `k`. -/
def kelvinSign : Char := Char.ofNat 0x212A

/-- A run of capitals leads to small letters that are characters beyond ASCII. -/
def CapitalRun.LeavesAscii (run : CapitalRun) : Prop :=
  0x80 ≤ run.first + run.shift ∧
    (run.last + run.shift < 0xD800 ∨
      0xDFFF < run.first + run.shift ∧ run.last + run.shift < 0x110000)

instance (run : CapitalRun) : Decidable run.LeavesAscii :=
  inferInstanceAs (Decidable (_ ∧ _))

/-- All capitals beyond ASCII but the Kelvin sign have small letters beyond ASCII. -/
theorem leavesAscii_of_mem_capitalRuns {run : CapitalRun} (h : run ∈ capitalRuns) :
    run.LeavesAscii ∨ run.first = 0x212A ∧ run.last = 0x212A := by
  have hall : ∀ run ∈ capitalRuns,
      run.LeavesAscii ∨ run.first = 0x212A ∧ run.last = 0x212A := by decide +kernel
  exact hall run h

/-- The Kelvin sign is known by its code point. -/
theorem eq_kelvinSign_of_toNat {c : Char} (h : c.toNat = 0x212A) : c = kelvinSign := by
  rw [← Char.ofNat_toNat c, h]
  rfl

/-- The small letters that such a run leads to are beyond ASCII. -/
theorem le_toNat_of_leavesAscii {run : CapitalRun} {code : Nat} (hrun : run.LeavesAscii)
    (hholds : run.holds code = true) :
    0x80 ≤ (Char.ofNat (Int.toNat (code + run.shift))).toNat := by
  obtain ⟨hfirst, hvalid⟩ := hrun
  simp only [CapitalRun.holds, Bool.and_eq_true, decide_eq_true_eq] at hholds
  obtain ⟨⟨hleast, hmost⟩, _⟩ := hholds
  have hcode : (Int.toNat (code + run.shift)).isValidChar := by
    rw [Nat.isValidChar]
    omega
  have hsame :
      (Char.ofNat (Int.toNat (code + run.shift))).toNat = Int.toNat (code + run.shift) := by
    exact congrArg Char.toNat (dif_pos hcode : Char.ofNat _ = Char.ofNatAux _ hcode)
  rw [hsame]
  omega

/-- A character has an ASCII lower-case form only if it is ASCII or the Kelvin sign. -/
theorem ascii_of_lowerChar {c : Char} (h : ∀ d ∈ lowerChar c, d.toNat < 0x80)
    (hkelvin : c ≠ kelvinSign) : c.toNat < 0x80 := by
  unfold lowerChar at h
  split at h
  · assumption
  · split at h
    · exact absurd (h (Char.ofNat 0x0307) (by simp)) (by decide)
    · split at h
      · next run hrun =>
        have hsmall := h _ (List.mem_singleton_self _)
        have hholds : run.holds c.toNat = true := by simpa using List.find?_some hrun
        rcases leavesAscii_of_mem_capitalRuns (List.mem_of_find?_eq_some hrun) with hleaves | hone
        · exact absurd (le_toNat_of_leavesAscii hleaves hholds) (Nat.not_le.mpr hsmall)
        · simp only [CapitalRun.holds, Bool.and_eq_true, decide_eq_true_eq] at hholds
          exact absurd (eq_kelvinSign_of_toNat (by omega)) hkelvin
      · exact h c (List.mem_singleton_self c)

/-- A sigma stays beyond ASCII wherever it stands. -/
theorem lowerSigma_not_ascii (preceding following : List Char) :
    ¬(lowerSigma preceding following).toNat < 0x80 := by
  unfold lowerSigma
  split <;> decide

/-- Only ASCII text and the Kelvin sign have an ASCII lower-case form. -/
theorem ascii_of_lowerAfter {preceding text : List Char}
    (h : ∀ d ∈ lowerAfter preceding text, d.toNat < 0x80) (hkelvin : kelvinSign ∉ text) :
    ∀ c ∈ text, c.toNat < 0x80 := by
  induction text generalizing preceding with
  | nil => exact fun c hc => absurd hc List.not_mem_nil
  | cons c rest ih =>
    rw [List.mem_cons, not_or] at hkelvin
    rw [lowerAfter] at h
    intro d hd
    rcases List.mem_cons.mp hd with rfl | hd
    · split at h
      · exact absurd (h _ (by simp)) (lowerSigma_not_ascii preceding rest)
      · exact ascii_of_lowerChar (fun e he => h e (List.mem_append_left _ he)) (Ne.symm hkelvin.1)
    · exact ih (fun e he => h e (List.mem_append_right _ he)) hkelvin.2 d hd

/-- A text without a Kelvin sign whose lower-case form is ASCII is lowered letter by letter. -/
theorem toList_lowerCase_of_ascii {text : String}
    (h : ∀ d ∈ (lowerCase text).toList, d.toNat < 0x80) (hkelvin : kelvinSign ∉ text.toList) :
    (lowerCase text).toList = asciiLower text := by
  rw [lowerCase, String.toList_ofList] at h
  rw [lowerCase_of_ascii (ascii_of_lowerAfter h hkelvin), String.toList_ofList, asciiLower]

/-- A character whose small letter is ASCII by the rule for ASCII letters is ASCII itself. -/
theorem ascii_of_toLower {c : Char} (h : c.toLower.toNat < 0x80) : c.toNat < 0x80 := by
  unfold Char.toLower at h
  split at h
  · next hcapital =>
    have hmost : c.toNat ≤ 'Z'.toNat := UInt32.le_iff_toNat_le.mp hcapital.2
    have hcode : 'Z'.toNat = 0x5A := by rfl
    omega
  · exact h

/-- A key that differs in case only from an ASCII text without capitals is lowered to it. -/
theorem lowerCase_of_caselessEq {key name : String} (hascii : ∀ c ∈ name.toList, c.toNat < 0x80)
    (hsmall : asciiLower name = name.toList) (h : caselessEq key name = true) :
    lowerCase key = name := by
  have hlower : asciiLower key = name.toList := (caselessEq_iff.mp h).trans hsmall
  have hkey : ∀ c ∈ key.toList, c.toNat < 0x80 := by
    intro c hc
    have hmem : c.toLower ∈ name.toList := hlower ▸ List.mem_map_of_mem hc
    exact ascii_of_toLower (hascii c.toLower hmem)
  rw [lowerCase_of_ascii hkey]
  change String.ofList (asciiLower key) = name
  rw [hlower, String.ofList_toList]

end Taskflow.Text
