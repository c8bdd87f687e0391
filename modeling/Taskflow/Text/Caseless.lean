/-!
# Equality up to the case of ASCII letters

Two keys name the same entry when they differ only in the case of ASCII letters. All other
characters must agree exactly. The main statement says that this is equality of lower-case
forms.
-/

namespace Taskflow.Text

/-- The text with its ASCII capitals replaced by small letters. -/
def asciiLower (text : String) : List Char := text.toList.map Char.toLower

/-- Whether two texts differ only in the case of ASCII letters. -/
def caselessEq (a b : String) : Bool := asciiLower a == asciiLower b

/-- Two texts are caseless equal exactly when their ASCII lower-case forms agree. -/
theorem caselessEq_iff {a b : String} : caselessEq a b = true ↔ asciiLower a = asciiLower b := by
  simp [caselessEq]

/-- Every text is caseless equal to itself. -/
@[simp] theorem caselessEq_refl (a : String) : caselessEq a a = true := by simp [caselessEq]

/-- Caseless equality does not depend on the order of its arguments. -/
theorem caselessEq_comm (a b : String) : caselessEq a b = caselessEq b a := by
  rw [Bool.eq_iff_iff, caselessEq_iff, caselessEq_iff]
  exact eq_comm

/-- Texts that are caseless equal to the same text are so to one another. -/
theorem caselessEq_of_both {a b c : String} (hab : caselessEq a b = true)
    (hac : caselessEq a c = true) : caselessEq b c = true := by
  rw [caselessEq_iff] at *
  exact hab.symm.trans hac

end Taskflow.Text
