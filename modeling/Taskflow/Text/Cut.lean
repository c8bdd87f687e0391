/-!
# Cutting a text at a separator

The first occurrence of a separator divides a text into what stands before and what
stands after it. The main statements say that a text is cut exactly there: nothing is lost but
the separator, and the separator does not begin anywhere before the cut.
-/

namespace Taskflow.Text

/-- What stands before and after the first occurrence of the separator, if there is one. -/
def cut? (separator : List Char) : List Char → Option (List Char × List Char)
  | [] => if separator.isEmpty then some ([], []) else none
  | c :: rest =>
    if separator.isPrefixOf (c :: rest) then some ([], (c :: rest).drop separator.length)
    else (cut? separator rest).map fun (before, after) => (c :: before, after)

/-- A cut loses nothing but the separator. -/
theorem append_of_cut? {separator text before after : List Char}
    (h : cut? separator text = some (before, after)) : before ++ separator ++ after = text := by
  induction text generalizing before after with
  | nil =>
    simp only [cut?, List.isEmpty_iff] at h
    split at h
    · next hempty => simp_all
    · cases h
  | cons c rest ih =>
    unfold cut? at h
    split at h
    · next hpre =>
      obtain ⟨tail, htail⟩ := List.isPrefixOf_iff_prefix.mp hpre
      simp only [Option.some.injEq, Prod.mk.injEq] at h
      rw [← h.1, ← h.2, ← htail]
      simp
    · obtain ⟨⟨before', after'⟩, hcut, heq⟩ := Option.map_eq_some_iff.mp h
      simp only [Prod.mk.injEq] at heq
      rw [← heq.1, ← heq.2, ← ih hcut]
      simp

/-- Without a cut the separator does not occur. -/
theorem cut?_eq_none_iff {separator text : List Char} :
    cut? separator text = none ↔ ¬ separator <:+: text := by
  induction text with
  | nil => simp [cut?]
  | cons c rest ih =>
    rw [List.infix_cons_iff]
    unfold cut?
    by_cases hpre : separator.isPrefixOf (c :: rest) = true
    · simp [hpre, List.isPrefixOf_iff_prefix.mp hpre]
    · have hpre' : ¬ separator <+: c :: rest := by
        simpa [List.isPrefixOf_iff_prefix] using hpre
      rw [if_neg hpre, Option.map_eq_none_iff, ih]
      simp [hpre']

/-- Where the separator occurs first, it stands between these two parts of a text. -/
def FirstCut (separator text before after : List Char) : Prop :=
  text = before ++ separator ++ after ∧
    ∀ before' after', text = before' ++ separator ++ after' → before.length ≤ before'.length

/-- The separator does not begin anywhere before a cut. -/
theorem length_le_of_cut? {separator text before after before' after' : List Char}
    (h : cut? separator text = some (before, after)) (h' : text = before' ++ separator ++ after') :
    before.length ≤ before'.length := by
  induction text generalizing before before' with
  | nil =>
    simp only [cut?] at h
    split at h
    · obtain ⟨rfl, -⟩ := Prod.mk.inj (Option.some.inj h)
      exact Nat.zero_le _
    · cases h
  | cons c rest ih =>
    unfold cut? at h
    split at h
    · obtain ⟨rfl, -⟩ := Prod.mk.inj (Option.some.inj h)
      exact Nat.zero_le _
    · next hpre =>
      obtain ⟨⟨front, back⟩, hcut, heq⟩ := Option.map_eq_some_iff.mp h
      obtain ⟨rfl, rfl⟩ := Prod.mk.inj heq
      cases before' with
      | nil => exact absurd (List.isPrefixOf_iff_prefix.mpr ⟨after', h'.symm⟩) hpre
      | cons d others =>
        obtain ⟨-, hrest⟩ := List.cons.inj h'
        exact Nat.succ_le_succ (ih hcut hrest)

/-- A text is cut where the separator occurs first. -/
theorem cut?_eq_some_iff {separator text before after : List Char} :
    cut? separator text = some (before, after) ↔ FirstCut separator text before after := by
  constructor
  · intro h
    exact ⟨(append_of_cut? h).symm, fun _ _ h' => length_le_of_cut? h h'⟩
  · rintro ⟨htext, hfirst⟩
    cases hcut : cut? separator text with
    | none => exact absurd ⟨before, after, htext.symm⟩ (cut?_eq_none_iff.mp hcut)
    | some parts =>
      obtain ⟨front, back⟩ := parts
      have hparts := append_of_cut? hcut
      have hlength : front.length = before.length :=
        Nat.le_antisymm (length_le_of_cut? hcut htext) (hfirst front back hparts.symm)
      rw [htext, List.append_assoc, List.append_assoc] at hparts
      obtain ⟨rfl, hrest⟩ := List.append_inj hparts hlength
      obtain rfl := List.append_cancel_left hrest
      rfl

/-- A cut at a single character is made at the first place where it stands. -/
theorem cut?_singleton_eq_some_iff {c : Char} {text before after : List Char} :
    cut? [c] text = some (before, after) ↔ c ∉ before ∧ text = before ++ c :: after := by
  rw [cut?_eq_some_iff]
  constructor
  · rintro ⟨rfl, hfirst⟩
    refine ⟨fun hmem => ?_, by simp⟩
    obtain ⟨front, back, rfl⟩ := List.append_of_mem hmem
    have hle := hfirst front (back ++ c :: after) (by simp)
    rw [List.length_append, List.length_cons] at hle
    omega
  · rintro ⟨hnot, rfl⟩
    refine ⟨by simp, fun before' after' h' => Nat.le_of_not_lt fun hlt => hnot ?_⟩
    have hat : (before ++ c :: after)[before'.length]? = some c := by simp [h']
    rw [List.getElem?_append_left hlt] at hat
    exact List.mem_of_getElem? hat

end Taskflow.Text
