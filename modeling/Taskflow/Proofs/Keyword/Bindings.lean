import Taskflow.Keyword.Legal
import Taskflow.Proofs.Outcome

/-!
# The bindings that a map reads as

Keywords are read one after another into a dictionary. Since no two keywords share a text, none
overwrites what another one bound. The main statement says that afterwards exactly what the value
of each keyword reads as stands under its text.
-/

namespace Taskflow

variable {entries : Mapping} {keywords : List Keyword} {bindings : Bindings}

/-- What stands under a key once a keyword was added. -/
theorem Bindings.get?_add (bindings : Bindings) (keyword : Keyword) (binding : Option Binding)
    (key : String) :
    (Bindings.add bindings keyword binding).get? key =
      if key = keyword.text then binding.or (bindings.get? key) else bindings.get? key := by
  cases binding with
  | none => simp [Bindings.add]
  | some binding =>
    rw [Bindings.add, Dict.get?_insert]
    rfl

/-- Bindings hold what the values of some keywords read as, and nothing else. -/
structure ReadsAs (entries : Mapping) (keywords : List Keyword) (bindings : Bindings) : Prop where
  /-- Under each of the keywords stands what its value reads as, if anything. -/
  read : ∀ keyword ∈ keywords, readKeyword entries keyword = .ok (bindings.get? keyword.text)
  /-- Nothing stands under any other key. -/
  absent : ∀ key, (∀ keyword ∈ keywords, keyword.text ≠ key) → bindings.get? key = none

namespace ReadsAs

/-- No keyword binds nothing. -/
theorem empty (entries : Mapping) : ReadsAs entries [] .empty := by
  constructor
  · intro keyword hkeyword
    cases hkeyword
  · intro key _
    exact Dict.get?_empty key

/-- Reading one more keyword keeps what the others bound, even if it was read before. -/
theorem add {keyword : Keyword} {binding : Option Binding} (h : ReadsAs entries keywords bindings)
    (hread : readKeyword entries keyword = .ok binding) :
    ReadsAs entries (keywords ++ [keyword]) (Bindings.add bindings keyword binding) := by
  have hown : binding.or (bindings.get? keyword.text) = binding := by
    cases binding with
    | some binding => rfl
    | none =>
      -- The keyword binds nothing, so it stands among the others only if it bound nothing there.
      by_cases hmem : keyword ∈ keywords
      · have hbound := (h.read keyword hmem).symm.trans hread
        exact Except.ok.inj hbound
      · exact h.absent _ fun other hother heq => hmem (Keyword.text_injective heq ▸ hother)
  constructor
  · intro other hother
    rw [Bindings.get?_add]
    by_cases heq : other = keyword
    · subst heq
      rw [if_pos rfl, hown, hread]
    · have hmem : other ∈ keywords := by simpa [heq] using hother
      rw [if_neg fun htext => heq (Keyword.text_injective htext), h.read other hmem]
  · intro key hkey
    have hne : key ≠ keyword.text := fun heq => hkey keyword (by simp) heq.symm
    rw [Bindings.get?_add, if_neg hne]
    exact h.absent key fun other hother => hkey other (by simp [hother])

end ReadsAs

/-- The bindings that are read hold exactly what the keywords read as. -/
theorem readsAs_of_readBindings (h : readBindings entries keywords = .ok bindings) :
    ReadsAs entries keywords bindings := by
  have hfold : ∀ (rest seen : List Keyword) (start : Bindings), ReadsAs entries seen start →
      rest.foldlM (fun bindings keyword => do
        let binding ← readKeyword entries keyword
        return Bindings.add bindings keyword binding) start = .ok bindings →
      ReadsAs entries (seen ++ rest) bindings := by
    -- The invariant is that the bindings read so far hold what the keywords seen so far read as.
    intro rest
    induction rest with
    | nil =>
      intro seen start hstart hok
      obtain rfl : start = bindings := Except.ok.inj hok
      rwa [List.append_nil]
    | cons keyword rest ih =>
      intro seen start hstart hok
      rw [List.foldlM_cons] at hok
      obtain ⟨next, hnext, hrest⟩ := bind_eq_ok_iff.mp hok
      obtain ⟨binding, hread, hadd⟩ := bind_eq_ok_iff.mp hnext
      obtain rfl : Bindings.add start keyword binding = next := Except.ok.inj hadd
      have hseen := ih (seen ++ [keyword]) _ (hstart.add hread) hrest
      rwa [List.append_assoc] at hseen
  exact hfold keywords [] .empty (ReadsAs.empty entries) h

/-- Reading bindings fails with the fault of the first keyword whose value is faulty. -/
theorem describedBy_readBindings (entries : Mapping) (keywords : List Keyword) :
    DescribedBy (readBindings entries keywords)
      (keywords.map fun keyword => faultOf (readKeyword entries keyword)) := by
  have hfold : ∀ start : Bindings, DescribedBy
      (keywords.foldlM (fun bindings keyword => do
        let binding ← readKeyword entries keyword
        return Bindings.add bindings keyword binding) start)
      (keywords.map fun keyword => faultOf (readKeyword entries keyword)) := by
    induction keywords with
    | nil => exact fun start => DescribedBy.ok start
    | cons keyword rest ih =>
      intro start
      have hkeyword := DescribedBy.own (readKeyword entries keyword)
      rw [List.foldlM_cons, List.map_cons]
      exact (hkeyword.map (Bindings.add start keyword)).bind fun next _ => ih next
  exact hfold .empty

end Taskflow
