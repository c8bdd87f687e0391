import Taskflow.Proofs.Keyword.Bindings

/-!
# Keywords read together and apart

The keywords of one map may be read in one turn or in several, and a turn may come back to a
keyword that was read before. The main statement says that keywords which are read together bind
what they bind apart, so that neither their order nor their repeats matter, and that the first
keyword whose value is faulty decides the fault.
-/

namespace Taskflow

variable {entries : Mapping} {keywords others front back : List Keyword}
  {bindings left right joined : Bindings} {key : String} {binding : Binding}

/-- Bindings are joined from two parts that do not contradict each other. -/
structure Bindings.Join (left right joined : Bindings) : Prop where
  /-- What both parts hold under a key is the same. -/
  agree : ∀ key x y, left.get? key = some x → right.get? key = some y → x = y
  /-- Under each key stands what one of the parts holds there, if anything. -/
  get?_eq : ∀ key, joined.get? key = (left.get? key).or (right.get? key)

namespace ReadsAs

/-- A binding stands under a key exactly if the keyword of that text reads as it. -/
theorem get?_eq_some_iff (h : ReadsAs entries keywords bindings) :
    bindings.get? key = some binding ↔
      ∃ keyword ∈ keywords, keyword.text = key ∧
        readKeyword entries keyword = .ok (some binding) := by
  constructor
  · intro hget
    have hlisted : ∃ keyword ∈ keywords, keyword.text = key := by
      refine Classical.byContradiction fun hnone => ?_
      rw [h.absent key fun keyword hmem htext => hnone ⟨keyword, hmem, htext⟩] at hget
      cases hget
    obtain ⟨keyword, hmem, rfl⟩ := hlisted
    exact ⟨keyword, hmem, rfl, hget ▸ h.read keyword hmem⟩
  · rintro ⟨keyword, hmem, rfl, hread⟩
    exact Except.ok.inj ((h.read keyword hmem).symm.trans hread)

/-- There is only one thing that keywords read as. -/
theorem unique (h : ReadsAs entries keywords bindings) (hother : ReadsAs entries keywords joined) :
    joined = bindings := by
  refine Dict.ext_get? fun key => Option.ext fun binding => ?_
  rw [h.get?_eq_some_iff, hother.get?_eq_some_iff]

/-- It matters which keywords are listed, not where and how often. -/
theorem congr (h : ReadsAs entries keywords bindings)
    (hsame : ∀ keyword, keyword ∈ others ↔ keyword ∈ keywords) :
    ReadsAs entries others bindings := by
  constructor
  · exact fun keyword hmem => h.read keyword ((hsame keyword).mp hmem)
  · exact fun key hne => h.absent key fun keyword hmem => hne keyword ((hsame keyword).mpr hmem)

/-- The same key holds the same binding, whatever else was read. -/
theorem agree (hleft : ReadsAs entries front left) (hright : ReadsAs entries back right)
    {other : Binding} (hbinding : left.get? key = some binding)
    (hother : right.get? key = some other) : binding = other := by
  obtain ⟨keyword, -, rfl, hread⟩ := hleft.get?_eq_some_iff.mp hbinding
  obtain ⟨keyword', -, htext, hread'⟩ := hright.get?_eq_some_iff.mp hother
  -- No two keywords have the same text, so both bindings were read from one value.
  obtain rfl := Keyword.text_injective htext
  exact Option.some.inj (Except.ok.inj (hread.symm.trans hread'))

/-- What is read together is joined from what is read apart. -/
theorem join (hleft : ReadsAs entries front left) (hright : ReadsAs entries back right)
    (hjoined : ReadsAs entries (front ++ back) joined) : Bindings.Join left right joined := by
  refine ⟨fun key x y => hleft.agree hright, fun key => Option.ext fun binding => ?_⟩
  have hparts : joined.get? key = some binding ↔
      left.get? key = some binding ∨ right.get? key = some binding := by
    rw [hjoined.get?_eq_some_iff, hleft.get?_eq_some_iff, hright.get?_eq_some_iff]
    simp only [List.mem_append, or_and_right, exists_or]
  rw [hparts, Option.or_eq_some_iff]
  constructor
  · rintro (hbound | hbound)
    · exact .inl hbound
    · cases hother : left.get? key with
      | none => exact .inr ⟨rfl, hbound⟩
      | some other => exact .inl (congrArg some (hleft.agree hright hother hbound))
  · rintro (hbound | ⟨-, hbound⟩)
    · exact .inl hbound
    · exact .inr hbound

end ReadsAs

/-- Keywords are read as bindings with the fault that reading their values one by one has. -/
theorem faultOf_readBindings (entries : Mapping) (keywords : List Keyword) :
    faultOf (readBindings entries keywords) = faultOf (keywords.mapM (readKeyword entries)) :=
  (describedBy_readBindings entries keywords).trans (faultOf_mapM _ _).symm

/-- Keywords are read as bindings exactly if the value of each of them can be read. -/
theorem exists_readBindings_eq_ok_iff :
    (∃ bindings, readBindings entries keywords = .ok bindings) ↔
      ∀ keyword ∈ keywords, ∃ binding, readKeyword entries keyword = .ok binding := by
  rw [← faultOf_eq_none_iff, faultOf_readBindings, faultOf_eq_none_iff, exists_mapM_eq_ok_iff]

/-- The bindings of a map are those that its keywords read as. -/
theorem readBindings_eq_ok_iff :
    readBindings entries keywords = .ok bindings ↔ ReadsAs entries keywords bindings := by
  refine ⟨readsAs_of_readBindings, fun h => ?_⟩
  obtain ⟨found, hfound⟩ := exists_readBindings_eq_ok_iff.mpr
    fun keyword hmem => ⟨_, h.read keyword hmem⟩
  rw [hfound, h.unique (readsAs_of_readBindings hfound)]

/-- Reading ends with the fault of the first keyword whose value is faulty. -/
theorem readBindings_eq_error_iff {fault : Fault} :
    readBindings entries keywords = .error fault ↔
      ∃ front keyword back, keywords = front ++ keyword :: back ∧
        (∀ other ∈ front, ∃ binding, readKeyword entries other = .ok binding) ∧
        readKeyword entries keyword = .error fault := by
  rw [← faultOf_eq_some_iff, faultOf_readBindings, faultOf_eq_some_iff, mapM_eq_error_iff]

/-- Keywords can be read together exactly if they can be read apart, in two lists with whatever in
common, and then bind together what they bind apart. The bindings depend on which keywords are
listed, not on their order and repeats: each stands under its keyword as its value reads, and there
are no others. If some value is faulty, the first such keyword decides the fault. -/
theorem keywords_join (entries : Mapping) :
    (∀ front back,
      ((∃ joined, readBindings entries (front ++ back) = .ok joined) ↔
        (∃ left, readBindings entries front = .ok left) ∧
          ∃ right, readBindings entries back = .ok right) ∧
      ∀ left right joined, readBindings entries front = .ok left →
        readBindings entries back = .ok right →
        readBindings entries (front ++ back) = .ok joined → Bindings.Join left right joined) ∧
    (∀ keywords bindings, readBindings entries keywords = .ok bindings →
      ReadsAs entries keywords bindings ∧
      ∀ others, (∀ keyword, keyword ∈ others ↔ keyword ∈ keywords) →
        readBindings entries others = .ok bindings) ∧
    ∀ keywords fault, readBindings entries keywords = .error fault ↔
      ∃ front keyword back, keywords = front ++ keyword :: back ∧
        (∀ other ∈ front, ∃ binding, readKeyword entries other = .ok binding) ∧
        readKeyword entries keyword = .error fault := by
  refine ⟨fun front back => ⟨?_, ?_⟩, fun keywords bindings h => ⟨?_, ?_⟩,
    fun _ _ => readBindings_eq_error_iff⟩
  · simp only [exists_readBindings_eq_ok_iff, List.forall_mem_append]
  · intro left right joined hleft hright hjoined
    exact (readsAs_of_readBindings hleft).join (readsAs_of_readBindings hright)
      (readsAs_of_readBindings hjoined)
  · exact readsAs_of_readBindings h
  · intro others hsame
    exact readBindings_eq_ok_iff.mpr ((readsAs_of_readBindings h).congr hsame)

/-- The body of a task that runs once for each host and shows what it did. -/
def hostBody : Mapping :=
  [("DO", .map [("ops.install", .list [.text "package"])]), ("loop", .text "host in hosts"),
    ("publish", .list [.text "version"])]

/-- The loop is read in both turns, and the lists name further keywords that are absent. -/
theorem keywords_join_of_hostBody :
    ∃ left right joined,
      readBindings hostBody [.loop, .invoke, .parallelLoop] = .ok left ∧
      readBindings hostBody [.publish, .loop, .breakOn] = .ok right ∧
      readBindings hostBody [.loop, .invoke, .parallelLoop, .publish, .loop, .breakOn] =
        .ok joined ∧
      Bindings.Join left right joined ∧
      joined.get? "loop" = some (.loop (.list "host" "hosts" false)) ∧
      readBindings hostBody [.invoke, .breakOn, .loop, .publish, .parallelLoop] = .ok joined := by
  obtain ⟨happend, hset, -⟩ := keywords_join hostBody
  obtain ⟨left, hleft⟩ := faultOf_eq_none_iff.mp
    (show faultOf (readBindings hostBody [.loop, .invoke, .parallelLoop]) = none by decide +kernel)
  obtain ⟨right, hright⟩ := faultOf_eq_none_iff.mp
    (show faultOf (readBindings hostBody [.publish, .loop, .breakOn]) = none by decide +kernel)
  obtain ⟨hboth, hjoin⟩ := happend [.loop, .invoke, .parallelLoop] [.publish, .loop, .breakOn]
  obtain ⟨joined, hjoined⟩ := hboth.mpr ⟨⟨left, hleft⟩, right, hright⟩
  have hread : readKeyword hostBody .loop = .ok (some (.loop (.list "host" "hosts" false))) := by
    decide +kernel
  have htext : Keyword.loop.text = "loop" := by decide +kernel
  refine ⟨left, right, joined, hleft, hright, hjoined, hjoin _ _ _ hleft hright hjoined, ?_, ?_⟩
  · rw [(hset _ _ hjoined).1.get?_eq_some_iff]
    exact ⟨.loop, by decide, htext, hread⟩
  · refine (hset _ _ hjoined).2 _ fun keyword => ?_
    cases keyword <;> decide

end Taskflow
