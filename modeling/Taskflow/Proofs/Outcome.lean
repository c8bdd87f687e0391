import Mathlib.Data.List.Forall2
import Taskflow.Fault

/-!
# Outcomes of runs that may fail

A run gives a result or a fault. Checks, each with the fault that it reports or none, describe a
run that ends with the fault of the first check that fails, and with a result if none does. The
main statements say that a run in two steps is described by the checks of both in turn, and that
it ends with no other faults than its steps do.
-/

namespace Taskflow

variable {α β : Type}

/-- A run in two steps gives a result exactly if both steps give one. -/
theorem bind_eq_ok_iff {run : Except Fault α} {next : α → Except Fault β} {result : β} :
    (run >>= next) = .ok result ↔ ∃ value, run = .ok value ∧ next value = .ok result := by
  cases run <;> simp [Bind.bind, Except.bind]

/-- A run in two steps ends with a fault of the first one, or else of the second one. -/
theorem bind_eq_error_iff {run : Except Fault α} {next : α → Except Fault β} {fault : Fault} :
    (run >>= next) = .error fault ↔
      run = .error fault ∨ ∃ value, run = .ok value ∧ next value = .error fault := by
  cases run <;> simp [Bind.bind, Except.bind]

/-- A first step may be followed by any that goes on alike from its result. -/
theorem bind_congr_of_ok {run : Except Fault α} {next next' : α → Except Fault β}
    (h : ∀ value, run = .ok value → next value = next' value) : (run >>= next) = run >>= next' := by
  cases run with
  | error fault => rfl
  | ok value => exact h value rfl

/-- Running item by item gives results exactly if every item gives the result at its position. -/
theorem mapM_eq_ok_iff {run : α → Except Fault β} {items : List α} {results : List β} :
    items.mapM run = .ok results ↔
      List.Forall₂ (fun item result => run item = .ok result) items results := by
  induction items generalizing results with
  | nil =>
    rw [List.forall₂_nil_left_iff]
    constructor
    · intro h
      exact (Except.ok.inj h).symm
    · rintro rfl
      rfl
  | cons item rest ih =>
    rw [List.mapM_cons, List.forall₂_cons_left_iff]
    simp only [bind_eq_ok_iff, ih]
    constructor
    · rintro ⟨first, hfirst, others, hothers, h⟩
      exact ⟨first, others, hfirst, hothers, (Except.ok.inj h).symm⟩
    · rintro ⟨first, others, hfirst, hothers, rfl⟩
      exact ⟨first, hfirst, others, hothers, rfl⟩

/-- Where each run can only give the result of a function, so do they item by item. -/
theorem eq_map_of_mapM_eq_ok {run : α → Except Fault β} {f : α → β} {items : List α}
    {results : List β} (hrun : ∀ item result, run item = .ok result → result = f item)
    (h : items.mapM run = .ok results) : results = items.map f := by
  induction mapM_eq_ok_iff.mp h with
  | nil => rfl
  | cons hfirst hrest ih => rw [List.map_cons, ← hrun _ _ hfirst, ← ih (mapM_eq_ok_iff.mpr hrest)]

/-- Running more items runs the first ones and then the others. -/
theorem mapM_append_eq_ok_iff {run : α → Except Fault β} {front back : List α}
    {results : List β} :
    (front ++ back).mapM run = .ok results ↔
      ∃ first others, front.mapM run = .ok first ∧ back.mapM run = .ok others ∧
        results = first ++ others := by
  rw [List.mapM_append]
  simp only [bind_eq_ok_iff]
  constructor
  · rintro ⟨first, hfirst, others, hothers, h⟩
    exact ⟨first, others, hfirst, hothers, (Except.ok.inj h).symm⟩
  · rintro ⟨first, others, hfirst, hothers, rfl⟩
    exact ⟨first, hfirst, others, hothers, rfl⟩

/-- The fault of a run, if it has one. -/
def faultOf : Except Fault α → Option Fault
  | .ok _ => none
  | .error fault => some fault

/-- A run without a fault has a result. -/
theorem faultOf_eq_none_iff {run : Except Fault α} :
    faultOf run = none ↔ ∃ result, run = .ok result := by
  cases run <;> simp [faultOf]

/-- A run with a fault ends with it. -/
theorem faultOf_eq_some_iff {run : Except Fault α} {fault : Fault} :
    faultOf run = some fault ↔ run = .error fault := by
  cases run <;> simp [faultOf]

/-- The result of a run, if it has one, is what the run gives. -/
theorem toOption_eq_some_iff {run : Except Fault α} {result : α} :
    run.toOption = some result ↔ run = .ok result := by
  cases run <;> simp [Except.toOption]

/-- The fault of the first check that fails. -/
def firstFault (checks : List (Option Fault)) : Option Fault := checks.findSome? id

/-- No check fails exactly if each of them passes. -/
theorem firstFault_eq_none_iff {checks : List (Option Fault)} :
    firstFault checks = none ↔ ∀ check ∈ checks, check = none := by
  simp [firstFault, List.findSome?_eq_none_iff]

/-- The first check that fails is the one before which all pass. -/
theorem firstFault_eq_some_iff {checks : List (Option Fault)} {fault : Fault} :
    firstFault checks = some fault ↔
      ∃ passed rest, checks = passed ++ some fault :: rest ∧ ∀ check ∈ passed, check = none := by
  unfold firstFault
  rw [List.findSome?_eq_some_iff]
  constructor
  · rintro ⟨passed, check, rest, rfl, hcheck, hpassed⟩
    exact ⟨passed, rest, by rw [show check = some fault from hcheck], hpassed⟩
  · rintro ⟨passed, rest, rfl, hpassed⟩
    exact ⟨passed, some fault, rest, rfl, rfl, hpassed⟩

/-- Later checks count only if no earlier one fails. -/
theorem firstFault_append (first rest : List (Option Fault)) :
    firstFault (first ++ rest) = (firstFault first).or (firstFault rest) := by
  simp [firstFault, List.findSome?_append]

/-- Checks describe a run whose fault is that of the first check that fails. -/
def DescribedBy (run : Except Fault α) (checks : List (Option Fault)) : Prop :=
  faultOf run = firstFault checks

namespace DescribedBy

/-- No check is needed for a run that only gives a result. -/
theorem ok (result : α) : DescribedBy (.ok result : Except Fault α) [] := rfl

/-- A run is described by its own fault. -/
theorem own (run : Except Fault α) : DescribedBy run [faultOf run] := by
  cases run <;> rfl

/-- The second step matters only where the first one succeeds, as do its checks. -/
theorem bind {run : Except Fault α} {next : α → Except Fault β}
    {first rest : List (Option Fault)} (hrun : DescribedBy run first)
    (hnext : ∀ value, run = .ok value → DescribedBy (next value) rest) :
    DescribedBy (run >>= next) (first ++ rest) := by
  unfold DescribedBy at hrun ⊢
  rw [firstFault_append, ← hrun]
  cases run with
  | error fault => rfl
  | ok value => exact hnext value rfl

/-- A step that cannot fail needs no check. -/
theorem map {run : Except Fault α} {checks : List (Option Fault)} (hrun : DescribedBy run checks)
    (f : α → β) : DescribedBy (run >>= fun value => .ok (f value)) checks := by
  have hlast : ∀ value, run = .ok value → DescribedBy (.ok (f value) : Except Fault β) [] :=
    fun value _ => ok (f value)
  simpa using hrun.bind hlast

/-- A condition that ends a run comes before the checks of the rest. -/
theorem guarded {run : Except Fault α} {checks : List (Option Fault)} {refused : Bool}
    {fault : Fault} (hrun : refused = false → DescribedBy run checks) :
    DescribedBy (if refused then .error fault else run)
      ((if refused then some fault else none) :: checks) := by
  cases refused with
  | true => rfl
  | false => exact hrun rfl

/-- Running item by item is described by the checks of each item in turn. -/
theorem mapM {run : α → Except Fault β} {checks : α → List (Option Fault)}
    (hrun : ∀ item, DescribedBy (run item) (checks item)) (items : List α) :
    DescribedBy (items.mapM run) (items.flatMap checks) := by
  induction items with
  | nil => exact ok []
  | cons item rest ih =>
    rw [List.mapM_cons, List.flatMap_cons]
    exact (hrun item).bind fun first _ => ih.map (first :: ·)

/-- Runs with the same checks are the same if they give no two results. -/
theorem eq_of_results {run other : Except Fault α} {checks : List (Option Fault)}
    (hrun : DescribedBy run checks) (hother : DescribedBy other checks)
    (h : ∀ result result', run = .ok result → other = .ok result' → result = result') :
    run = other := by
  have hfaults : faultOf run = faultOf other := hrun.trans hother.symm
  cases run with
  | error fault => exact (faultOf_eq_some_iff.mp hfaults.symm).symm
  | ok result =>
    obtain ⟨result', rfl⟩ := faultOf_eq_none_iff.mp hfaults.symm
    rw [h result result' rfl rfl]

end DescribedBy

/-- Running item by item has the fault of the first item that has one. -/
theorem faultOf_mapM (run : α → Except Fault β) (items : List α) :
    faultOf (items.mapM run) = firstFault (items.map fun item => faultOf (run item)) := by
  have hchecks : (items.flatMap fun item => [faultOf (run item)]) =
      items.map fun item => faultOf (run item) := List.flatMap_pure_eq_map _ _
  rw [← hchecks]
  exact DescribedBy.mapM (fun item => DescribedBy.own (run item)) items

/-- Running item by item gives results exactly if every item gives one. -/
theorem exists_mapM_eq_ok_iff {run : α → Except Fault β} {items : List α} :
    (∃ results, items.mapM run = .ok results) ↔
      ∀ item ∈ items, ∃ result, run item = .ok result := by
  rw [← faultOf_eq_none_iff, faultOf_mapM, firstFault_eq_none_iff]
  simp only [List.forall_mem_map, faultOf_eq_none_iff]

/-- Running item by item ends with the fault of the first item that has one. -/
theorem mapM_eq_error_iff {run : α → Except Fault β} {items : List α} {fault : Fault} :
    items.mapM run = .error fault ↔
      ∃ front item back, items = front ++ item :: back ∧
        (∀ other ∈ front, ∃ result, run other = .ok result) ∧ run item = .error fault := by
  rw [← faultOf_eq_some_iff, faultOf_mapM, firstFault_eq_some_iff]
  constructor
  · rintro ⟨passed, rest, hmap, hpassed⟩
    obtain ⟨front, others, rfl, rfl, hothers⟩ := List.map_eq_append_iff.mp hmap
    obtain ⟨item, back, rfl, hitem, rfl⟩ := List.map_eq_cons_iff.mp hothers
    refine ⟨front, item, back, rfl, fun other hother => ?_, faultOf_eq_some_iff.mp hitem⟩
    exact faultOf_eq_none_iff.mp (hpassed _ (List.mem_map_of_mem hother))
  · rintro ⟨front, item, back, rfl, hfront, hitem⟩
    refine ⟨front.map fun item => faultOf (run item),
      back.map fun item => faultOf (run item), ?_, ?_⟩
    · rw [List.map_append, List.map_cons, faultOf_eq_some_iff.mpr hitem]
    · intro check hcheck
      obtain ⟨other, hother, rfl⟩ := List.mem_map.mp hcheck
      exact faultOf_eq_none_iff.mpr (hfront other hother)

/-- A run ends with no fault but those that are allowed. -/
def RefusesOnly (allowed : Fault → Prop) (run : Except Fault α) : Prop :=
  ∀ fault, run = .error fault → allowed fault

namespace RefusesOnly

variable {allowed : Fault → Prop} {run : Except Fault α}

/-- A result is no refusal. -/
theorem ok (result : α) : RefusesOnly allowed (.ok result : Except Fault α) := by
  intro fault h
  cases h

/-- A run that only refuses does so with its own fault. -/
theorem error {fault : Fault} (h : allowed fault) :
    RefusesOnly allowed (.error fault : Except Fault α) := by
  rintro other ⟨⟩
  exact h

/-- What is allowed in both steps of a run is allowed in the run. -/
theorem bind {next : α → Except Fault β} (hrun : RefusesOnly allowed run)
    (hnext : ∀ value, run = .ok value → RefusesOnly allowed (next value)) :
    RefusesOnly allowed (run >>= next) := by
  cases run with
  | error fault => exact error (hrun fault rfl)
  | ok value => exact hnext value rfl

/-- What is allowed for every item is allowed when they are run item by item. -/
theorem mapM {next : α → Except Fault β} {items : List α}
    (h : ∀ item ∈ items, RefusesOnly allowed (next item)) :
    RefusesOnly allowed (items.mapM next) := by
  induction items with
  | nil => exact ok []
  | cons item rest ih =>
    rw [List.mapM_cons]
    refine (h item List.mem_cons_self).bind fun first _ => ?_
    exact (ih fun other hother => h other (List.mem_cons_of_mem _ hother)).bind fun _ _ => ok _

/-- More may be allowed. -/
theorem mono {permitted : Fault → Prop} (hrun : RefusesOnly allowed run)
    (h : ∀ fault, allowed fault → permitted fault) : RefusesOnly permitted run :=
  fun fault hfault => h fault (hrun fault hfault)

/-- A run refuses only with faults of the checks that describe it. -/
theorem of_describedBy {checks : List (Option Fault)} (hrun : DescribedBy run checks)
    (h : ∀ fault, some fault ∈ checks → allowed fault) : RefusesOnly allowed run := by
  intro fault hfault
  have hfirst : firstFault checks = some fault := by
    rw [← hrun]
    exact faultOf_eq_some_iff.mpr hfault
  obtain ⟨passed, rest, rfl, _⟩ := firstFault_eq_some_iff.mp hfirst
  exact h fault (by simp)

end RefusesOnly

end Taskflow
