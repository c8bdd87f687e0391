import Mathlib.Data.Nat.Find
import Taskflow.Compile.Task

/-!
# Walks over the positions of a flow

Without navigation of its own a task at some position goes on to the next position of its
sequence or to the first handler. Such a walk only goes forwards, whatever the outcomes, which
bounds its length. The main statements say that positions increase and where the handlers are
entered.
-/

namespace Taskflow

/-- How a task may end. -/
inductive Outcome
  | success
  | failure
  deriving DecidableEq

/-- The result that an outcome has in a navigation, which is also how a flow ends by it. -/
def Outcome.result : Outcome → String
  | .success => Compile.successResult
  | .failure => Compile.failureResult

/-- The position that a task goes on to by default, if any: success leads to the next one among
the main tasks or among the handlers, and failure of a main task to the first handler. -/
def nextPosition? (mainCount count position : Nat) : Outcome → Option Nat
  | .success =>
    if position + 1 < mainCount ∨ mainCount ≤ position ∧ position + 1 < count then
      some (position + 1)
    else none
  | .failure => if position < mainCount ∧ mainCount < count then some mainCount else none

/-- The position reached after a number of steps, if the walk has not stopped before. -/
def walk (mainCount count : Nat) (outcomes : Nat → Outcome) : Nat → Option Nat
  | 0 => some 0
  | n + 1 =>
    (walk mainCount count outcomes n).bind fun position =>
      nextPosition? mainCount count position (outcomes n)

variable {mainCount count position next : Nat} {outcome : Outcome} {outcomes : Nat → Outcome}

/-- A step goes forwards and stays among the tasks. -/
theorem lt_of_nextPosition? (hcount : mainCount ≤ count)
    (h : nextPosition? mainCount count position outcome = some next) :
    position < next ∧ next < count := by
  cases outcome with
  | success =>
    simp only [nextPosition?, Option.ite_none_right_eq_some, Option.some.injEq] at h
    omega
  | failure =>
    simp only [nextPosition?, Option.ite_none_right_eq_some, Option.some.injEq] at h
    omega

/-- Only failure leads from a main task to a handler, and only to the first one. -/
theorem eq_mainCount_of_nextPosition? (hmain : position < mainCount) (hhandler : mainCount ≤ next)
    (h : nextPosition? mainCount count position outcome = some next) :
    next = mainCount ∧ outcome = .failure := by
  cases outcome with
  | success =>
    simp only [nextPosition?, Option.ite_none_right_eq_some, Option.some.injEq] at h
    omega
  | failure =>
    simp only [nextPosition?, Option.ite_none_right_eq_some, Option.some.injEq] at h
    exact ⟨h.2.symm, rfl⟩

section Names

variable {main handlers : List String}

/-- Success of a main task leads to the next main task, if there is one. -/
theorem name_behind_main (hmain : position < main.length) :
    (nextPosition? main.length (main ++ handlers).length position .success).bind
      ((main ++ handlers)[·]?) = main[position + 1]? := by
  by_cases hnext : position + 1 < main.length
  · rw [nextPosition?, if_pos (Or.inl hnext), Option.bind_some, List.getElem?_append_left hnext]
  · rw [nextPosition?, if_neg (by omega), Option.bind_none, List.getElem?_eq_none (by omega)]

/-- Success of a handler leads to the next handler, if there is one. -/
theorem name_behind_handler (position : Nat) :
    (nextPosition? main.length (main ++ handlers).length (main.length + position) .success).bind
      ((main ++ handlers)[·]?) = handlers[position + 1]? := by
  have hat : (main ++ handlers)[main.length + position + 1]? = handlers[position + 1]? := by
    rw [List.getElem?_append_right (by omega)]
    congr 1
    omega
  by_cases hnext : position + 1 < handlers.length
  · have hcount : main.length + position + 1 < (main ++ handlers).length := by
      rw [List.length_append]
      omega
    rw [nextPosition?, if_pos (Or.inr ⟨Nat.le_add_right .., hcount⟩), Option.bind_some, hat]
  · have hcount : ¬ main.length + position + 1 < (main ++ handlers).length := by
      rw [List.length_append]
      omega
    rw [nextPosition?, if_neg (by omega), Option.bind_none, List.getElem?_eq_none (by omega)]

/-- Failure of a main task leads to the first handler, if there is one. -/
theorem name_of_main_failure (hmain : position < main.length) :
    (nextPosition? main.length (main ++ handlers).length position .failure).bind
      ((main ++ handlers)[·]?) = handlers.head? := by
  cases handlers with
  | nil =>
    rw [nextPosition?, if_neg (by simp), Option.bind_none]
    rfl
  | cons first rest =>
    rw [nextPosition?, if_pos ⟨hmain, by simp⟩, Option.bind_some,
      List.getElem?_append_right (Nat.le_refl _), Nat.sub_self]
    rfl

/-- Failure of a handler leads to the end. -/
theorem nextPosition?_of_handler_failure {count : Nat} (position : Nat) :
    nextPosition? mainCount count (mainCount + position) .failure = none := by
  rw [nextPosition?, if_neg (by omega)]

end Names

/-- A walk stays among the tasks. -/
theorem lt_of_walk (hpos : 0 < count) (hcount : mainCount ≤ count) {n : Nat}
    (h : walk mainCount count outcomes n = some position) : position < count := by
  cases n with
  | zero =>
    obtain rfl : 0 = position := Option.some.inj h
    exact hpos
  | succ n =>
    obtain ⟨previous, _, hstep⟩ := Option.bind_eq_some_iff.mp h
    exact (lt_of_nextPosition? hcount hstep).2

/-- A walk goes forwards: a later position is greater by the number of steps at least. -/
theorem add_le_of_walk (hcount : mainCount ≤ count) {m k : Nat}
    (hearlier : walk mainCount count outcomes m = some position)
    (hlater : walk mainCount count outcomes (m + k) = some next) : position + k ≤ next := by
  induction k generalizing next with
  | zero =>
    obtain rfl : position = next := Option.some.inj (hearlier.symm.trans hlater)
    exact Nat.le_refl _
  | succ k ih =>
    obtain ⟨previous, hprevious, hstep⟩ := Option.bind_eq_some_iff.mp hlater
    have hle := ih hprevious
    have hlt := (lt_of_nextPosition? hcount hstep).1
    omega

/-- No position is reached twice. -/
theorem walk_injective (hcount : mainCount ≤ count) {m n : Nat}
    (hm : walk mainCount count outcomes m = some position)
    (hn : walk mainCount count outcomes n = some position) : m = n := by
  rcases Nat.le_total m n with hle | hle
  · obtain ⟨k, rfl⟩ := Nat.exists_eq_add_of_le hle
    have := add_le_of_walk hcount hm hn
    omega
  · obtain ⟨k, rfl⟩ := Nat.exists_eq_add_of_le hle
    have := add_le_of_walk hcount hn hm
    omega

/-- A walk that has stopped does not go on. -/
theorem walk_eq_none_of_le {m n : Nat} (hle : m ≤ n)
    (hm : walk mainCount count outcomes m = none) : walk mainCount count outcomes n = none := by
  obtain ⟨k, rfl⟩ := Nat.exists_eq_add_of_le hle
  induction k with
  | zero => exact hm
  | succ k ih => rw [← Nat.add_assoc, walk, ih (Nat.le_add_right m k), Option.bind_none]

/-- A walk stops after as many steps as there are tasks at the latest. -/
theorem exists_walk_eq_none_iff (hpos : 0 < count) (hcount : mainCount ≤ count)
    (outcomes : Nat → Outcome) :
    ∃ steps, 0 < steps ∧ steps ≤ count ∧
      ∀ n, walk mainCount count outcomes n = none ↔ steps ≤ n := by
  have hend : walk mainCount count outcomes count = none := by
    cases hwalk : walk mainCount count outcomes count with
    | none => rfl
    | some position =>
      have hlt := lt_of_walk hpos hcount hwalk
      have hle := add_le_of_walk (m := 0) hcount rfl (by rwa [Nat.zero_add])
      omega
  have hstops : ∃ n, walk mainCount count outcomes n = none := ⟨count, hend⟩
  refine ⟨Nat.find hstops, ?_, Nat.find_min' hstops hend, fun n => ⟨?_, ?_⟩⟩
  · rw [Nat.find_pos]
    exact Option.some_ne_none 0
  · intro hn
    exact Nat.find_min' hstops hn
  · intro hle
    exact walk_eq_none_of_le hle (Nat.find_spec hstops)

end Taskflow
