import Mathlib.Data.List.Induction
import Taskflow.Proofs.Keyword.Repeated

/-!
# The scopes of a registry

A registry hands out its keywords scope by scope, or for several scopes at once. Every keyword has
exactly one scope, so a registry of distinct keywords falls into the parts of its scopes. The main
statement says that nothing is lost and nothing doubled in them, and that joining scopes is putting
their parts one after another, whatever scopes are named again.
-/

namespace Taskflow

section

variable {α β : Type} [BEq α] [LawfulBEq α] [BEq β] [LawfulBEq β]

/-- Distinct items stay as they are when repeats are removed. -/
theorem eraseDups_eq_self {items : List α} (h : items.Nodup) : items.eraseDups = items := by
  induction items with
  | nil => rfl
  | cons item rest ih =>
    obtain ⟨hitem, hrest⟩ := List.nodup_cons.mp h
    have hkept : (rest.filter fun other => !other == item) = rest := by
      refine List.filter_eq_self.mpr fun other hother => ?_
      have hne : other ≠ item := fun heq => hitem (heq ▸ hother)
      simpa using hne
    rw [List.eraseDups_cons, hkept, ih hrest]

/-- One more item is kept behind the others unless it is among them. -/
theorem eraseDups_append_singleton (items : List α) (item : α) :
    (items ++ [item]).eraseDups =
      if item ∈ items then items.eraseDups else items.eraseDups ++ [item] := by
  rw [List.eraseDups_append]
  split
  · next hmem => simp [List.removeAll, hmem]
  · next hnew => simp [List.removeAll, hnew, List.eraseDups_cons]

/-- Without repeats no item occurs twice. -/
theorem nodup_eraseDups (items : List α) : items.eraseDups.Nodup := by
  induction items using List.reverseRecOn with
  | nil => simp
  | append_singleton front item ih =>
    rw [eraseDups_append_singleton]
    split
    · exact ih
    · next hnew =>
      refine List.nodup_append.mpr ⟨ih, List.nodup_singleton item, ?_⟩
      rintro other hother _ hitem rfl
      obtain rfl := List.mem_singleton.mp hitem
      exact hnew (List.mem_eraseDups.mp hother)

/-- Where the parts are disjoint and distinct in themselves, repeats among them come only from items
that are named again. -/
theorem eraseDups_flatMap {part : α → List β} (hnodup : ∀ item, (part item).Nodup)
    (hdisjoint : ∀ item other, item ≠ other → (part item).Disjoint (part other))
    (items : List α) : (items.flatMap part).eraseDups = items.eraseDups.flatMap part := by
  -- The last part either was put down before as a whole, or has nothing in common with the others.
  induction items using List.reverseRecOn with
  | nil => rfl
  | append_singleton front item ih =>
    rw [List.flatMap_append, List.flatMap_singleton, List.eraseDups_append, ih,
      eraseDups_append_singleton]
    split
    · next hmem =>
      have hnone : (part item).removeAll (front.flatMap part) = [] := by
        refine List.filter_eq_nil_iff.mpr fun x hx => ?_
        simpa using ⟨item, hmem, hx⟩
      rw [hnone]
      simp
    · next hnew =>
      have hall : (part item).removeAll (front.flatMap part) = part item := by
        refine List.filter_eq_self.mpr fun x hx => ?_
        have hfree : ∀ other ∈ front, x ∉ part other := by
          intro other hother hmem
          have hne : other ≠ item := fun heq => hnew (heq ▸ hother)
          exact hdisjoint other item hne hmem hx
        simpa using hfree
      rw [hall, eraseDups_eq_self (hnodup item), List.flatMap_append, List.flatMap_singleton]

end

/-- All scopes, those of executables first. -/
def Scope.all : List Scope :=
  [.beforeExecutable, .afterExecutable, .action, .beforeTask, .afterTask]

/-- No scope is listed twice. -/
theorem Scope.nodup_all : Scope.all.Nodup := by decide

/-- A keyword has exactly one scope. -/
theorem Keyword.existsUnique_scope (keyword : Keyword) :
    ∃ scope ∈ Scope.all, ∀ other, keyword.isInScope other = true ↔ other = scope := by
  have hown : ∃ scope ∈ Scope.all, keyword.scopes = [scope] := by cases keyword <;> decide
  obtain ⟨scope, hscope, hown⟩ := hown
  refine ⟨scope, hscope, fun other => ?_⟩
  rw [Keyword.isInScope, hown]
  simp

namespace Registry

variable {registry : Registry} {scope other : Scope} {keyword : Keyword}

/-- The keywords of a scope are those of the registry that may stand there. -/
theorem mem_inScope :
    keyword ∈ registry.inScope scope ↔
      keyword ∈ registry.keywords ∧ keyword.isInScope scope = true :=
  List.mem_filter

/-- The keywords of a scope stand in the order of the registry. -/
theorem inScope_sublist (registry : Registry) (scope : Scope) :
    (registry.inScope scope).Sublist registry.keywords :=
  List.filter_sublist

/-- Different scopes have no keyword in common. -/
theorem disjoint_inScope (h : scope ≠ other) :
    (registry.inScope scope).Disjoint (registry.inScope other) := by
  intro keyword hscope hother
  obtain ⟨own, _, hown⟩ := keyword.existsUnique_scope
  have hfirst := (hown scope).mp (mem_inScope.mp hscope).2
  have hsecond := (hown other).mp (mem_inScope.mp hother).2
  exact h (hfirst.trans hsecond.symm)

/-- The keywords of several different scopes are distinct. -/
theorem nodup_flatMap_inScope (h : registry.keywords.Nodup) {scopes : List Scope}
    (hscopes : scopes.Nodup) : (scopes.flatMap registry.inScope).Nodup :=
  List.nodup_flatMap.mpr ⟨fun scope _ => h.sublist (registry.inScope_sublist scope),
    hscopes.imp disjoint_inScope⟩

/-- The scopes together hold every keyword once. -/
theorem flatMap_inScope_perm (h : registry.keywords.Nodup) :
    (Scope.all.flatMap registry.inScope).Perm registry.keywords := by
  refine (List.perm_ext_iff_of_nodup (nodup_flatMap_inScope h Scope.nodup_all) h).mpr
    fun keyword => ?_
  simp only [List.mem_flatMap, mem_inScope]
  constructor
  · rintro ⟨_, _, hmem, _⟩
    exact hmem
  · intro hmem
    obtain ⟨scope, hscope, hown⟩ := keyword.existsUnique_scope
    exact ⟨scope, hscope, hmem, (hown scope).mpr rfl⟩

/-- Joining scopes puts their keywords one after another, for each scope where it is named first. -/
theorem union_eq_flatMap (h : registry.keywords.Nodup) (scopes : List Scope) :
    registry.union scopes = scopes.eraseDups.flatMap registry.inScope :=
  eraseDups_flatMap (fun scope => h.sublist (registry.inScope_sublist scope))
    (fun _ _ => disjoint_inScope) scopes

/-- Distinct keywords form a registry. Each of its scopes has a part of them in their order, no two
scopes have a common one, and all scopes together have every one of them once. Joining any scopes,
named once or again, repeats no keyword and gives those that may stand in one of the scopes, in the
order in which the scopes are first named. -/
theorem scopes_share_out (keywords : List Keyword) (h : keywords.Nodup) :
    ∃ registry, build keywords = .ok registry ∧
      (∀ scope, (registry.inScope scope).Sublist keywords) ∧
      (∀ scope other, scope ≠ other →
        (registry.inScope scope).Disjoint (registry.inScope other)) ∧
      (Scope.all.flatMap registry.inScope).Perm keywords ∧
      ∀ scopes, (registry.union scopes).Nodup ∧
        (∀ keyword, keyword ∈ registry.union scopes ↔
          keyword ∈ keywords ∧ ∃ scope ∈ scopes, keyword.isInScope scope = true) ∧
        registry.union scopes = scopes.eraseDups.flatMap registry.inScope := by
  have hdistinct : (Registry.mk keywords).keywords.Nodup := h
  refine ⟨⟨keywords⟩, build_eq_ok_iff.mpr ⟨h, rfl⟩, inScope_sublist _,
    fun _ _ => disjoint_inScope, flatMap_inScope_perm hdistinct, fun scopes => ?_⟩
  have hunion := union_eq_flatMap hdistinct scopes
  refine ⟨?_, fun keyword => ?_, hunion⟩
  · rw [hunion]
    exact nodup_flatMap_inScope hdistinct (nodup_eraseDups scopes)
  · simp only [hunion, List.mem_flatMap, List.mem_eraseDups, mem_inScope]
    constructor
    · rintro ⟨scope, hscope, hmem, hin⟩
      exact ⟨hmem, scope, hscope, hin⟩
    · rintro ⟨hmem, scope, hscope, hin⟩
      exact ⟨scope, hscope, hmem, hin⟩

/-- Keywords of four scopes, those of tasks among the others. -/
def mixedKeywords : List Keyword :=
  [.navigate, .loop, .inputs, .publish, .results, .invoke]

/-- Of the two scopes of tasks, the one behind tasks is named first and then again. -/
theorem scopes_share_out_of_mixedKeywords :
    mixedKeywords.Nodup ∧ build mixedKeywords = .ok ⟨mixedKeywords⟩ ∧
      [.inputs, .results, .loop, .invoke, .navigate, .publish].Perm mixedKeywords ∧
      union ⟨mixedKeywords⟩ [.afterTask, .beforeTask, .afterTask] =
        [.navigate, .publish, .loop, .invoke] := by
  have hnodup : mixedKeywords.Nodup := by decide
  obtain ⟨registry, hbuild, -, -, hperm, hunion⟩ := scopes_share_out mixedKeywords hnodup
  obtain ⟨-, rfl⟩ := build_eq_ok_iff.mp hbuild
  exact ⟨hnodup, hbuild, hperm, (hunion _).2.2⟩

end Registry

end Taskflow
