import Taskflow.Proofs.Reference.Identity

/-!
# The one reading of a reference

A reference is read as an alias, a point and a name. Points may stand anywhere in the name, and
aliases with points may be imported, so it matters that no reference can be read in two ways. The
main statement says that it cannot, and that its reading settles what the reference resolves to:
the name in the imported namespace, or a fault that says which part of the reading is missing.
-/

namespace Taskflow.Reference

/-- A reference consists of an alias, a point and a name. Neither part is empty, and the point is
the first one. -/
structure ConsistsOf (reference aliasName name : String) : Prop where
  /-- The alias is not empty. -/
  aliasName_ne : aliasName ≠ ""
  /-- The alias has no point of its own. -/
  point_notMem : '.' ∉ aliasName.toList
  /-- The name is not empty. -/
  name_ne : name ≠ ""
  /-- Nothing else belongs to the reference. -/
  joined : reference = aliasName ++ "." ++ name

/-- What a reference resolves to with some imports. -/
inductive ResolvesTo (imports : Imports) (reference : String) : Except Fault String → Prop
  | imported {aliasName name namespaceName : String}
      (hparts : ConsistsOf reference aliasName name)
      (hfound : imports.get? aliasName = some namespaceName) :
      ResolvesTo imports reference (.ok (namespaceName ++ "." ++ name))
  | unknown {aliasName name : String} (hparts : ConsistsOf reference aliasName name)
      (hnone : imports.get? aliasName = none) :
      ResolvesTo imports reference (.error (.unknownAlias aliasName reference))
  | unread (hparts : ∀ aliasName name, ¬ ConsistsOf reference aliasName name) :
      ResolvesTo imports reference (.error (.missingAlias reference))

variable {reference aliasName name aliasName' name' : String} {imports : Imports}
  {outcome : Except Fault String}

/-- A reference is split into the parts that it consists of. -/
theorem split?_eq_some_iff_consistsOf :
    split? reference = some (aliasName, name) ↔ ConsistsOf reference aliasName name := by
  rw [split?_eq_some_iff]
  constructor
  · rintro ⟨⟨halias, hpoint⟩, hname, hjoined⟩
    exact ⟨halias, hpoint, hname, hjoined⟩
  · rintro ⟨halias, hpoint, hname, hjoined⟩
    exact ⟨⟨halias, hpoint⟩, hname, hjoined⟩

/-- A reference that consists of no parts is not split. -/
theorem split?_eq_none_iff :
    split? reference = none ↔ ∀ aliasName name, ¬ ConsistsOf reference aliasName name := by
  simp only [Option.eq_none_iff_forall_ne_some, Prod.forall, ne_eq, split?_eq_some_iff_consistsOf]

/-- A reference has one alias and one name. -/
theorem ConsistsOf.unique (h : ConsistsOf reference aliasName name)
    (h' : ConsistsOf reference aliasName' name') : aliasName = aliasName' ∧ name = name' := by
  have hsplit := split?_eq_some_iff_consistsOf.mpr h
  have hsplit' := split?_eq_some_iff_consistsOf.mpr h'
  exact Prod.mk.inj (Option.some.inj (hsplit.symm.trans hsplit'))

/-- Resolving gives exactly what the reference resolves to by its parts. -/
theorem resolve_eq_iff :
    resolve reference imports = outcome ↔ ResolvesTo imports reference outcome := by
  constructor
  · rintro rfl
    unfold resolve
    split
    · next hnone => exact .unread (split?_eq_none_iff.mp hnone)
    · next aliasName name hsplit =>
      have hparts := split?_eq_some_iff_consistsOf.mp hsplit
      split
      · next hnone => exact .unknown hparts hnone
      · next namespaceName hfound => exact .imported hparts hfound
  · intro h
    cases h with
    | imported hparts hfound =>
      rw [hparts.joined]
      exact resolve_of_imported hparts.aliasName_ne hparts.point_notMem hparts.name_ne hfound
    | unknown hparts hnone =>
      rw [resolve, split?_eq_some_iff_consistsOf.mpr hparts]
      dsimp only
      rw [hnone]
    | unread hparts => rw [resolve, split?_eq_none_iff.mpr hparts]

/-- A reference resolves to a full name exactly if its alias is imported: the name in the namespace
under it. -/
theorem resolve_eq_ok_iff {id : String} :
    resolve reference imports = .ok id ↔ ∃ aliasName name namespaceName,
      ConsistsOf reference aliasName name ∧ imports.get? aliasName = some namespaceName ∧
        id = namespaceName ++ "." ++ name := by
  rw [resolve_eq_iff]
  constructor
  · intro h
    cases h with
    | imported hparts hfound => exact ⟨_, _, _, hparts, hfound, rfl⟩
  · rintro ⟨aliasName, name, namespaceName, hparts, hfound, rfl⟩
    exact .imported hparts hfound

/-- A reference is refused exactly if it has no parts, or an alias that is not imported. -/
theorem resolve_eq_error_iff {fault : Fault} :
    resolve reference imports = .error fault ↔
      (fault = .missingAlias reference ∧ ¬ ∃ aliasName name, ConsistsOf reference aliasName name) ∨
        ∃ aliasName name, ConsistsOf reference aliasName name ∧ imports.get? aliasName = none ∧
          fault = .unknownAlias aliasName reference := by
  rw [resolve_eq_iff]
  constructor
  · intro h
    cases h with
    | unknown hparts hnone => exact .inr ⟨_, _, hparts, hnone, rfl⟩
    | unread hparts => exact .inl ⟨rfl, fun ⟨_, _, hread⟩ => hparts _ _ hread⟩
  · rintro (⟨rfl, hparts⟩ | ⟨aliasName, name, hparts, hnone, rfl⟩)
    · exact .unread fun _ _ hread => hparts ⟨_, _, hread⟩
    · exact .unknown hparts hnone

/-- Imports under an alias that is no part of a reference do not count. -/
theorem resolve_erase (h : ∀ name, ¬ ConsistsOf reference aliasName name) :
    resolve reference (imports.erase aliasName) = resolve reference imports := by
  have hkept : ∀ {used name : String}, ConsistsOf reference used name →
      (imports.erase aliasName).get? used = imports.get? used := by
    intro used name hparts
    have hne : used ≠ aliasName := by
      rintro rfl
      exact h name hparts
    rw [Dict.get?_erase, if_neg hne]
  generalize houtcome : resolve reference imports = outcome
  refine resolve_eq_iff.mpr ?_
  cases resolve_eq_iff.mp houtcome with
  | imported hparts hfound => exact .imported hparts ((hkept hparts).trans hfound)
  | unknown hparts hnone => exact .unknown hparts ((hkept hparts).trans hnone)
  | unread hparts => exact .unread hparts

/-- A reference is read in one way at most, and its reading settles what it resolves to. It
resolves to a full name exactly if its alias is imported. It is refused with a fault that names the
alias exactly if that is not imported, and with the other fault exactly if it cannot be read.
Nothing is read by an alias that is empty or has a point, so importing one is of no use. Strict
resolution is the same, and lenient resolution keeps the reference where it would be refused. -/
theorem references_have_one_reading (reference : String) (imports : Imports) :
    (∀ aliasName name aliasName' name', ConsistsOf reference aliasName name →
      ConsistsOf reference aliasName' name' → aliasName = aliasName' ∧ name = name') ∧
    (∀ id, resolve reference imports = .ok id ↔ ∃ aliasName name namespaceName,
      ConsistsOf reference aliasName name ∧ imports.get? aliasName = some namespaceName ∧
        id = namespaceName ++ "." ++ name) ∧
    (∀ fault, resolve reference imports = .error fault ↔
      (fault = .missingAlias reference ∧ ¬ ∃ aliasName name, ConsistsOf reference aliasName name) ∨
        ∃ aliasName name, ConsistsOf reference aliasName name ∧ imports.get? aliasName = none ∧
          fault = .unknownAlias aliasName reference) ∧
    (∀ aliasName, aliasName = "" ∨ '.' ∈ aliasName.toList →
      (∀ name, ¬ ConsistsOf reference aliasName name) ∧
        resolve reference (imports.erase aliasName) = resolve reference imports) ∧
    resolveWith .strict reference imports = resolve reference imports ∧
    (∀ id, resolve reference imports = .ok id → resolveWith .lenient reference imports = .ok id) ∧
    ∀ fault, resolve reference imports = .error fault →
      resolveWith .lenient reference imports = .ok reference := by
  refine ⟨fun _ _ _ _ => ConsistsOf.unique, fun _ => resolve_eq_ok_iff,
    fun _ => resolve_eq_error_iff, fun aliasName huseless => ?_,
    resolveWith_strict reference imports, fun id hid => ?_, fun fault hfault => ?_⟩
  · have hnone : ∀ name, ¬ ConsistsOf reference aliasName name :=
      fun name hparts => huseless.elim hparts.aliasName_ne hparts.point_notMem
    exact ⟨hnone, resolve_erase hnone⟩
  · rw [resolveWith_lenient, hid]
    rfl
  · rw [resolveWith_lenient, hfault]
    rfl

/-- Imports under an alias and under the same alias with a point. -/
def pointedImports : Imports := Dict.ofList [("ops", "user.ops"), ("ops.", "user.points")]

/-- A name may begin with a point. The alias with a point is not what the reference is read by, and
without the other alias the reference is refused or kept. -/
theorem references_have_one_reading_of_pointedImports :
    ConsistsOf "ops..deploy" "ops" ".deploy" ∧
      resolve "ops..deploy" pointedImports = .ok "user.ops..deploy" ∧
      resolve "ops..deploy" (pointedImports.erase "ops.") = .ok "user.ops..deploy" ∧
      resolve "ops..deploy" (pointedImports.erase "ops") =
        .error (.unknownAlias "ops" "ops..deploy") ∧
      resolveWith .lenient "ops..deploy" (pointedImports.erase "ops") = .ok "ops..deploy" := by
  have hparts : ConsistsOf "ops..deploy" "ops" ".deploy" :=
    ⟨by decide, by decide, by decide, by decide⟩
  obtain ⟨-, hok, -, huseless, -⟩ := references_have_one_reading "ops..deploy" pointedImports
  have hid := (hok "user.ops..deploy").mpr ⟨_, _, "user.ops", hparts, by decide, by decide⟩
  obtain ⟨-, -, herror, -, -, -, hlenient⟩ :=
    references_have_one_reading "ops..deploy" (pointedImports.erase "ops")
  have hfault := (herror (.unknownAlias "ops" "ops..deploy")).mpr
    (.inr ⟨_, _, hparts, by decide, rfl⟩)
  exact ⟨hparts, hid, ((huseless "ops." (by decide)).2).trans hid, hfault, hlenient _ hfault⟩

end Taskflow.Reference
