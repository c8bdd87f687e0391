import Taskflow.Keyword.Basic

/-!
# Registries of keywords

A registry holds the keywords that documents may use, by scope. It can be built only if no two
keywords that are checked together have the same text, since one would hide the other. The main
statements say that all keywords together form one and which texts count as repeated.
-/

namespace Taskflow

/-- The scopes whose keywords are checked together. -/
def validationGroups : List (List Scope) :=
  [[.beforeExecutable, .afterExecutable], [.action], [.beforeTask, .afterTask]]

/-- The keywords of a scope in their given order. -/
def partition (keywords : List Keyword) (scope : Scope) : List Keyword :=
  keywords.filter (·.isInScope scope)

/-- The elements that occur again, each once, in the order of their second occurrences. What
stands in front counts as having occurred. -/
def repeatedAfter (front : List String) : List String → List String
  | [] => []
  | x :: rest =>
    if front.count x = 1 then x :: repeatedAfter (x :: front) rest
    else repeatedAfter (x :: front) rest

/-- The elements that occur more than once, each once, in the order of their second
occurrences. -/
def repeated (texts : List String) : List String := repeatedAfter [] texts

/-- Texts that several keywords of one group have in common. -/
structure RepeatedKeywords where
  /-- The texts, each once. -/
  texts : List String
  /-- The scopes of the group. -/
  scopes : List Scope
  deriving DecidableEq, Repr

/-- Items between square brackets with commas. -/
def bracketed (items : List String) : String := "[" ++ ", ".intercalate items ++ "]"

/-- The words for repeated keywords. -/
def RepeatedKeywords.message (r : RepeatedKeywords) : String :=
  "transformer keywords " ++ bracketed (r.texts.map fun text => "\"" ++ text ++ "\"") ++
    " are declared twice in scopes " ++ bracketed (r.scopes.map Scope.name)

/-- The texts that the keywords of a group have in common. -/
def repeatedIn (keywords : List Keyword) (group : List Scope) : List String :=
  repeated ((keywords.filter fun k => group.any (k.isInScope ·)).map Keyword.text)

/-- Keywords of which documents may use each in its scopes. -/
structure Registry where
  /-- The keywords in their order of declaration. -/
  keywords : List Keyword
  deriving DecidableEq, Repr

namespace Registry

/-- The registry of the given keywords, unless some group repeats a text; then the first such
group. -/
def build (keywords : List Keyword) : Except RepeatedKeywords Registry :=
  match validationGroups.find? fun group => !(repeatedIn keywords group).isEmpty with
  | some group => .error ⟨repeatedIn keywords group, group⟩
  | none => .ok ⟨keywords⟩

/-- The registry of all keywords. -/
def standard : Registry := ⟨Keyword.all⟩

/-- All keywords together form a registry. -/
theorem build_all : build Keyword.all = .ok standard := by rfl

/-- The keywords of a scope. -/
def inScope (registry : Registry) (scope : Scope) : List Keyword :=
  partition registry.keywords scope

/-- The keywords of several scopes, each once, in the order of the scopes. -/
def union (registry : Registry) (scopes : List Scope) : List Keyword :=
  (scopes.flatMap registry.inScope).eraseDups

/-- A scope of the standard registry has exactly the keywords that may stand there. -/
theorem mem_inScope_standard {keyword : Keyword} {scope : Scope} :
    keyword ∈ standard.inScope scope ↔ scope ∈ keyword.scopes := by
  simp [inScope, partition, standard, Keyword.isInScope, Keyword.mem_all]

end Registry

/-- An element is listed exactly if it occurs again, with those in front counted. -/
theorem mem_repeatedAfter {front texts : List String} {x : String} :
    x ∈ repeatedAfter front texts ↔ front.count x < 2 ∧ 2 ≤ front.count x + texts.count x := by
  induction texts generalizing front with
  | nil =>
    simp only [repeatedAfter, List.not_mem_nil, List.count_nil, false_iff]
    omega
  | cons head rest ih =>
    unfold repeatedAfter
    by_cases hx : head = x
    · subst hx
      split
      · next h =>
        simp only [List.mem_cons, true_or, List.count_cons_self, true_iff]
        omega
      · next h =>
        rw [ih, List.count_cons_self, List.count_cons_self]
        omega
    · have hcount : (head :: front).count x = front.count x := List.count_cons_of_ne hx
      split
      · rw [List.mem_cons, ih, hcount, List.count_cons_of_ne hx]
        exact or_iff_right (fun h => hx h.symm)
      · rw [ih, hcount, List.count_cons_of_ne hx]

/-- Exactly the elements that occur more than once are repeated. -/
theorem mem_repeated {texts : List String} {x : String} :
    x ∈ repeated texts ↔ 2 ≤ texts.count x := by
  rw [repeated, mem_repeatedAfter]
  simp

end Taskflow
