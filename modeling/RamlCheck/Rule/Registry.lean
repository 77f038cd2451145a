import RamlCheck.Rule.Basic
import RamlCheck.Rule.Includes
import RamlCheck.Rule.Resources
import RamlCheck.Rule.Responses

/-!
# Registered rules

A registry holds rules in the order in which their names were first registered.
A rule that is registered under a name that is taken replaces the one that has
it, in its place.
-/

namespace RamlCheck

/-- Rules in the order in which they are checked. -/
structure Registry where
  rules : List Rule

namespace Registry

/-- The registry without rules. -/
def empty : Registry :=
  { rules := [] }

/-- Some rules with one more, which replaces the first one of its name. -/
def insert (rule : Rule) : List Rule → List Rule
  | [] => [rule]
  | other :: rest => if other.id = rule.id then rule :: rest else other :: insert rule rest

/-- The registry with one more rule. -/
def register (registry : Registry) (rule : Rule) : Registry :=
  { rules := insert rule registry.rules }

/-- The registry of some rules, registered in order. -/
def ofList (rules : List Rule) : Registry :=
  rules.foldl register empty

/-- The number of rules. -/
def size (registry : Registry) : Nat :=
  registry.rules.length

/-- The rules that come with the checker. -/
def builtin : Registry :=
  ofList [Rule.title, Rule.rootKeys, Rule.baseUri, Rule.resources, Rule.responses,
    Rule.includes]

/-- The names of rules after one more has been registered. -/
theorem map_id_insert (rule : Rule) (rules : List Rule) :
    (insert rule rules).map (·.id) =
      if rule.id ∈ rules.map (·.id) then rules.map (·.id) else rules.map (·.id) ++ [rule.id] := by
  induction rules with
  | nil => simp [insert]
  | cons other rest ih =>
      simp only [insert]
      by_cases hsame : other.id = rule.id
      · simp [hsame]
      · have hdiffer : ¬ rule.id = other.id := fun heq => hsame heq.symm
        simp only [hsame, if_false, List.map_cons, ih, List.mem_cons, hdiffer, false_or]
        split <;> simp

end Registry

end RamlCheck
