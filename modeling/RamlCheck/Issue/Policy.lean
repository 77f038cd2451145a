import RamlCheck.Issue.Basic

/-!
# Which issues are reported

A policy can leave out what was found in included documents, and warnings.  An
issue without a location is never from an included document and never a warning,
so every policy keeps it (`keeps_generic`).

`Policy.le` compares policies by strictness; a stricter one keeps a sublist of
what a laxer one keeps (`sublist_apply_of_le`).
-/

namespace RamlCheck

/-- Which issues are reported. -/
structure Policy where
  includes : Bool
  warnings : Bool
  deriving DecidableEq, Repr

namespace Policy

/-- The policy that reports everything. -/
def everything : Policy :=
  { includes := true, warnings := true }

/-- Whether an issue is reported. -/
def keeps (policy : Policy) (issue : Issue) : Bool :=
  (policy.includes || !issue.fromIncluded) && (policy.warnings || !issue.isWarning)

/-- The issues that are reported, in their order. -/
def apply (policy : Policy) (issues : List Issue) : List Issue :=
  issues.filter policy.keeps

/-- Whether a policy reports nothing that another one leaves out. -/
def le (stricter laxer : Policy) : Prop :=
  (stricter.includes = true → laxer.includes = true) ∧
    (stricter.warnings = true → laxer.warnings = true)

@[simp] theorem keeps_generic (policy : Policy) (message : String) :
    policy.keeps (Issue.generic message) = true := by
  simp [keeps, Issue.generic, Issue.isWarning]

theorem keeps_of_le {stricter laxer : Policy} (hle : stricter.le laxer) {issue : Issue}
    (hkeeps : stricter.keeps issue = true) : laxer.keeps issue = true := by
  simp only [keeps, Bool.and_eq_true, Bool.or_eq_true] at hkeeps ⊢
  exact ⟨hkeeps.1.imp hle.1 id, hkeeps.2.imp hle.2 id⟩

theorem sublist_apply_of_le {stricter laxer : Policy} (hle : stricter.le laxer)
    (issues : List Issue) : (stricter.apply issues).Sublist (laxer.apply issues) := by
  induction issues with
  | nil => exact List.Sublist.refl _
  | cons issue rest ih =>
      simp only [apply, List.filter_cons] at ih ⊢
      by_cases hkeeps : stricter.keeps issue = true
      · simpa [hkeeps, keeps_of_le hle hkeeps] using ih.cons_cons issue
      · by_cases hlax : laxer.keeps issue = true
        · simpa [hkeeps, hlax] using ih.cons issue
        · simpa [hkeeps, hlax] using ih

end Policy

end RamlCheck
