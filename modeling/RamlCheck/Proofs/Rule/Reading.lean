import Mathlib.Data.List.Basic
import RamlCheck.Validation

/-!
# What rules read, and where they report

Of the rules that come with the checker, only the one that looks at the references of a
document reads files: it reads what the references name and nothing else
(`includes_congr`).  The others look at the document alone.  What a rule finds is in the
document itself or in a file that one of its references names and that could be read
(`isFiled_of_mem_check`).
-/

namespace RamlCheck

/-- A rule that finds the same in a document whatever the files hold. -/
def Rule.ReadsNoFile (rule : Rule) : Prop :=
  ∀ (files others : FileSystem) (document : Document),
    rule.check files document = rule.check others document

/-- A registry in which only the rule about references reads files. -/
def Registry.ReadsReferences (registry : Registry) : Prop :=
  ∀ rule ∈ registry.rules, rule.ReadsNoFile ∨ rule = Rule.includes

theorem Registry.rules_builtin :
    builtin.rules =
      [Rule.title, Rule.rootKeys, Rule.baseUri, Rule.resources, Rule.responses,
        Rule.includes] :=
  rfl

theorem Registry.readsReferences_builtin : builtin.ReadsReferences := by
  intro rule hrule
  simp only [rules_builtin, List.mem_cons, List.not_mem_nil, or_false] at hrule
  rcases hrule with rfl | rfl | rfl | rfl | rfl | rfl
  · exact .inl fun _ _ _ => rfl
  · exact .inl fun _ _ _ => rfl
  · exact .inl fun _ _ _ => rfl
  · exact .inl fun _ _ _ => rfl
  · exact .inl fun _ _ _ => rfl
  · exact .inr rfl

namespace Rule

variable {files others : FileSystem} {document : Document}

/-! ## Files -/

/-- What is wrong with a reference is settled by the file that it names. -/
theorem includeFinding?_congr {reference : Include}
    (hfile : files (Include.pathOf document.directory reference.target) =
      others (Include.pathOf document.directory reference.target)) :
    includeFinding? files document reference = includeFinding? others document reference := by
  unfold includeFinding?
  rw [hfile]

/-- The rule about references reads what they name, and nothing else. -/
theorem includes_congr
    (hagree : ∀ reference ∈ document.includes,
      files (Include.pathOf document.directory reference.target) =
        others (Include.pathOf document.directory reference.target)) :
    includes.check files document = includes.check others document := by
  show document.includes.filterMap _ = document.includes.filterMap _
  apply List.filterMap_congr
  intro reference hreference
  exact includeFinding?_congr (hagree reference hreference)

/-! ## Places -/

/-- Whether a finding is in the document itself, or in a file that a reference of the
document names and that can be read. -/
def IsFiled (files : FileSystem) (document : Document) (finding : Finding) : Prop :=
  finding.path = document.name ∨
    ∃ reference ∈ document.includes, finding.path = reference.target ∧
      ∃ text, files (Include.pathOf document.directory reference.target) = .ok text

theorem isFiled_of_includeFinding? {reference : Include}
    (hreference : reference ∈ document.includes) {finding : Finding}
    (hfinding : includeFinding? files document reference = some finding) :
    IsFiled files document finding := by
  unfold includeFinding? at hfinding
  split at hfinding
  · left
    rw [← Option.some.inj hfinding]
    rfl
  · next text hread =>
    right
    obtain ⟨⟨line, column, message⟩, -, rfl⟩ := Option.map_eq_some_iff.mp hfinding
    exact ⟨reference, hreference, rfl, text, hread⟩

theorem path_of_mem_title {finding : Finding} (hfinding : finding ∈ title.check files document) :
    finding.path = document.name := by
  simp only [title, titleFindings] at hfinding
  split at hfinding <;> split at hfinding <;> simp_all [Document.findingAt]

theorem path_of_mem_rootKeys {finding : Finding}
    (hfinding : finding ∈ rootKeys.check files document) : finding.path = document.name := by
  obtain ⟨entry, -, rfl⟩ := List.mem_map.mp hfinding
  rfl

theorem path_of_mem_baseUri {finding : Finding}
    (hfinding : finding ∈ baseUri.check files document) : finding.path = document.name := by
  simp only [baseUri, baseUriFindings] at hfinding
  split at hfinding
  · simp at hfinding
  · split at hfinding <;> simp_all [Document.findingAt]

theorem path_of_mem_resources {finding : Finding}
    (hfinding : finding ∈ resources.check files document) : finding.path = document.name := by
  rcases List.mem_append.mp hfinding with hresource | hmethod
  · obtain ⟨resource, -, hresource⟩ := List.mem_flatMap.mp hresource
    unfold resourceFindings at hresource
    split at hresource
    · obtain ⟨entry, -, hentry⟩ := List.mem_flatMap.mp hresource
      simp only [resourceEntryFindings] at hentry
      split at hentry <;> split at hentry <;> simp_all [notMapping, Document.findingAt]
    · simp_all [notMapping, Document.findingAt]
  · obtain ⟨method, -, hmethod⟩ := List.mem_flatMap.mp hmethod
    obtain ⟨entry, -, rfl⟩ := List.mem_map.mp hmethod
    rfl

theorem path_of_mem_responses {finding : Finding}
    (hfinding : finding ∈ responses.check files document) : finding.path = document.name := by
  obtain ⟨method, -, hmethod⟩ := List.mem_flatMap.mp hfinding
  unfold responseFindings at hmethod
  split at hmethod
  · simp at hmethod
  · split at hmethod
    · obtain ⟨entry, -, hentry⟩ := List.mem_flatMap.mp hmethod
      unfold codeFindings at hentry
      split at hentry <;> simp_all [Document.findingAt]
    · split at hmethod <;> simp_all [Document.findingAt]

/-- What the rules that come with the checker find is in the document itself, or in a file
that one of its references names and that can be read. -/
theorem isFiled_of_mem_check {rule : Rule} (hrule : rule ∈ Registry.builtin.rules)
    {finding : Finding} (hfinding : finding ∈ rule.check files document) :
    IsFiled files document finding := by
  simp only [Registry.rules_builtin, List.mem_cons, List.not_mem_nil, or_false] at hrule
  rcases hrule with rfl | rfl | rfl | rfl | rfl | rfl
  · exact .inl (path_of_mem_title hfinding)
  · exact .inl (path_of_mem_rootKeys hfinding)
  · exact .inl (path_of_mem_baseUri hfinding)
  · exact .inl (path_of_mem_resources hfinding)
  · exact .inl (path_of_mem_responses hfinding)
  · obtain ⟨reference, hreference, hsome⟩ := List.mem_filterMap.mp hfinding
    exact isFiled_of_includeFinding? hreference hsome

end Rule

end RamlCheck
