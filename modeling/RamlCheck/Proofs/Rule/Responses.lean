import RamlCheck.Proofs.Document.Entering
import RamlCheck.Proofs.Document.Loading
import RamlCheck.Proofs.Document.Trail
import RamlCheck.Proofs.Outline.Distinct
import RamlCheck.Proofs.Rule.Structure
import RamlCheck.Rule.Responses

/-!
# What the rule about responses finds

`ResponseFlaw` says what is wrong with the responses of a single method, and at which trail
the key stands that is reported.  In a document that has been entered the rule finds just
that, for all methods of all resources, once for each key (`Rule.flaws_of_responses`).

## Strategy

The rule looks at the first entry with the key `responses`.  Since keys are distinct in a
document that has been entered, there is no other (`Outline.Distinct.filter_key_eq`), so
that looking for it comes to looking at all entries with this key.
-/

namespace RamlCheck

theorem Resource.IsAt.distinct {entries : List (Label × Outline)} {trail : Trail}
    {resource : Resource} (hat : Resource.IsAt entries trail resource)
    (hentries : Outline.Distinct (.mapping entries)) : resource.node.Distinct := by
  induction hat with
  | among hentry => exact (Outline.distinct_mapping.mp hentries).2 _ (List.mem_of_getElem? hentry)
  | inside hentry _ _ ih =>
      exact ih ((Outline.distinct_mapping.mp hentries).2 _ (List.mem_of_getElem? hentry))

theorem Method.IsAt.distinct {entries : List (Label × Outline)} {address : Trail × Nat}
    {method : Method} (hat : Method.IsAt entries address method)
    (hentries : Outline.Distinct (.mapping entries)) : method.node.Distinct := by
  cases hat with
  | declared hresource hinner hentry =>
      have hnode := hresource.distinct hentries
      rw [hinner] at hnode
      exact (Outline.distinct_mapping.mp hnode).2 _ (List.mem_of_getElem? hentry)

/-- The keys of a document that has been entered are distinct. -/
theorem Document.distinct_of_load {name directory content : String} {document : Document}
    (hload : load name directory content = .ok document) :
    Outline.Distinct (.mapping document.root) :=
  Outline.distinct_of_read (outline_of_load hload)

namespace Rule

variable {document : Document}

/-- What is wrong with an entry that holds responses, and the trail of the key that is wrong,
if that of the entry is `place`. -/
inductive ResponsesFlaw (document : Document) (place : Trail) (key : Label) :
    Outline → Trail → Finding → Prop
  | notMapping {node : Outline} (hnode : node.IsMisfit) :
      ResponsesFlaw document place key node place
        (document.findingAt key.place .error "Property 'responses' must be a mapping")
  | code {codes : List (Label × Outline)} {rank : Nat} {code : Label} {node : Outline}
      (hcode : codes[rank]? = some (code, node)) (hannotated : Key.isAnnotation code.text = false)
      (hstatus : isStatusCode code.text = false) :
      ResponsesFlaw document place key (.mapping codes) (place ++ [rank])
        (document.findingAt code.place .error
          ("Invalid response code '" ++ code.text
            ++ "': expected an HTTP status code between 100 and 599"))

/-- What is wrong with the responses of the methods of a document, and the trails of the keys
that are wrong. -/
inductive ResponseFlaw (document : Document) (trail : Trail) (finding : Finding) : Prop
  | ofEntry {outer : Trail} {index position : Nat} {method : Method}
      {entries : List (Label × Outline)} {key : Label} {node : Outline}
      (hmethod : Method.IsAt document.root (outer, index) method)
      (hentries : method.node = .mapping entries)
      (hentry : entries[position]? = some (key, node)) (hkey : key.text = "responses")
      (hflaw : ResponsesFlaw document (outer ++ [index, position]) key node trail finding)

/-! ## A single method -/

/-- What the rule finds in an entry that holds responses. -/
def responsesEntryFindings (document : Document) (entry : Label × Outline) : List Finding :=
  match entry.2.entries? with
  | some codes => codes.flatMap fun code => codeFindings document code.1
  | none =>
      if entry.2.isEmptyValue || entry.2.isReference then []
      else [document.findingAt entry.1.place .error "Property 'responses' must be a mapping"]

/-- With distinct keys, the rule looks at all entries of a method that hold responses. -/
theorem responseFindings_eq {method : Method} (hnode : method.node.Distinct) :
    responseFindings document method =
      ((method.node.entries?.getD []).filter fun entry => entry.1.text = "responses").flatMap
        (responsesEntryFindings document) := by
  have hentries : Outline.Distinct (.mapping (method.node.entries?.getD [])) := by
    cases hmethod : method.node with
    | mapping entries => exact hmethod ▸ hnode
    | scalar label => exact .mapping .nil (List.forall_mem_nil _)
    | sequence items => exact .mapping .nil (List.forall_mem_nil _)
  rw [hentries.filter_key_eq, responseFindings]
  cases Outline.entryOf? "responses" (method.node.entries?.getD []) with
  | none => rfl
  | some entry => exact (List.append_nil _).symm

theorem mem_codeFindings {code : Label} {finding : Finding} :
    finding ∈ codeFindings document code ↔
      Key.isAnnotation code.text = false ∧ isStatusCode code.text = false ∧
        finding = document.findingAt code.place .error
          ("Invalid response code '" ++ code.text
            ++ "': expected an HTTP status code between 100 and 599") := by
  rw [codeFindings]
  cases isStatusCode code.text <;> cases Key.isAnnotation code.text <;> simp

theorem length_codeFindings (document : Document) (entry : Label × Outline) :
    (codeFindings document entry.1).length ≤ 1 := by
  rw [codeFindings]
  split_ifs <;> simp

theorem lists_codeFindings (place : Trail) (key : Label) (codes : List (Label × Outline)) :
    Lists (· ≠ ·) (ResponsesFlaw document place key (.mapping codes))
      (codes.flatMap fun code => codeFindings document code.1) := by
  refine ((Lists.of_list codes).flatMap_of_length_le_one (place ++ [·])
    (length_codeFindings document) ?_).congr fun trail finding => ?_
  · intro first second hrank
    exact (Trail.Precedes.sibling place hrank [] []).ne
  · constructor
    · rintro ⟨rank, ⟨code, node⟩, hcode, rfl, hfinding⟩
      obtain ⟨hannotated, hstatus, rfl⟩ := mem_codeFindings.mp hfinding
      exact .code hcode hannotated hstatus
    · rintro (hnode | ⟨hcode, hannotated, hstatus⟩)
      · exact absurd hnode.mapping (by simp [Outline.isMapping, Outline.entries?])
      · exact ⟨_, _, hcode, rfl, mem_codeFindings.mpr ⟨hannotated, hstatus, rfl⟩⟩

theorem lists_responsesEntryFindings (place : Trail) (entry : Label × Outline) :
    Lists (· ≠ ·) (ResponsesFlaw document place entry.1 entry.2)
      (responsesEntryFindings document entry) := by
  obtain ⟨key, node⟩ := entry
  rw [responsesEntryFindings]
  split
  · next codes hcodes =>
    cases node with
    | mapping entries =>
        obtain rfl := Option.some.inj hcodes
        exact lists_codeFindings place key entries
    | scalar label => contradiction
    | sequence items => contradiction
  · next hnone =>
    have hmapping : node.isMapping = false := by rw [Outline.isMapping, hnone]; rfl
    split
    · next hallowed =>
      -- nothing and a reference are let through, and neither is a flaw
      refine .nil fun trail finding hflaw => ?_
      rcases hflaw with hnode | -
      · rw [hnode.empty, hnode.reference] at hallowed
        contradiction
      · contradiction
    · next hallowed =>
      rw [Bool.not_eq_true, Bool.or_eq_false_iff] at hallowed
      refine (Lists.singleton place _).congr fun trail finding => ?_
      constructor
      · rintro ⟨rfl, rfl⟩
        exact .notMapping ⟨hmapping, hallowed.1, hallowed.2⟩
      · rintro (- | -)
        · exact ⟨rfl, rfl⟩
        · contradiction

theorem ResponsesFlaw.exists_behind {place trail : Trail} {key : Label} {node : Outline}
    {finding : Finding} (hflaw : ResponsesFlaw document place key node trail finding) :
    ∃ behind, trail = place ++ behind := by
  cases hflaw with
  | notMapping => exact ⟨[], (List.append_nil _).symm⟩
  | code => exact ⟨_, rfl⟩

theorem lists_responseFindings {method : Method} (hnode : method.node.Distinct) (outer : Trail)
    (index : Nat) :
    Lists (· ≠ ·)
      (fun trail finding => ∃ position entry,
        ((method.node.entries?.getD [])[position]? = some entry ∧ entry.1.text = "responses") ∧
          ResponsesFlaw document (outer ++ [index, position]) entry.1 entry.2 trail finding)
      (responseFindings document method) := by
  rw [responseFindings_eq hnode]
  refine (((Lists.of_list _).filter _).congr fun position entry =>
    and_congr_right' decide_eq_true_iff).flatMap
      (fun position entry _ => lists_responsesEntryFindings (outer ++ [index, position]) entry) ?_
  rintro first _ second _ - - hposition _ _ _ _ hflaw hother hsame
  obtain ⟨behind, rfl⟩ := hflaw.exists_behind
  obtain ⟨further, hfurther⟩ := hother.exists_behind
  rw [hfurther, List.append_assoc, List.append_assoc] at hsame
  exact ((Trail.Precedes.sibling [index] hposition behind further).behind outer).ne hsame

/-! ## The whole document -/

/-- With distinct keys, no key is found with two methods. -/
theorem lists_flaws_of_distinct (hroot : Outline.Distinct (.mapping document.root)) :
    Lists (· ≠ ·)
      (fun trail finding => ∃ address method, Method.IsAt document.root address method ∧
        ∃ position entry,
          ((method.node.entries?.getD [])[position]? = some entry ∧ entry.1.text = "responses") ∧
            ResponsesFlaw document (address.1 ++ [address.2, position]) entry.1 entry.2 trail
              finding)
      (document.methods.flatMap (responseFindings document)) := by
  refine document.lists_methods.flatMap (fun address method hmethod =>
    lists_responseFindings (hmethod.distinct hroot) address.1 address.2) ?_
  rintro ⟨outer, index⟩ _ ⟨further, other⟩ _ hmethod hother hbefore _ _ _ _ ⟨_, _, -, hflaw⟩
    ⟨_, _, -, hlast⟩ rfl
  obtain ⟨behind, hbehind⟩ := hflaw.exists_behind
  obtain ⟨beyond, hbeyond⟩ := hlast.exists_behind
  rw [hbehind, List.append_assoc, List.append_assoc] at hbeyond
  obtain ⟨rfl, rfl⟩ := hmethod.eq_of_append hother hbeyond
  exact irrefl _ hbefore

/-- In a document that has been entered, the rule about responses finds what is wrong with the
responses of all methods of all resources, once for each key that is out of place, at this key,
and nothing else. -/
theorem flaws_of_responses {name directory content : String}
    (hload : Document.load name directory content = .ok document) (files : FileSystem) :
    Lists (· ≠ ·) (ResponseFlaw document) (responses.check files document) := by
  refine (lists_flaws_of_distinct (Document.distinct_of_load hload)).congr fun trail finding => ?_
  constructor
  · rintro ⟨⟨outer, index⟩, method, hmethod, position, ⟨key, node⟩, ⟨hentry, hkey⟩, hflaw⟩
    obtain ⟨entries, hentries, hentry⟩ := Outline.getElem?_entries.mp hentry
    exact .ofEntry hmethod hentries hentry hkey hflaw
  · rintro ⟨hmethod, hentries, hentry, hkey, hflaw⟩
    exact ⟨_, _, hmethod, _, _, ⟨Outline.getElem?_entries.mpr ⟨_, hentries, hentry⟩, hkey⟩, hflaw⟩

/-- A document with two methods in a nested resource.  Among the responses of one is a key that
is no status code, and those of the other are no mapping. -/
def nestedResponses : String :=
  "#%RAML 1.0\n/a:\n /b:\n  get: \x7bresponses: \x7b2xx: 1\x7d\x7d\n  put: \x7bresponses: x\x7d\n"

theorem places_of_nested_responses :
    (Document.load "api.raml" "" nestedResponses).toOption.any (fun document =>
      (responses.check (fun _ => .ok "") document).map
        (fun finding => (finding.line, finding.column)) = [(4, 21), (5, 9)]) = true := by
  decide +kernel

/-- Both are found, each at its key. -/
theorem flaws_of_nested_responses :
    ∃ document, Document.load "api.raml" "" nestedResponses = .ok document ∧
      ∃ findings, Lists (· ≠ ·) (ResponseFlaw document) findings ∧
        findings.map (fun finding => (finding.line, finding.column)) = [(4, 21), (5, 9)] := by
  obtain ⟨document, hload, hplaces⟩ := Document.exists_of_any places_of_nested_responses
  exact ⟨document, hload, _, flaws_of_responses hload fun _ => .ok "", of_decide_eq_true hplaces⟩

end Rule

end RamlCheck
