import RamlCheck.Proofs.Document.Standalone
import RamlCheck.Proofs.Rule.Responses

/-!
# Declarations that spell a reference

Resources, methods and responses have to be mappings.  Of those that are not, the rules report
the sequences and the scalars, unless a scalar reads as empty or spells a reference or an alias
out (`Rule.strays_reported`).  Its text is all that counts.  So a scalar in quotes is not
reported either if it spells one, and a document without any references or aliases may have
such declarations (`Rule.spelled_declarations_pass`).

## Strategy

The findings of both rules have been listed.  Those that demand a mapping are told by the end
of their messages, and are kept by `Lists.filter`.
-/

namespace RamlCheck

/-! ## What a scalar spells -/

/-- Whether a text is what stands in place of a reference or an alias where positions are
read. -/
inductive Include.Spelled (text : String) : Prop
  | reference (target : String) (htext : text = "!include " ++ target)
  | aliased (name : String) (hname : name ≠ "") (htext : text = "*" ++ name)

theorem Include.isSome_target?_iff {text : String} :
    (target? text).isSome = true ↔ ∃ target, text = "!include " ++ target := by
  simp only [target?]
  constructor
  · intro hsome
    split at hsome
    · next hmark =>
      let target := String.ofList (text.toList.drop includeMark.length)
      have htarget : target.toList = text.toList.drop includeMark.length := String.toList_ofList
      refine ⟨target, String.toList_injective ?_⟩
      rw [String.toList_append, htarget]
      exact (List.take_append_drop _ _).symm.trans (congrArg (· ++ _) hmark)
    · contradiction
  · rintro ⟨target, rfl⟩
    rw [String.toList_append]
    rfl

theorem Include.isAliasMark_iff {text : String} :
    isAliasMark text = true ↔ ∃ name, name ≠ "" ∧ text = "*" ++ name := by
  rw [isAliasMark]
  constructor
  · intro hmark
    split at hmark
    · next first rest htext =>
      let name := String.ofList (first :: rest)
      have hname : name.toList = first :: rest := String.toList_ofList
      refine ⟨name, ?_, String.toList_injective ?_⟩
      · intro hempty
        rw [hempty] at hname
        contradiction
      · rw [htext, String.toList_append, hname]
        rfl
    · contradiction
  · rintro ⟨name, hname, rfl⟩
    have hchars : name.toList ≠ [] := fun hnil => hname (String.toList_injective hnil)
    obtain ⟨first, rest, hfirst⟩ := List.exists_cons_of_ne_nil hchars
    rw [String.toList_append, hfirst]
    rfl

namespace Outline

theorem isReference_scalar {label : Label} :
    (Outline.scalar label).isReference = true ↔ Include.Spelled label.text := by
  rw [isReference, label?, Option.any_some, Bool.or_eq_true, Include.isSome_target?_iff,
    Include.isAliasMark_iff]
  constructor
  · rintro (⟨target, htext⟩ | ⟨name, hname, htext⟩)
    · exact .reference target htext
    · exact .aliased name hname htext
  · rintro (⟨target, htext⟩ | ⟨name, hname, htext⟩)
    · exact .inl ⟨target, htext⟩
    · exact .inr ⟨name, hname, htext⟩

theorem isEmptyValue_scalar {label : Label} :
    (Outline.scalar label).isEmptyValue = true ↔ label.text ∈ ["", "~", "null"] := by
  simp [isEmptyValue, label?, or_assoc]

/-- Whether a node is no mapping and does not read as one that is left empty or comes from
elsewhere. -/
inductive IsStray : Outline → Prop
  | sequence (items : List Outline) : IsStray (.sequence items)
  | scalar {label : Label} (hempty : label.text ∉ ["", "~", "null"])
      (hspelled : ¬ Include.Spelled label.text) : IsStray (.scalar label)

theorem isMisfit_iff_isStray {node : Outline} : node.IsMisfit ↔ node.IsStray := by
  constructor
  · rintro ⟨hmapping, hempty, hreference⟩
    cases node with
    | mapping entries => contradiction
    | sequence items => exact .sequence items
    | scalar label =>
        refine .scalar (fun htext => ?_) fun hspelled => ?_
        · rw [isEmptyValue_scalar.mpr htext] at hempty
          contradiction
        · rw [isReference_scalar.mpr hspelled] at hreference
          contradiction
  · rintro (items | ⟨hempty, hspelled⟩)
    · exact ⟨rfl, rfl, rfl⟩
    · exact ⟨rfl, Bool.eq_false_iff.mpr (isEmptyValue_scalar.not.mpr hempty),
        Bool.eq_false_iff.mpr (isReference_scalar.not.mpr hspelled)⟩

end Outline

/-! ## Findings that demand a mapping -/

/-- Whether a finding says that something has to be a mapping. -/
def Finding.demandsMapping (finding : Finding) : Bool :=
  " must be a mapping".toList.isSuffixOf finding.message.toList

theorem Finding.demandsMapping_iff {finding : Finding} :
    finding.demandsMapping = true ↔ " must be a mapping".toList <:+ finding.message.toList :=
  List.isSuffixOf_iff_suffix

namespace Rule

variable {document : Document}

/-- The resources and methods of a document that are stray, and what is found at each. -/
inductive StrayDeclaration (document : Document) : Trail → Finding → Prop
  | resource {trail : Trail} {resource : Resource}
      (hresource : Resource.IsAt document.root trail resource) (hnode : resource.node.IsStray) :
      StrayDeclaration document trail
        (document.findingAt resource.key.place .error
          ("Resource '" ++ resource.key.text ++ "' must be a mapping"))
  | method {outer : Trail} {index : Nat} {method : Method}
      (hmethod : Method.IsAt document.root (outer, index) method) (hnode : method.node.IsStray) :
      StrayDeclaration document (outer ++ [index])
        (document.findingAt method.key.place .error
          ("Method '" ++ method.key.text ++ "' must be a mapping"))

/-- The responses of methods that are stray, and what is found at each. -/
inductive StrayResponses (document : Document) : Trail → Finding → Prop
  | responses {outer : Trail} {index position : Nat} {method : Method}
      {entries : List (Label × Outline)} {key : Label} {node : Outline}
      (hmethod : Method.IsAt document.root (outer, index) method)
      (hentries : method.node = .mapping entries)
      (hentry : entries[position]? = some (key, node)) (hkey : key.text = "responses")
      (hnode : node.IsStray) :
      StrayResponses document (outer ++ [index, position])
        (document.findingAt key.place .error "Property 'responses' must be a mapping")

theorem demandsMapping_findingAt (place : Place) (severity : Severity) (subject : String) :
    (document.findingAt place severity (subject ++ "' must be a mapping")).demandsMapping =
      true := by
  rw [Finding.demandsMapping_iff, Document.findingAt, String.toList_append]
  exact (List.suffix_cons _ _).trans (List.suffix_append _ _)

/-- A message with another end demands no mapping. -/
theorem demandsMapping_eq_false {finding : Finding} {front behind : String} {last : Char}
    (hmessage : finding.message = front ++ behind) (hbehind : behind.toList.getLast? = some last)
    (hlast : 'g' ≠ last) : finding.demandsMapping = false := by
  rw [← Bool.not_eq_true, Finding.demandsMapping_iff, hmessage, String.toList_append]
  rintro ⟨other, hother⟩
  have hsame := congrArg List.getLast? hother
  rw [List.getLast?_append, List.getLast?_append, hbehind] at hsame
  exact hlast (Option.some.inj hsame)

/-- Of what is wrong with resources and methods, stray ones are what demands a mapping. -/
theorem strayDeclaration_iff {trail : Trail} {finding : Finding} :
    StructureFlaw document trail finding ∧ finding.demandsMapping = true ↔
      StrayDeclaration document trail finding := by
  constructor
  · rintro ⟨⟨hresource, hflaw⟩ | ⟨hmethod, hflaw⟩, hdemands⟩
    · -- a key that is unknown makes no demand for a mapping
      cases hflaw with
      | notMapping hnode => exact .resource hresource (Outline.isMisfit_iff_isStray.mp hnode)
      | method hentries hentry hkey hnode =>
          exact .method (.declared hresource hentries hentry hkey)
            (Outline.isMisfit_iff_isStray.mp hnode)
      | unknown =>
          rw [demandsMapping_eq_false rfl rfl (by decide)] at hdemands
          contradiction
    · cases hflaw with
      | unknown =>
          rw [demandsMapping_eq_false rfl rfl (by decide)] at hdemands
          contradiction
  · rintro (⟨hresource, hnode⟩ | ⟨hmethod, hnode⟩)
    · exact ⟨.ofResource hresource (.notMapping (Outline.isMisfit_iff_isStray.mpr hnode)),
        demandsMapping_findingAt _ _ _⟩
    · cases hmethod with
      | declared hresource hinner hentry hkey =>
          exact ⟨.ofResource hresource
            (.method hinner hentry hkey (Outline.isMisfit_iff_isStray.mpr hnode)),
            demandsMapping_findingAt _ _ _⟩

/-- In a document that has been entered, the rules demand a mapping of each resource, each
method and all responses that are a sequence, or a scalar that neither reads as empty nor spells
a reference or an alias: once for each of them, at its key, and of nothing else. -/
theorem strays_reported {name directory content : String}
    (hload : Document.load name directory content = .ok document) (files : FileSystem) :
    Lists (· ≠ ·) (StrayDeclaration document)
        ((resources.check files document).filter Finding.demandsMapping) ∧
      Lists (· ≠ ·) (StrayResponses document)
        ((responses.check files document).filter Finding.demandsMapping) := by
  have hroot := Document.distinct_of_load hload
  constructor
  · exact ((lists_structureFlaws files document).filter _).congr fun trail finding =>
      strayDeclaration_iff
  · refine ((lists_flaws_of_distinct hroot).filter _).congr fun trail finding => ?_
    constructor
    · rintro ⟨⟨⟨outer, index⟩, method, hmethod, position, ⟨key, node⟩, ⟨hentry, hkey⟩, hflaw⟩,
        hdemands⟩
      obtain ⟨entries, hentries, hentry⟩ := Outline.getElem?_entries.mp hentry
      -- a code that is no status code makes no demand for a mapping
      cases hflaw with
      | notMapping hnode =>
          exact .responses hmethod hentries hentry hkey (Outline.isMisfit_iff_isStray.mp hnode)
      | code =>
          rw [demandsMapping_eq_false rfl rfl (by decide)] at hdemands
          contradiction
    · rintro ⟨hmethod, hentries, hentry, hkey, hnode⟩
      exact ⟨⟨_, _, hmethod, _, _, ⟨Outline.getElem?_entries.mpr ⟨_, hentries, hentry⟩, hkey⟩,
        .notMapping (Outline.isMisfit_iff_isStray.mpr hnode)⟩,
        demandsMapping_findingAt _ _ "Property 'responses"⟩

/-- A document with a sequence and two scalars in quotes in place of mappings: as a resource, as
a method and as responses. -/
def strayDeclarations : String :=
  "#%RAML 1.0\n/a: []\n/b:\n get: \"!included\"\n put: \x7bresponses: 'x'\x7d\n"

theorem places_of_stray_declarations :
    (Document.load "api.raml" "" strayDeclarations).toOption.any (fun document =>
      ((resources.check (fun _ => .ok "") document).filter Finding.demandsMapping).map
        (fun finding => (finding.line, finding.column)) = [(2, 1), (4, 2)] ∧
      ((responses.check (fun _ => .ok "") document).filter Finding.demandsMapping).map
        (fun finding => (finding.line, finding.column)) = [(5, 8)]) = true := by
  decide +kernel

/-- Each of them is reported at its key. -/
theorem strays_reported_in_quotes :
    ∃ document, Document.load "api.raml" "" strayDeclarations = .ok document ∧
      ∃ declared listed, Lists (· ≠ ·) (StrayDeclaration document) declared ∧
        Lists (· ≠ ·) (StrayResponses document) listed ∧
        declared.map (fun finding => (finding.line, finding.column)) = [(2, 1), (4, 2)] ∧
        listed.map (fun finding => (finding.line, finding.column)) = [(5, 8)] := by
  obtain ⟨document, hload, hplaces⟩ := Document.exists_of_any places_of_stray_declarations
  obtain ⟨hdeclared, hlisted⟩ := strays_reported hload fun _ => .ok ""
  obtain ⟨hfirst, hsecond⟩ := of_decide_eq_true hplaces
  exact ⟨document, hload, _, _, hdeclared, hlisted, hfirst, hsecond⟩

/-! ## Quotes around a reference -/

/-- A document with three scalars in quotes in place of mappings. -/
def spelledDeclarations : String :=
  "#%RAML 1.0\n/a: '*all'\n/b:\n get: \"!include b\"\n put: \x7bresponses: '*x'\x7d\n"

/-- There is no reference and no alias in the document, but each scalar spells one, so that none
of them is reported. -/
theorem spelled_declarations_pass :
    Include.piecesOf spelledDeclarations = spelledDeclarations.toList.map .copied ∧
      (Document.load "api.raml" "" spelledDeclarations).toOption.any (fun document =>
        document.resources.map (fun resource => resource.node.label?.map Label.text) =
          [some "*all", none] ∧
        document.methods.map (fun method => method.node.label?.map Label.text) =
          [some "!include b", none] ∧
        resources.check (fun _ => .ok "") document = [] ∧
        responses.check (fun _ => .ok "") document = []) = true := by
  decide +kernel

/-- With all its references in quotes, a document has the same findings. -/
theorem check_valuesText {name directory content : String}
    (hload : Document.load name directory content = .ok document) (files : FileSystem) :
    ∃ quoted, Document.load name directory
        (Include.valuesText (Document.withoutByteOrderMark content)) = .ok quoted ∧
      quoted.includes = [] ∧ resources.check files quoted = resources.check files document ∧
      responses.check files quoted = responses.check files document :=
  ⟨_, Document.load_valuesText hload, rfl, rfl, rfl⟩

end Rule

end RamlCheck
