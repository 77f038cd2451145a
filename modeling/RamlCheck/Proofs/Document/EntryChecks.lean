import RamlCheck.Proofs.Document.HeaderForm
import RamlCheck.Proofs.Document.Standalone
import RamlCheck.Proofs.Document.Wording
import RamlCheck.Proofs.Yaml.ComplaintPlace

/-!
# What is checked when a document is entered

A document that cannot be entered fails for the first of its checks that does: it is empty,
its first line writes no header, or its readers come to no mapping.  `entry_checks` says which
texts fail the first two, and that these failures can be told from all others.

## Strategy

The checks come one after the other (`load_eq_error_iff`).  That an error of a reader does not
look like that of a header is mostly a matter of words, since only the latter speaks of both
`#` and `<`.  A complaint about a value may say anything, as it quotes keys of the text; but
its place is not the start of a text that has a header, which starts with a comment
(`Yaml.isPlaced_of_read`).
-/

namespace RamlCheck

/-! ## The words of the readers -/

/-- A number has only digits. -/
theorem Text.not_mem_toString_nat {char : Char} (hchar : char.isDigit = false) (number : Nat) :
    char ∉ (toString number).toList := by
  intro hmem
  have hdigit := (writes_toString number).chars char hmem
  rw [hchar] at hdigit
  contradiction

/-- Fixed words have only the characters that they are made of. -/
theorem Text.not_mem_of_chars {char : Char} {chars : List Char} (hchars : char ∉ chars) :
    char ∉ (String.ofList chars).toList := by
  rwa [String.toList_ofList]

namespace Yaml

theorem Mark.not_mem_suffix (mark : Mark) : '#' ∉ mark.suffix.toList := by
  have hnumber := @Text.not_mem_toString_nat '#' rfl
  rw [Mark.suffix]
  split
  · simp only [String.toList_append, List.mem_append, not_or, hnumber, not_false_eq_true, and_true]
    exact ⟨Text.not_mem_of_chars (by decide), Text.not_mem_of_chars (by decide)⟩
  · exact Text.not_mem_of_chars (by decide)

theorem Fault.not_mem_message (fault : Fault) : '#' ∉ fault.message.toList := by
  unfold Fault.message
  simp only [String.toList_append, List.mem_append, not_or]
  refine ⟨⟨?_, ?_⟩, ?_⟩
  · cases fault.problem <;> exact Text.not_mem_of_chars (by decide)
  · split
    · exact fault.mark.not_mem_suffix
    · split
      · rw [String.toList_append, List.mem_append, not_or]
        exact ⟨Text.not_mem_of_chars (by decide), Text.not_mem_toString_nat rfl _⟩
      · exact Text.not_mem_of_chars (by decide)
  · split
    · exact Text.not_mem_of_chars (by decide)
    · next activity _ =>
      rw [String.toList_append, List.mem_append, not_or]
      refine ⟨Text.not_mem_of_chars (by decide), ?_⟩
      cases activity <;> exact Text.not_mem_of_chars (by decide)

/-- Only a complaint about a value can show a `#`. -/
theorem Error.not_mem_summary {error : Error}
    (herror : ∀ what path mark, error ≠ .complaint what path mark) :
    '#' ∉ error.summary.toList := by
  rw [summary, String.toList_ofList]
  refine fun hmem => absurd (withoutPlace_subset _ hmem) ?_
  cases error with
  | syntaxFault fault =>
      unfold message
      exact fault.not_mem_message
  | complaint what path mark => exact absurd rfl (herror what path mark)
  | unknownAnchor mark | tooDeep mark =>
      unfold message
      rw [String.toList_append, List.mem_append, not_or]
      exact ⟨Text.not_mem_of_chars (by decide), mark.not_mem_suffix⟩
  | tooManyAliases | endOfDocument | severalDocuments => exact Text.not_mem_of_chars (by decide)

end Yaml

namespace Outline

/-- A problem that shows a `#` is about that character, and nothing else. -/
theorem Problem.not_mem_message (problem : Problem) (hmem : '#' ∈ problem.message.toList) :
    '<' ∉ problem.message.toList := by
  cases problem with
  | strayCharacter char =>
      unfold message at hmem ⊢
      simp only [Char.toString, String.toList_append, String.toList_singleton, List.mem_append,
        List.mem_singleton] at hmem ⊢
      obtain rfl := (hmem.resolve_right (by decide)).resolve_left (by decide)
      decide
  | _ => exact absurd hmem (Text.not_mem_of_chars (by decide))

theorem Fault.not_mem_message (fault : Fault) (hmem : '#' ∈ fault.message.toList) :
    '<' ∉ fault.message.toList := by
  have hhash := @Text.not_mem_toString_nat '#' rfl
  have hangle := @Text.not_mem_toString_nat '<' rfl
  unfold message at hmem ⊢
  simp only [String.toList_append, List.mem_append, hhash, hangle, false_or] at hmem ⊢
  have hproblem := hmem.resolve_left (by decide)
  exact fun hbracket => fault.problem.not_mem_message hproblem (hbracket.resolve_left (by decide))

end Outline

namespace EntryError

/-- What is said about a first line that writes no header. -/
abbrev firstLine (name : String) : Failure :=
  failureAt name 1 1
    "Invalid first line. A RAML document is expected to start with '#%RAML <version>'"

/-- What is said at some other place, or in words without these characters, is something
else. -/
theorem failureAt_ne_firstLine {name : String} {line column : Nat} {message : String}
    (hother : ¬(line = 1 ∧ column = 1) ∨ '#' ∉ message.toList ∨ '<' ∉ message.toList) :
    failureAt name line column message ≠ firstLine name := by
  intro hsame
  obtain ⟨hfinding, -⟩ := Failure.structured.inj hsame
  obtain ⟨-, hline, hcolumn, rfl, -⟩ := Finding.mk.inj (List.singleton_inj.mp hfinding)
  rcases hother with hplace | hwords
  · exact hplace ⟨hline, hcolumn⟩
  · exact absurd hwords (by decide)

/-- Only an empty document is refused without a place. -/
theorem exists_failureAt {error : EntryError} (hplaced : error ≠ .empty) (name : String) :
    ∃ line column message, error.failure name = failureAt name line column message := by
  cases error with
  | empty => exact absurd rfl hplaced
  | _ => exact ⟨_, _, _, rfl⟩

/-- Whether an error is told in another way than those that are found before the readers start. -/
structure IsOfReader (error : EntryError) : Prop where
  ne_empty : error ≠ .empty
  ne_firstLine : ∀ name, error.failure name ≠ firstLine name

/-- A complaint about the values of a text is told by its place, all else by its words. -/
theorem isOfReader_values {error : Yaml.Error} (hplaced : error.IsPlaced) :
    (values error).IsOfReader := by
  refine ⟨EntryError.noConfusion, fun name => ?_⟩
  simp only [failure]
  apply failureAt_ne_firstLine
  cases error with
  | complaint what path mark =>
      refine .inl fun hplace => ?_
      obtain ⟨hline, hcolumn⟩ : mark.line + 1 = 1 ∧ mark.column + 1 = 1 := hplace
      rcases (show mark.IsBehindStart from hplaced) with hbehind | hbehind <;> omega
  | _ => exact .inr (.inl (Yaml.Error.not_mem_summary (by simp)))

theorem isOfReader_outline (fault : Outline.Fault) : (outline fault).IsOfReader := by
  refine ⟨EntryError.noConfusion, fun name => ?_⟩
  simp only [failure]
  refine failureAt_ne_firstLine (.inr ?_)
  have hsubset := splitPlace_subset fault.message
  by_contra hboth
  obtain ⟨hhash, hangle⟩ := not_or.mp hboth
  exact fault.not_mem_message (hsubset (not_not.mp hhash)) (hsubset (not_not.mp hangle))

theorem isOfReader_noContent : noContent.IsOfReader := by
  refine ⟨EntryError.noConfusion, fun name => ?_⟩
  simp only [failure]
  exact failureAt_ne_firstLine (by decide)

theorem isOfReader_rootNotMapping : rootNotMapping.IsOfReader := by
  refine ⟨EntryError.noConfusion, fun name => ?_⟩
  simp only [failure]
  exact failureAt_ne_firstLine (by decide)

end EntryError

namespace Document

variable {name directory content text : String} {error : EntryError} {header : Header}

/-! ## One check after the other -/

theorem headerOf_eq_error_iff : headerOf text = .error error ↔
    Text.isBlankText text.toList = true ∧ error = .empty ∨
      Text.isBlankText text.toList = false ∧ (∀ header : Header, ¬header.Opens text.toList) ∧
        error = .header := by
  simp only [← Header.parse?_firstLine_iff]
  rw [headerOf]
  cases Text.isBlankText text.toList with
  | true => simp [eq_comm]
  | false => cases Header.parse? (Text.firstLine text.toList) <;> simp [eq_comm]

/-- A check only counts if those in front of it are passed. -/
theorem load_eq_error_iff : load name directory content = .error error ↔
    headerOf (withoutByteOrderMark content) = .error error ∨
      ∃ header, headerOf (withoutByteOrderMark content) = .ok header ∧
        (valueOf (withoutByteOrderMark content) = .error error ∨
          (∃ value, valueOf (withoutByteOrderMark content) = .ok value) ∧
            rootOf (withoutByteOrderMark content) = .error error) := by
  unfold load
  simp only
  cases headerOf (withoutByteOrderMark content) with
  | error other => simp [bind, Except.bind]
  | ok header =>
      cases valueOf (withoutByteOrderMark content) with
      | error other => simp [bind, Except.bind]
      | ok value =>
          cases rootOf (withoutByteOrderMark content) with
          | error other => simp [bind, Except.bind]
          | ok root => simp [bind, Except.bind, pure, Except.pure]

/-! ## What the readers say -/

theorem isOfReader_of_valueOf {rest : List Char}
    (hrest : (Include.valuesText text).toList = '#' :: rest)
    (hvalue : valueOf text = .error error) : error.IsOfReader := by
  rcases valueOf_error_cases hvalue with ⟨fault, hread, rfl⟩ | rfl | rfl
  · exact EntryError.isOfReader_values (Yaml.isPlaced_of_read hrest hread)
  · exact EntryError.isOfReader_noContent
  · exact EntryError.isOfReader_rootNotMapping

theorem isOfReader_of_rootOf (hroot : rootOf text = .error error) : error.IsOfReader := by
  rcases rootOf_error_cases hroot with ⟨fault, -, rfl⟩ | rfl
  · exact EntryError.isOfReader_outline fault
  · exact EntryError.isOfReader_rootNotMapping

/-- Whatever is wrong with a text that has a header, the readers find it. -/
theorem isOfReader_of_headerOf (hheader : headerOf (withoutByteOrderMark content) = .ok header)
    (hload : load name directory content = .error error) : error.IsOfReader := by
  obtain ⟨-, hparse⟩ := headerOf_eq_ok_iff.mp (headerOf_valuesText hheader).1
  obtain ⟨rest, hrest⟩ := Header.toList_of_parse? hparse
  rcases load_eq_error_iff.mp hload with hother | ⟨_, -, hvalue | ⟨-, hroot⟩⟩
  · rw [hheader] at hother
    cases hother
  · exact isOfReader_of_valueOf hrest hvalue
  · exact isOfReader_of_rootOf hroot

/-! ## Entering a document -/

/-- The ways in which a document is entered, or is not. -/
theorem entry_cases (name directory content : String) :
    let text := (withoutByteOrderMark content).toList
    (Text.isBlankText text = true ∧ load name directory content = .error .empty) ∨
    Text.isBlankText text = false ∧ ((∀ header : Header, ¬header.Opens text) ∧
        load name directory content = .error .header ∨
      ∃ header : Header, header.Opens text ∧
        ((∃ error, load name directory content = .error error ∧ error.IsOfReader) ∨
          ∃ document, load name directory content = .ok document ∧ document.header = header)) := by
  intro text
  cases hheader : headerOf (withoutByteOrderMark content) with
  | error error =>
      have hload : load name directory content = .error error :=
        load_eq_error_iff.mpr (.inl hheader)
      rcases headerOf_eq_error_iff.mp hheader with ⟨hblank, rfl⟩ | ⟨hblank, hnone, rfl⟩
      · exact .inl ⟨hblank, hload⟩
      · exact .inr ⟨hblank, .inl ⟨hnone, hload⟩⟩
  | ok header =>
      obtain ⟨hblank, hparse⟩ := headerOf_eq_ok_iff.mp hheader
      refine .inr ⟨hblank, .inr ⟨header, Header.parse?_firstLine_iff.mp hparse, ?_⟩⟩
      -- once there is a header, only the readers can refuse the text
      rcases load_cases name directory content with ⟨error, hload, -⟩ | ⟨_, _, _, hload, hother, -⟩
      · exact .inl ⟨error, hload, isOfReader_of_headerOf hheader hload⟩
      · exact .inr ⟨_, hload, Except.ok.inj (hother.symm.trans hheader)⟩

/-- A mark of the byte order is taken from the start of a text, and no other character. -/
theorem withoutByteOrderMark_cases (content : String) :
    content.toList = '\ufeff' :: (withoutByteOrderMark content).toList ∨
      withoutByteOrderMark content = content ∧ content.toList.head? ≠ some '\ufeff' := by
  unfold withoutByteOrderMark
  split
  · next rest hcontent => exact .inl (by rw [hcontent, String.toList_ofList])
  · next hother =>
    refine .inr ⟨rfl, fun hmark => ?_⟩
    obtain ⟨rest, hrest⟩ := List.head?_eq_some_iff.mp hmark
    exact hother rest hrest

/-- The checks of a document that is entered.  Leaving out a mark of the byte order, a document
is told to be empty if it is blank; if it is not, its first line is complained about, at the
start of the document, if it does not write a header.  All other failures are a single error in
the document.  A document that is entered has the header that its first line writes. -/
theorem entry_checks (name directory content : String) :
    let text := (withoutByteOrderMark content).toList
    let result := (load name directory content).mapError (EntryError.failure name)
    (content.toList = '\ufeff' :: text ∨
      content.toList = text ∧ content.toList.head? ≠ some '\ufeff') ∧
    (result = .error (.generic "Document is empty") ↔
      ∀ char ∈ text, Text.isBlank char = true) ∧
    (result = .error (.structured
        [{ path := name
           line := 1
           column := 1
           message :=
             "Invalid first line. A RAML document is expected to start with '#%RAML <version>'"
           isWarning := false }] none) ↔
      (∃ char ∈ text, Text.isBlank char = false) ∧ ∀ header : Header, ¬header.Opens text) ∧
    (∀ failure, result = .error failure → failure ≠ .generic "Document is empty" →
      ∃ line column message, failure =
        .structured [{ path := name, line, column, message, isWarning := false }] none) ∧
    ∀ document, result = .ok document →
      ∀ header : Header, header.Opens text ↔ document.header = header := by
  intro text result
  have hmark := (withoutByteOrderMark_cases content).imp_right
    (And.imp_left fun hsame : _ = content => (congrArg String.toList hsame).symm)
  have hall : (∀ char ∈ text, Text.isBlank char = true) ↔ Text.isBlankText text = true :=
    List.all_eq_true.symm
  have hany : (∃ char ∈ text, Text.isBlank char = false) ↔ Text.isBlankText text = false := by
    simp [Text.isBlankText]
  have hresult : ∀ {reached : Except EntryError Document}, load name directory content = reached →
      result = reached.mapError (EntryError.failure name) :=
    fun hload => congrArg (Except.mapError (EntryError.failure name)) hload
  refine ⟨hmark, ?_⟩
  rw [hall, hany]
  -- blank, without a header, refused by a reader, or entered: in each case it is clear
  -- what the result is, and so what it is not
  rcases entry_cases name directory content with
    ⟨hblank, hload⟩ | ⟨hblank, ⟨hnone, hload⟩ | ⟨header, hopens, hend⟩⟩
  · rw [show result = .error (.generic "Document is empty") from hresult hload, hblank]
    refine ⟨iff_of_true rfl rfl, by simp, fun failure hfailure hother => ?_, by simp⟩
    exact absurd (Except.error.inj hfailure).symm hother
  · rw [show result = .error (EntryError.firstLine name) from hresult hload, hblank]
    refine ⟨by simp [EntryError.failureAt], iff_of_true rfl ⟨rfl, hnone⟩, ?_, by simp⟩
    exact fun failure hfailure _ => ⟨_, _, _, (Except.error.inj hfailure).symm⟩
  · have hsome : ¬∀ header : Header, ¬header.Opens text := fun hnone => hnone header hopens
    rw [hblank]
    rcases hend with ⟨error, hload, hreader⟩ | ⟨document, hload, hdocument⟩
    · rw [show result = .error (error.failure name) from hresult hload]
      -- a reader words nothing as the missing header is worded
      have hother := hreader.ne_firstLine name
      obtain ⟨line, column, message, hplaced⟩ :=
        EntryError.exists_failureAt hreader.ne_empty name
      rw [hplaced] at hother ⊢
      refine ⟨by simp [EntryError.failureAt], ?_, ?_, by simp⟩
      · exact iff_of_false (fun hsame => hother (Except.error.inj hsame)) fun hboth => hsome hboth.2
      · exact fun failure hfailure _ => ⟨_, _, _, (Except.error.inj hfailure).symm⟩
    · rw [show result = .ok document from hresult hload]
      refine ⟨by simp, by simp [hsome], by simp, fun other hsame found => ?_⟩
      rw [← Except.ok.inj hsame, hdocument]
      exact ⟨fun hfound => Header.Opens.unique hopens hfound, fun hfound => hfound ▸ hopens⟩

end Document

end RamlCheck
