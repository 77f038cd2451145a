import RamlCheck.Validation

/-!
# What is known of a document that has been loaded

A text is entered part by part: its header, its value, its outline (`load_cases`).  Each part
is what one reader gives, or else there are a few errors that it can fail with
(`valueOf_error_cases`, `rootOf_error_cases`).  So a document that has been entered holds what
both of its readers gave (`values_of_load`, `outline_of_load`).

A source that cannot be loaded fails for one of two reasons, of which either makes a single
issue (`Source.load_error_cases`, `EntryError.failure_cases`).
-/

namespace RamlCheck

namespace Document

variable {name directory content : String} {document : Document} {error : EntryError}

/-! ## The parts of a text -/

/-- A text without a header is blank, or its first line is none. -/
theorem headerOf_error_cases (hheader : headerOf content = .error error) :
    error = .empty ∨ error = .header := by
  unfold headerOf at hheader
  split at hheader
  · exact .inl (Except.error.inj hheader).symm
  · split at hheader
    · simp at hheader
    · exact .inr (Except.error.inj hheader).symm

/-- The value of a text is what is read in its text for values, and that is a mapping. -/
theorem read_of_valueOf {value : Yaml.Value} (hvalue : valueOf content = .ok value) :
    Yaml.read (Include.valuesText content) = .ok value ∧ ∃ entries, value = .mapping entries := by
  unfold valueOf at hvalue
  split at hvalue
  · simp at hvalue
  · next found hread =>
    split at hvalue
    · next entries =>
      obtain rfl := Except.ok.inj hvalue
      exact ⟨hread, entries, rfl⟩
    · simp at hvalue
    · simp at hvalue

/-- A text without a value cannot be read, or holds something else than a mapping. -/
theorem valueOf_error_cases (hvalue : valueOf content = .error error) :
    (∃ fault, Yaml.read (Include.valuesText content) = .error fault ∧ error = .values fault) ∨
      error = .noContent ∨ error = .rootNotMapping := by
  unfold valueOf at hvalue
  split at hvalue
  · next fault hread => exact .inl ⟨fault, hread, (Except.error.inj hvalue).symm⟩
  · split at hvalue
    · simp at hvalue
    · exact .inr (.inl (Except.error.inj hvalue).symm)
    · exact .inr (.inr (Except.error.inj hvalue).symm)

/-- The outline of a text is what is read in its text for positions, and that is a mapping. -/
theorem read_of_rootOf {root : List (Label × Outline)} (hroot : rootOf content = .ok root) :
    Outline.read (Include.positionsText content) = .ok (some (.mapping root)) := by
  unfold rootOf at hroot
  split at hroot
  · simp at hroot
  · next outline hread =>
    split at hroot
    · next entries hentries =>
      obtain ⟨tree, rfl, htree⟩ := Option.bind_eq_some_iff.mp hentries
      obtain rfl := Except.ok.inj hroot
      cases tree with
      | mapping entries => rw [hread, ← Option.some.inj htree]
      | scalar => exact absurd htree (by simp [Outline.entries?])
      | sequence => exact absurd htree (by simp [Outline.entries?])
    · simp at hroot

/-- A text without an outline cannot be read, or holds something else than a mapping. -/
theorem rootOf_error_cases (hroot : rootOf content = .error error) :
    (∃ fault, Outline.read (Include.positionsText content) = .error fault ∧
      error = .outline fault) ∨ error = .rootNotMapping := by
  unfold rootOf at hroot
  split at hroot
  · next fault hread => exact .inl ⟨fault, hread, (Except.error.inj hroot).symm⟩
  · split at hroot
    · simp at hroot
    · exact .inr (Except.error.inj hroot).symm

/-! ## Entering a text -/

/-- A document is entered part by part, and refused for the first part that is missing. -/
theorem load_cases (name directory text : String) :
    let content := withoutByteOrderMark text
    (∃ error, load name directory text = .error error ∧
      (headerOf content = .error error ∨ valueOf content = .error error ∨
        rootOf content = .error error)) ∨
    ∃ header value root, load name directory text =
        .ok { name, directory, header, root, value, includes := Include.includesOf content } ∧
      headerOf content = .ok header ∧ valueOf content = .ok value ∧ rootOf content = .ok root := by
  intro content
  unfold load
  cases hheader : headerOf content with
  | error error => exact .inl ⟨error, by simp only [content, hheader]; rfl, .inl rfl⟩
  | ok header =>
      cases hvalue : valueOf content with
      | error error =>
          exact .inl ⟨error, by simp only [content, hheader, hvalue]; rfl, .inr (.inl rfl)⟩
      | ok value =>
          cases hroot : rootOf content with
          | error error =>
              exact .inl ⟨error, by simp only [content, hheader, hvalue, hroot]; rfl,
                .inr (.inr rfl)⟩
          | ok root =>
              exact .inr ⟨header, value, root,
                by simp only [content, hheader, hvalue, hroot]; rfl, rfl, rfl, rfl⟩

/-- A document that has been entered keeps its name and its directory, and its value is
that of the text. -/
theorem fields_of_load (hload : load name directory content = .ok document) :
    document.name = name ∧ document.directory = directory ∧
      valueOf (withoutByteOrderMark content) = .ok document.value := by
  rcases load_cases name directory content with ⟨error, hother, -⟩ |
      ⟨_, _, _, hother, -, hvalue, -⟩
  · rw [hload] at hother
    contradiction
  · rw [hload] at hother
    rw [Except.ok.inj hother]
    exact ⟨rfl, rfl, hvalue⟩

/-- The value of a document that has been entered is that of its text for values. -/
theorem values_of_load (hload : load name directory content = .ok document) :
    Yaml.read (Include.valuesText (withoutByteOrderMark content)) = .ok document.value :=
  (read_of_valueOf (fields_of_load hload).2.2).1

/-- A document that has been entered holds a mapping. -/
theorem value_of_load (hload : load name directory content = .ok document) :
    ∃ entries, document.value = .mapping entries :=
  (read_of_valueOf (fields_of_load hload).2.2).2

/-- The root of a document that has been entered is the outline of its text for positions. -/
theorem outline_of_load (hload : load name directory content = .ok document) :
    Outline.read (Include.positionsText (withoutByteOrderMark content)) =
      .ok (some (.mapping document.root)) := by
  rcases load_cases name directory content with ⟨error, hother, -⟩ |
      ⟨header, value, root, hother, -, -, hroot⟩
  · exact absurd (hload.symm.trans hother) (by simp)
  · obtain rfl := Except.ok.inj (hload.symm.trans hother)
    exact read_of_rootOf hroot

end Document

/-- A document that cannot be entered makes one issue: without a location, or an error
in the document itself. -/
theorem EntryError.failure_cases (name : String) (error : EntryError) :
    (∃ message, error.failure name = .generic message) ∨
      ∃ line column message, error.failure name = failureAt name line column message := by
  cases error with
  | empty => exact .inl ⟨_, rfl⟩
  | header => exact .inr ⟨_, _, _, rfl⟩
  | values error => exact .inr ⟨_, _, _, rfl⟩
  | noContent => exact .inr ⟨_, _, _, rfl⟩
  | rootNotMapping => exact .inr ⟨_, _, _, rfl⟩
  | outline fault => exact .inr ⟨_, _, _, rfl⟩

namespace Source

variable {files : FileSystem} {source : Source}

theorem load_of_open {name directory text : String}
    (hopen : source.open? files = .ok (name, directory, text)) :
    source.load files =
      match Document.load name directory text with
      | .ok document => .ok document
      | .error error => .error (error.failure name) := by
  rw [load, hopen]
  rfl

/-- Why a source cannot be loaded: its text cannot be read, or the document in it cannot
be entered. -/
theorem load_error_cases {failure : Failure} (hload : source.load files = .error failure) :
    (∃ message, failure = .generic message) ∨
      ∃ name directory text error, source.open? files = .ok (name, directory, text) ∧
        failure = EntryError.failure name error := by
  cases hopen : source.open? files with
  | error other =>
      rw [load, hopen] at hload
      obtain rfl : other = failure := Except.error.inj hload
      left
      cases source with
      | content name text => simp [open?] at hopen
      | file path =>
          simp only [open?] at hopen
          split at hopen
          · exact ⟨_, (Except.error.inj hopen).symm⟩
          · simp at hopen
  | ok opened =>
      obtain ⟨name, directory, text⟩ := opened
      rw [load_of_open hopen] at hload
      split at hload
      · simp at hload
      · next error hdocument =>
        exact .inr ⟨name, directory, text, error, rfl, (Except.error.inj hload).symm⟩

/-- A source that can be loaded can be opened, and what it holds can be entered. -/
theorem exists_of_load {document : Document} (hload : source.load files = .ok document) :
    ∃ name directory text, source.open? files = .ok (name, directory, text) ∧
      Document.load name directory text = .ok document := by
  cases hopen : source.open? files with
  | error other =>
      rw [load, hopen] at hload
      cases hload
  | ok opened =>
      obtain ⟨name, directory, text⟩ := opened
      rw [load_of_open hopen] at hload
      split at hload
      · next other hdocument =>
        rw [Except.ok.inj hload] at hdocument
        exact ⟨name, directory, text, rfl, hdocument⟩
      · simp at hload

end Source

end RamlCheck
