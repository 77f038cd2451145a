import RamlCheck.Proofs.Document.MessagePlace
import RamlCheck.Proofs.Document.Reading
import RamlCheck.Proofs.Include.Pieces
import RamlCheck.Proofs.Rule.Wording

/-!
# What the messages of a verdict quote

A verdict on a source is a payload, or says why there is none: a source that cannot be
read, a document that cannot be entered, or what the rules find in it.  `Source.Quotes`
lists the texts that these messages show as they are.  The path of the source and the
targets of references aside, which stay on one line, the line feeds of a message are those
of such texts (`feedsFrom_of_validator`).
-/

namespace RamlCheck

open Text (OneLine FeedsFrom)

/-- The messages of a failure, in the order of its findings. -/
def Failure.messages : Failure → List String
  | .generic message => [message]
  | .structured findings _ => findings.map (·.message)

theorem Failure.map_message_issues (input : Input) (failure : Failure) :
    (failure.issues input).map (·.message) = failure.messages := by
  cases failure with
  | generic message => rfl
  | structured findings payload =>
      rw [issues_structured, List.map_map]
      rfl

/-! ## Documents that cannot be entered -/

/-- What follows a place in a message is a part of the message. -/
theorem splitPlace?_subset {message rest : List Char} {line column : Nat}
    (hsplit : splitPlace? message = some (line, column, rest)) : rest ⊆ message := by
  obtain ⟨⟨-, -, -⟩, -⟩ := splitPlace?_eq_some_iff.mp hsplit
  intro char hchar
  simp [hchar]

theorem splitPlace_subset (message : String) :
    (splitPlace message).2.2.toList ⊆ message.toList := by
  unfold splitPlace
  split
  · next line column rest hsplit =>
    rw [String.toList_ofList]
    exact splitPlace?_subset hsplit
  · exact List.Subset.refl _

variable {files : FileSystem} {name directory text : String}

theorem EntryError.messages_values (name : String) (error : Yaml.Error) :
    ((values error).failure name).messages = [error.summary] := by
  simp only [failure]
  generalize error.position?.getD (1, 1) = position
  rfl

theorem EntryError.messages_outline (name : String) (fault : Outline.Fault) :
    ((outline fault).failure name).messages = [(splitPlace fault.message).2.2] := by
  simp only [failure]
  generalize splitPlace fault.message = parts
  rfl

/-- What is told of an error in fixed words stays on one line; the rest is told as the readers
tell it. -/
theorem EntryError.feedsFrom_messages {quoted : String → Prop} {error : EntryError}
    (hvalues : ∀ other, error = .values other → FeedsFrom quoted other.summary)
    (houtline : ∀ fault, error = .outline fault → OneLine fault.message) {message : String}
    (hmessage : message ∈ (error.failure name).messages) : FeedsFrom quoted message := by
  cases error with
  | empty =>
      rw [List.mem_singleton.mp hmessage]
      exact .of_chars (by decide)
  | header =>
      rw [List.mem_singleton.mp hmessage]
      exact .of_chars (by decide)
  | values other =>
      rw [messages_values, List.mem_singleton] at hmessage
      rw [hmessage]
      exact hvalues other rfl
  | noContent =>
      rw [List.mem_singleton.mp hmessage]
      exact .of_chars (by decide)
  | rootNotMapping =>
      rw [List.mem_singleton.mp hmessage]
      exact .of_chars (by decide)
  | outline fault =>
      rw [messages_outline, List.mem_singleton] at hmessage
      rw [hmessage]
      exact .of_oneLine (Text.oneLine_of_subset (splitPlace_subset _) (houtline fault rfl))

/-- Where the errors of the readers come from when a document cannot be entered. -/
theorem Document.read_of_load {error : EntryError}
    (hload : load name directory text = .error error) :
    (∀ other, error = .values other →
      Yaml.read (Include.valuesText (withoutByteOrderMark text)) = .error other) ∧
    ∀ fault, error = .outline fault →
      Outline.read (Include.positionsText (withoutByteOrderMark text)) = .error fault := by
  rcases load_cases name directory text with ⟨other, hother, hpart⟩ | ⟨_, _, _, hother, -⟩
  · obtain rfl := Except.error.inj (hother.symm.trans hload)
    rcases hpart with hheader | hvalue | hroot
    · -- a missing header is no complaint of a reader
      rcases headerOf_error_cases hheader with rfl | rfl <;> simp
    · -- the first reader has the references in quotes
      rcases valueOf_error_cases hvalue with ⟨fault, hread, rfl⟩ | rfl | rfl
      · simpa using hread
      · simp
      · simp
    · -- the second one reads what only keeps the places
      rcases rootOf_error_cases hroot with ⟨fault, hread, rfl⟩ | rfl
      · simpa using hread
      · simp
  · rw [hload] at hother
    contradiction

/-- Why a document cannot be entered is told with scalars of its text. -/
theorem feedsFrom_of_load {error : EntryError}
    (hload : Document.load name directory text = .error error) {message : String}
    (hmessage : message ∈ (error.failure name).messages) :
    FeedsFrom (Yaml.HasScalar (Include.valuesText (Document.withoutByteOrderMark text)))
      message := by
  obtain ⟨hvalues, houtline⟩ := Document.read_of_load hload
  exact EntryError.feedsFrom_messages
    (fun other herror => Yaml.feedsFrom_of_read (hvalues other herror))
    (fun fault herror => Outline.oneLine_of_read (houtline fault herror)) hmessage

/-- The targets of the references of a document stay on one line. -/
theorem oneLine_target_of_load {document : Document}
    (hload : Document.load name directory text = .ok document) {reference : Include}
    (hreference : reference ∈ document.includes) : OneLine reference.target := by
  rcases Document.load_cases name directory text with ⟨_, hother, -⟩ | ⟨_, _, _, hother, -⟩
  · rw [hload] at hother
    contradiction
  · rw [hload] at hother
    rw [Except.ok.inj hother] at hreference
    exact Include.feed_not_mem_target hreference

/-! ## Verdicts -/

/-- The texts that the messages about a source show as they are: why the source cannot be
read; scalars of the document in it; and what is quoted of a document that can be
entered. -/
inductive Source.Quotes (files : FileSystem) (source : Source) : String → Prop
  | unread {path : String} {failure : ReadFailure} (hpath : source.path? = some path)
      (hread : files path = .error failure) : Quotes files source failure.message
  | scalar {name directory content text : String}
      (hopen : source.open? files = .ok (name, directory, content))
      (hscalar : Yaml.HasScalar
        (Include.valuesText (Document.withoutByteOrderMark content)) text) :
      Quotes files source text
  | found {document : Document} {text : String} (hload : source.load files = .ok document)
      (htext : document.Quotes files text) : Quotes files source text

variable {source : Source}

theorem feedsFrom_of_load_error (hpath : ∀ path ∈ source.path?, OneLine path) {failure : Failure}
    (hload : source.load files = .error failure) {message : String}
    (hmessage : message ∈ failure.messages) : FeedsFrom (source.Quotes files) message := by
  cases hopen : source.open? files with
  | error other =>
      rw [Source.load, hopen] at hload
      obtain rfl : other = failure := Except.error.inj hload
      cases source with
      | content name text => simp [Source.open?] at hopen
      | file path =>
          simp only [Source.open?] at hopen
          split at hopen
          · next reason hread =>
            -- the message gives the path as it is and quotes the reason
            rw [← Except.error.inj hopen] at hmessage
            rw [List.mem_singleton.mp hmessage]
            refine .append (.append (.append (.of_chars (by decide)) ?_) ?_) ?_
            · exact .of_oneLine (hpath path rfl)
            · exact .of_chars (by decide)
            · exact .of_quoted (.unread rfl hread)
          · simp at hopen
  | ok opened =>
      obtain ⟨name, directory, text⟩ := opened
      rw [Source.load_of_open hopen] at hload
      split at hload
      · simp at hload
      · next error hdocument =>
        rw [← Except.error.inj hload] at hmessage
        exact (feedsFrom_of_load hdocument hmessage).mono fun _ => .scalar hopen

theorem feedsFrom_of_mem_findings {document : Document}
    (hload : source.load files = .ok document) {finding : Finding}
    (hfinding : finding ∈ document.sortedFindings .builtin files) :
    FeedsFrom (source.Quotes files) finding.message := by
  obtain ⟨_, _, _, -, hdocument⟩ := Source.exists_of_load hload
  obtain ⟨rule, hrule, hcheck⟩ := List.mem_flatMap.mp (List.mem_mergeSort.mp hfinding)
  exact (Rule.feedsFrom_of_mem_check (fun _ => oneLine_target_of_load hdocument) hrule
    hcheck).mono fun _ => .found hload

/-- The line feeds in what is said about a source are those of texts that are quoted, if
the path of the source has none. -/
theorem feedsFrom_of_validator (hpath : ∀ path ∈ source.path?, OneLine path) {failure : Failure}
    (hverdict : validator .builtin files source = .error failure) {message : String}
    (hmessage : message ∈ failure.messages) : FeedsFrom (source.Quotes files) message := by
  unfold validator at hverdict
  cases hload : source.load files with
  | error other =>
      rw [hload] at hverdict
      rw [← Except.error.inj hverdict] at hmessage
      exact feedsFrom_of_load_error hpath hload hmessage
  | ok document =>
      simp only [hload, Document.verdict] at hverdict
      split at hverdict
      · contradiction
      · rw [← Except.error.inj hverdict] at hmessage
        obtain ⟨finding, hfinding, rfl⟩ := List.mem_map.mp hmessage
        exact feedsFrom_of_mem_findings hload hfinding

end RamlCheck
