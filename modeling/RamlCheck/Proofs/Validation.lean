import RamlCheck.Proofs.Document.Loading
import RamlCheck.Proofs.File.Path
import RamlCheck.Proofs.Run.Steps
import RamlCheck.Validation

/-!
# A valid input has a payload

A policy may leave out every issue of an input, which then is valid.  Its payload is
shown, so there has to be one: `exists_payload_of_isValid`.

## Strategy

Only a document that has been loaded has a payload, so what fails to load must not be
valid.  A failure to load is a single issue: one without a location, which every policy
keeps, or an error in the document itself.  The latter is placed under the name of the
file, which the report looks up from the directory of the input and finds there again
(`Path.equivalent_join_fileName`), so it does not count as found in an included
document.
-/

namespace RamlCheck

/-! ## Failures to load -/

/-- A path without the name of a file cannot be read as a file. -/
def FileSystem.Nameless (files : FileSystem) : Prop :=
  ∀ path, Path.fileName? path = none → ∃ failure, files path = .error failure

theorem Path.join_empty (path : String) : Path.join "" path = path := by
  unfold Path.join
  split
  · rfl
  · rw [if_pos (.inl rfl), String.empty_append]

variable {files : FileSystem}

/-- What the source of an input holds: the directory is that of the input; the name is the
name of the file, or that of standard input; and the text is what the file holds, or what
standard input does. -/
structure Input.Opened (files : FileSystem) (content : String) (input : Input)
    (name directory text : String) : Prop where
  directory : directory = input.directory
  ofFile : input.origin = .file → files input.path = .ok text ∧
    name = (Path.fileName? input.path).getD input.path
  ofStandard : input.origin = .standardInput → name = input.name ∧ text = content

theorem Input.opened_of_open? {content name directory text : String} {input : Input}
    (hopen : (input.sourceWith content).open? files = .ok (name, directory, text)) :
    input.Opened files content name directory text := by
  cases horigin : input.origin with
  | file =>
      simp only [Input.sourceWith, horigin, Source.open?] at hopen
      split at hopen
      · simp at hopen
      · next read hread =>
        obtain ⟨rfl, hrest⟩ := Prod.mk.inj (Except.ok.inj hopen)
        obtain ⟨rfl, rfl⟩ := Prod.mk.inj hrest
        refine ⟨?_, fun _ => ⟨hread, rfl⟩, fun hstandard => ?_⟩
        · simp only [Input.directory, horigin]
        · rw [horigin] at hstandard
          contradiction
  | standardInput =>
      simp only [Input.sourceWith, horigin, Source.open?] at hopen
      obtain ⟨rfl, hrest⟩ := Prod.mk.inj (Except.ok.inj hopen)
      obtain ⟨rfl, rfl⟩ := Prod.mk.inj hrest
      refine ⟨?_, fun hfile => ?_, fun _ => ⟨rfl, rfl⟩⟩
      · simp only [Input.directory, horigin]
      · rw [horigin] at hfile
        contradiction

/-- An input is named if it is standard input or a path that ends in the name of a file. -/
def Input.IsNamed (input : Input) : Prop :=
  input.origin = .file → Path.fileName? input.path ≠ none

/-- The name of a document, looked up from the directory of its input, is the input. -/
theorem Input.Opened.equivalent {content name directory text : String} {input : Input}
    (hopened : input.Opened files content name directory text) (hnamed : input.IsNamed) :
    Path.equivalent (Path.join input.directory name) input.path = true := by
  cases horigin : input.origin with
  | file =>
      have hdirectory : input.directory = Path.directory input.path := by
        simp only [Input.directory, horigin]
      obtain ⟨file, hfile⟩ := Option.ne_none_iff_exists'.mp (hnamed horigin)
      have hname := (hopened.ofFile horigin).2
      rw [hfile, Option.getD_some] at hname
      rw [hdirectory, hname]
      exact Path.equivalent_join_fileName hfile
  | standardInput =>
      have hdirectory : input.directory = "" := by simp only [Input.directory, horigin]
      rw [hdirectory, Path.join_empty, (hopened.ofStandard horigin).1]
      exact Path.equivalent_self input.name

/-- An input that can be opened is named, if a path without a name cannot be read. -/
theorem Input.Opened.isNamed (hnameless : files.Nameless) {content name directory text : String}
    {input : Input} (hopened : input.Opened files content name directory text) :
    input.IsNamed := by
  intro horigin hnone
  obtain ⟨failure, hfailure⟩ := hnameless input.path hnone
  rw [(hopened.ofFile horigin).1] at hfailure
  contradiction

/-- No policy leaves out an error that is in the document itself. -/
theorem survivors_failureAt (policy : Policy) {input : Input} {name : String}
    (hname : Path.equivalent (Path.join input.directory name) input.path = true)
    (line column : Nat) (message : String) :
    policy.survivors input (.error (EntryError.failureAt name line column message)) ≠ [] := by
  have hkeeps : policy.keeps
      (Finding.toIssue input { path := name, line, column, message, isWarning := false }) =
        true := by
    simp [Policy.keeps, Finding.toIssue, Issue.located, Issue.isWarning, Finding.severity, hname]
  simp [Policy.survivors, EntryError.failureAt, Policy.apply, hkeeps]

/-- A failure to load is never left out. -/
theorem survivors_of_load (hnameless : files.Nameless) (policy : Policy) {content : String}
    {input : Input} {failure : Failure}
    (hload : (input.sourceWith content).load files = .error failure) :
    policy.survivors input (.error failure) ≠ [] := by
  have hgeneric : ∀ message, policy.survivors input (.error (.generic message)) ≠ [] := by
    intro message
    simp [Policy.survivors, Policy.apply]
  rcases Source.load_error_cases hload with ⟨message, rfl⟩ | ⟨name, _, _, error, hopen, rfl⟩
  · exact hgeneric message
  · have hopened := Input.opened_of_open? hopen
    have hname := hopened.equivalent (hopened.isNamed hnameless)
    rcases error.failure_cases name with ⟨message, herror⟩ | ⟨line, column, message, herror⟩
    · rw [herror]
      exact hgeneric message
    · rw [herror]
      exact survivors_failureAt policy hname line column message

/-! ## Payloads -/

/-- A payload of an input: that of the document in it, which is an object. -/
structure IsPayload (files : FileSystem) (content : String) (input : Input) (payload : Json) :
    Prop where
  document : ∃ document, (input.sourceWith content).load files = .ok document ∧
    payload = document.payload files
  object : ∃ members, payload = .object members

theorem isPayload_of_load {content : String} {input : Input} {document : Document}
    (hload : (input.sourceWith content).load files = .ok document) :
    IsPayload files content input (document.payload files) := by
  obtain ⟨name, directory, text, -, hdocument⟩ := Source.exists_of_load hload
  obtain ⟨entries, hvalue⟩ := Document.value_of_load hdocument
  refine ⟨⟨document, hload, rfl⟩, ?_⟩
  rw [Document.payload, hvalue]
  exact ⟨_, rfl⟩

/-- A verdict on a document that has been loaded carries its payload. -/
theorem payload_verdict (policy : Policy) (input : Input) (registry : Registry)
    (document : Document)
    (hvalid : (Outcome.evaluate policy input (document.verdict registry files)).isValid = true) :
    (Outcome.evaluate policy input (document.verdict registry files)).payload =
      some (document.payload files) := by
  unfold Document.verdict at hvalid ⊢
  cases hfindings : document.sortedFindings registry files with
  | nil => rfl
  | cons finding rest =>
      rw [hfindings] at hvalid
      simp only [Outcome.evaluate] at hvalid ⊢
      rw [Outcome.isValid_ofIssues] at hvalid
      rw [Outcome.ofIssues, if_pos hvalid]
      rfl

/-- A valid input has a payload, whatever was left out to make it valid. -/
theorem exists_payload_of_isValid (hnameless : files.Nameless) (registry : Registry)
    (settings : Settings) {content : String} {input : Input}
    (hvalid : (Run.outcomeWith settings (validator registry files) content input).isValid = true) :
    ∃ payload, (Run.outcomeWith settings (validator registry files) content input).payload =
      some payload ∧ IsPayload files content input payload := by
  unfold Run.outcomeWith validator at hvalid ⊢
  cases hload : (input.sourceWith content).load files with
  | error failure =>
      rw [hload] at hvalid
      simp only [Outcome.isValid_evaluate, List.isEmpty_iff] at hvalid
      exact absurd hvalid (survivors_of_load hnameless settings.policy hload)
  | ok document =>
      rw [hload] at hvalid
      exact ⟨_, payload_verdict settings.policy input registry document hvalid,
        isPayload_of_load hload⟩

end RamlCheck
