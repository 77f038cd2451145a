import RamlCheck.Proofs.Document.Wording
import RamlCheck.Proofs.Issue.Place
import RamlCheck.Proofs.Run.Text

/-!
# Lines of a report

A report that is a text is meant to have a line for each valid input and a line for each
issue.  It has these lines and a further one for each line feed in a message
(`lines_of_run`), so it is as meant exactly if every message stays on one line.  A message
that does not quotes a text with a line feed, such as a key of the document: in YAML an
escape brings any character into a key, and `line_of_key` is a document that makes a report
say that another one is valid.

## Strategy

* **The transcript.**  A run writes the texts of the inputs that it validates, one after
  another.  These are the first of its inputs: all of them, unless standard input cannot be
  read (`steps_reach`, from one step to all of them).
* **The lines.**  A line feed is a byte of its own, so lines are counted text by text
  (`lineFeeds_flatMap_linesWith`), and a text is cut into its lines where each has a single
  line feed at its end (`cutLines_flatMap_linesWith`).
* **The sources.**  What stands in brackets is the name of an input or a place: the path of
  a finding looked up from the directory of the input.  Such a path is the name of the
  document or the target of a reference, and neither has a line feed.
-/

namespace RamlCheck

open Text (OneLine FeedsFrom lineFeeds lineFeeds_append lineFeeds_join lineFeeds_eq_zero_iff
  oneLine_append oneLine_nat)

/-! ## Paths on one line -/

theorem Path.oneLine_join {base path : String} (hbase : OneLine base) (hpath : OneLine path) :
    OneLine (join base path) := by
  unfold join
  split
  · exact hpath
  · split
    · exact oneLine_append.mpr ⟨hbase, hpath⟩
    · exact oneLine_append.mpr ⟨oneLine_append.mpr ⟨hbase, by decide⟩, hpath⟩

theorem Input.oneLine_directory {input : Input} (hname : OneLine input.name) :
    OneLine input.directory := by
  unfold directory
  split
  · exact Text.oneLine_of_subset (Path.directory_subset _) hname
  · decide

theorem Input.oneLine_of_mem_ofRun {arguments : List String} {stdin : StandardInput}
    (hnames : ∀ argument ∈ arguments, OneLine argument) {input : Input}
    (hinput : input ∈ ofRun arguments stdin) : OneLine input.name := by
  have hstandard : OneLine standard.name := by decide
  unfold ofRun at hinput
  rcases List.mem_append.mp hinput with hfront | hnamed
  · split at hfront
    · rw [List.mem_singleton.mp hfront]
      exact hstandard
    · exact absurd hfront List.not_mem_nil
  · obtain ⟨argument, hargument, rfl⟩ := List.mem_map.mp hnamed
    unfold ofArgument
    split
    · exact hstandard
    · exact hnames argument hargument

section

variable {files : FileSystem} {content name directory text : String} {input : Input}

/-- The name of a document is on one line if that of its input is. -/
theorem Input.Opened.oneLine_name (hopened : input.Opened files content name directory text)
    (hname : OneLine input.name) : OneLine name := by
  cases horigin : input.origin with
  | file =>
      rw [(hopened.ofFile horigin).2]
      cases hfile : Path.fileName? input.path with
      | none => exact hname
      | some file => exact Text.oneLine_of_subset (Path.fileName?_subset hfile) hname
  | standardInput =>
      rw [(hopened.ofStandard horigin).1]
      exact hname

theorem Source.exists_open_of_mem_findings {source : Source} {finding : Finding}
    (hfinding : finding ∈ Verdict.findings (validator .builtin files source)) :
    ∃ name directory text, source.open? files = .ok (name, directory, text) := by
  cases hopen : source.open? files with
  | ok opened => exact ⟨opened.1, opened.2.1, opened.2.2, rfl⟩
  | error failure =>
      have hload : source.load files = .error failure := by
        rw [load, hopen]
        rfl
      rcases Source.load_error_cases hload with ⟨message, rfl⟩ | ⟨_, _, _, _, hother, -⟩
      · simp only [validator, hload] at hfinding
        exact absurd hfinding List.not_mem_nil
      · rw [hopen] at hother
        contradiction

/-- What is found is filed under a path on one line. -/
theorem oneLine_path_of_mem_findings (hname : OneLine input.name) {finding : Finding}
    (hfinding : finding ∈
      Verdict.findings (validator .builtin files (input.sourceWith content))) :
    OneLine finding.path := by
  obtain ⟨name, directory, text, hopen⟩ := Source.exists_open_of_mem_findings hfinding
  rcases filed_of_mem_validator hopen hfinding with hpath | ⟨document, hload, -, hrefers, -⟩
  · rw [hpath]
    exact (Input.opened_of_open? hopen).oneLine_name hname
  · obtain ⟨reference, hreference, htarget⟩ := hrefers
    obtain ⟨_, _, _, -, hdocument⟩ := Source.exists_of_load hload
    rw [← htarget]
    exact oneLine_target_of_load hdocument hreference

end

/-! ## Issues that are reported -/

section

variable {files : FileSystem} {content : String} {input : Input} {policy : Policy}

/-- What stands in brackets in front of an issue is on one line. -/
theorem oneLine_sourceOf (hname : OneLine input.name) {issue : Issue}
    (hissue : issue ∈
      Run.issuesWith policy (validator .builtin files) content input) :
    OneLine (Report.sourceOf input issue) := by
  obtain ⟨failure, hverdict, hmem⟩ := Policy.exists_failure_of_mem_survivors hissue
  cases failure with
  | generic message =>
      rw [List.mem_singleton.mp hmem]
      exact hname
  | structured findings payload =>
      obtain ⟨finding, hfinding, rfl⟩ := List.mem_map.mp hmem
      rw [← show Verdict.findings (.error (.structured findings payload)) = findings from rfl,
        ← hverdict] at hfinding
      have hpath := oneLine_path_of_mem_findings hname hfinding
      show OneLine (Location.text _)
      simp only [Location.text, oneLine_append, oneLine_nat, and_true]
      refine ⟨⟨?_, by decide⟩, by decide⟩
      exact Path.oneLine_join (Input.oneLine_directory hname) hpath

/-- A message with a line feed quotes a text with one. -/
theorem feedsFrom_of_issuesWith (hname : OneLine input.name) {issue : Issue}
    (hissue : issue ∈ Run.issuesWith policy (validator .builtin files) content input) :
    FeedsFrom ((input.sourceWith content).Quotes files) issue.message := by
  obtain ⟨failure, hverdict, hmem⟩ := Policy.exists_failure_of_mem_survivors hissue
  have hmessage := List.mem_map_of_mem (f := (·.message)) hmem
  rw [Failure.map_message_issues] at hmessage
  refine feedsFrom_of_validator ?_ hverdict hmessage
  intro path hpath
  cases horigin : input.origin with
  | file =>
      simp only [Input.sourceWith, horigin, Source.path?, Option.mem_some_iff] at hpath
      rw [← hpath]
      exact hname
  | standardInput =>
      simp only [Input.sourceWith, horigin, Source.path?] at hpath
      contradiction

end

namespace Run

/-! ## Validated inputs -/

section

variable (policy : Policy) (usage : String) (validator : Validator) {content : String}

/-- A run validates the first of its inputs, all of them if standard input can be read, and
writes their texts one after another. -/
theorem steps_reach {progress : Progress} (hholds : progress.stdin.Holds content)
    (hfatal : progress.fatal = none) (hplain : Plain progress.reporter) (inputs : List Input) :
    let after := steps (textSettings policy usage) validator progress inputs
    ∃ reached, reached <+: inputs ∧
      (progress.stdin.text.1 = .ok content → reached = inputs) ∧
      after.validated = progress.validated ++ reached.map (·.sourceWith content) ∧
      after.reporter.sink.written = progress.reporter.sink.written ++
        Sink.bytesOf (String.join (reached.map (textWith policy validator content))) := by
  have hnone : Sink.bytesOf (String.join []) = [] := by simp [String.join]
  induction inputs generalizing progress with
  | nil =>
      refine ⟨[], List.nil_prefix, fun _ => rfl, (List.append_nil _).symm, ?_⟩
      rw [List.map_nil, hnone, List.append_nil]
      rfl
  | cons input rest ih =>
      rw [steps, hfatal]
      rcases step_text_cases policy usage validator hholds hplain input with
        ⟨fatal, htext, hended, hvalidated, hreporter⟩ |
        ⟨hgoes, hholds, hkeeps, hplain, hvalidated, hwritten, -⟩
      · -- neither this input nor the rest is validated
        simp only [steps_of_fatal _ _ hended, hvalidated, hreporter]
        refine ⟨[], List.nil_prefix, fun hreadable => ?_, (List.append_nil _).symm, ?_⟩
        · rw [hreadable] at htext
          contradiction
        · rw [List.map_nil, hnone, List.append_nil]
      · -- this input is validated, and then those that the rest of the run reaches
        obtain ⟨reached, hfront, hall, hrestValidated, hrestWritten⟩ := ih hholds hgoes hplain
        refine ⟨input :: reached, List.cons_prefix_cons.mpr ⟨rfl, hfront⟩, fun hreadable => ?_,
          ?_, ?_⟩
        · rw [hall (hkeeps hreadable)]
        · rw [hrestValidated, hvalidated, List.append_assoc, List.map_cons, List.singleton_append]
        · rw [hrestWritten, hwritten, List.append_assoc, ← Sink.bytesOf_append, List.map_cons,
            String.join_cons]

end

/-- The end of a run adds nothing to a text. -/
theorem finish_of_text {progress : Progress} (hmode : progress.reporter.mode = .text) :
    (finish progress).sink = progress.reporter.sink ∧
      (finish progress).validated = progress.validated := by
  unfold finish
  rw [Reporter.flush_text hmode]
  cases progress.fatal with
  | some fatal => exact ⟨rfl, rfl⟩
  | none => exact ⟨rfl, rfl⟩

/-! ## Lines of a text -/

section

variable (policy : Policy) (validator : Validator) (content : String)

/-- The lines of an input when standard input holds some text: one for its verdict if it is
valid, and one for each issue otherwise. -/
def linesWith (input : Input) : List String :=
  if issuesWith policy validator content input = [] then
    [Report.line input.name Report.validText]
  else
    (issuesWith policy validator content input).map fun issue =>
      Report.line (Report.sourceOf input issue) issue.message

/-- The inputs without an issue that is reported. -/
def validInputs (inputs : List Input) : List Input :=
  inputs.filter fun input => issuesWith policy validator content input = []

variable {policy validator content}

theorem join_linesWith (input : Input) :
    String.join (linesWith policy validator content input) =
      textWith policy validator content input := by
  unfold linesWith textWith plainText issuesWith
  cases policy.survivors input (validator (input.sourceWith content)) with
  | nil =>
      have hend : "] " ++ (Report.validText ++ "\n") = "] VALID\n" := by decide
      rw [if_pos rfl, String.join_cons, String.join_nil, String.append_empty, Report.line,
        String.append_assoc, String.append_assoc, hend]
  | cons issue rest =>
      rw [if_neg (List.cons_ne_nil issue rest)]
      rfl

theorem join_flatMap_linesWith (inputs : List Input) :
    String.join (inputs.flatMap (linesWith policy validator content)) =
      String.join (inputs.map (textWith policy validator content)) := by
  induction inputs with
  | nil => rfl
  | cons input rest ih =>
      rw [List.flatMap_cons, String.join_append, ih, join_linesWith, List.map_cons,
        String.join_cons]

theorem lineFeeds_line {source : String} (hsource : OneLine source) (message : String) :
    lineFeeds (Report.line source message) = lineFeeds message + 1 := by
  have hsigns : lineFeeds "[" = 0 ∧ lineFeeds "] " = 0 ∧ lineFeeds "\n" = 1 := by decide
  simp only [Report.line, lineFeeds_append, hsigns, lineFeeds_eq_zero_iff.mpr hsource]
  omega

/-- The lines of an input are one for its verdict or one for each issue, and a further one for
each line feed in a message. -/
theorem lineFeeds_linesWith {input : Input} (hname : OneLine input.name)
    (hsources : ∀ issue ∈ issuesWith policy validator content input,
      OneLine (Report.sourceOf input issue)) :
    ((linesWith policy validator content input).map lineFeeds).sum =
      (if issuesWith policy validator content input = [] then 1 else 0) +
        (issuesWith policy validator content input).length +
        ((issuesWith policy validator content input).map fun issue =>
          lineFeeds issue.message).sum := by
  unfold linesWith
  generalize issuesWith policy validator content input = issues at hsources ⊢
  by_cases hnone : issues = []
  · rw [if_pos hnone, if_pos hnone, hnone, List.map_singleton, lineFeeds_line hname]
    decide
  · rw [if_neg hnone, if_neg hnone, Nat.zero_add, List.map_map]
    -- one line feed ends the line of an issue, the others are those of its message
    calc (issues.map (lineFeeds ∘ fun issue =>
            Report.line (Report.sourceOf input issue) issue.message)).sum
        = (issues.map fun issue => lineFeeds issue.message + 1).sum := by
          congr 1
          exact List.map_congr_left fun issue hissue => lineFeeds_line (hsources issue hissue) _
      _ = issues.length + (issues.map fun issue => lineFeeds issue.message).sum := by
          rw [List.sum_map_add, List.map_const', List.sum_replicate, smul_eq_mul, Nat.mul_one,
            Nat.add_comm]

section

variable {inputs : List Input} (hnames : ∀ input ∈ inputs, OneLine input.name)
  (hsources : ∀ input ∈ inputs, ∀ issue ∈ issuesWith policy validator content input,
    OneLine (Report.sourceOf input issue))

include hnames hsources

theorem lineFeeds_flatMap_linesWith :
    lineFeeds (String.join (inputs.flatMap (linesWith policy validator content))) =
      (validInputs policy validator content inputs).length +
        (inputs.flatMap (issuesWith policy validator content)).length +
        ((inputs.flatMap (issuesWith policy validator content)).map fun issue =>
          lineFeeds issue.message).sum := by
  induction inputs with
  | nil => rfl
  | cons input rest ih =>
      rw [List.forall_mem_cons] at hnames hsources
      have hrest := ih hnames.2 hsources.2
      have hfirst := lineFeeds_linesWith hnames.1 hsources.1
      have hvalid : (validInputs policy validator content (input :: rest)).length =
          (if issuesWith policy validator content input = [] then 1 else 0) +
            (validInputs policy validator content rest).length := by
        unfold validInputs
        by_cases hnone : issuesWith policy validator content input = []
        · rw [List.filter_cons_of_pos (by simpa using hnone), if_pos hnone, List.length_cons,
            Nat.add_comm]
        · rw [List.filter_cons_of_neg (by simpa using hnone), if_neg hnone, Nat.zero_add]
      rw [List.flatMap_cons, String.join_append, lineFeeds_append, hrest, lineFeeds_join, hfirst,
        hvalid, List.flatMap_cons, List.length_append, List.map_append, List.sum_append]
      omega

/-- If every message stays on one line, a line of the text is a line of the report. -/
theorem cutLines_flatMap_linesWith
    (hmessages : ∀ issue ∈ inputs.flatMap (issuesWith policy validator content),
      OneLine issue.message) :
    Text.cutLines (String.join (inputs.flatMap (linesWith policy validator content))).toList =
      (inputs.flatMap (linesWith policy validator content)).map String.toList := by
  have hbody : ∀ {source message}, OneLine source → OneLine message →
      ∃ body, Report.line source message = body ++ "\n" ∧ OneLine body := by
    intro source message hsource hmessage
    refine ⟨_, rfl, ?_⟩
    simp only [oneLine_append]
    exact ⟨⟨⟨by decide, hsource⟩, by decide⟩, hmessage⟩
  apply Text.cutLines_join
  intro line hline
  obtain ⟨input, hinput, hmem⟩ := List.mem_flatMap.mp hline
  unfold linesWith at hmem
  split at hmem
  · rw [List.mem_singleton.mp hmem]
    exact hbody (hnames input hinput) (by decide)
  · obtain ⟨issue, hissue, rfl⟩ := List.mem_map.mp hmem
    exact hbody (hsources input hinput issue hissue)
      (hmessages issue (List.mem_flatMap.mpr ⟨input, hinput, hissue⟩))

end

end

/-! ## The whole run -/

/-- The lines of a report that is a text.  A run validates the first of its inputs, all of
them if standard input can be read, and its report has a line for each valid one, a line
for each issue and a further line for each line feed in a message.  So there is one line for
each valid input and each issue exactly if every message stays on one line, and then a line
of the report is a verdict on a valid input or an issue with its place.  A message that does
not stay on one line quotes a text that does not. -/
theorem lines_of_run (policy : Policy) (files : FileSystem) (usage : String)
    (arguments : List String) (stdin : StandardInput) (content : String)
    (hholds : stdin.Holds content) (hnames : ∀ argument ∈ arguments, OneLine argument)
    (hinputs : Input.ofRun arguments stdin ≠ []) :
    let transcript :=
      run (textSettings policy usage) (validator .builtin files) arguments stdin .boundless
    ∃ reached, reached <+: Input.ofRun arguments stdin ∧
      (stdin.text.1 = .ok content → reached = Input.ofRun arguments stdin) ∧
      transcript.validated = reached.map (·.sourceWith content) ∧
      let valid := validInputs policy (validator .builtin files) content reached
      let issues := reached.flatMap (issuesWith policy (validator .builtin files) content)
      let lines := reached.flatMap (linesWith policy (validator .builtin files) content)
      let written := transcript.sink.written
      written = Sink.bytesOf (String.join lines) ∧
      written.count 10 = valid.length + issues.length +
        (issues.map fun issue => lineFeeds issue.message).sum ∧
      (written.count 10 = valid.length + issues.length ↔
        ∀ issue ∈ issues, OneLine issue.message) ∧
      ((∀ issue ∈ issues, OneLine issue.message) →
        Text.cutLines (String.join lines).toList = lines.map String.toList) ∧
      ∀ input ∈ reached, ∀ issue ∈ issuesWith policy (validator .builtin files) content input,
        FeedsFrom ((input.sourceWith content).Quotes files) issue.message := by
  intro transcript
  have hplain : Plain (atStart (textSettings policy usage) stdin .boundless).reporter :=
    ⟨rfl, rfl, rfl⟩
  obtain ⟨reached, hfront, hall, hvalidated, hwritten⟩ :=
    steps_reach policy usage (validator .builtin files) hholds rfl hplain
      (Input.ofRun arguments stdin)
  have hrun : transcript = finish _ := run_eq_finish _ _ _ _ _ hinputs
  obtain ⟨hsink, hsources⟩ := finish_of_text (mode_steps (textSettings policy usage)
    (validator .builtin files) (atStart (textSettings policy usage) stdin .boundless)
    (Input.ofRun arguments stdin))
  refine ⟨reached, hfront, hall, ?_, ?_⟩
  · rw [hrun, hsources, hvalidated]
    rfl
  · intro valid issues lines written
    have hreached : ∀ input ∈ reached, OneLine input.name := fun input hinput =>
      Input.oneLine_of_mem_ofRun hnames (hfront.subset hinput)
    -- names and places stay on one line, so only the messages can add lines
    have hbrackets : ∀ input ∈ reached,
        ∀ issue ∈ issuesWith policy (validator .builtin files) content input,
          OneLine (Report.sourceOf input issue) := fun input hinput issue hissue =>
      oneLine_sourceOf (hreached input hinput) hissue
    have htext : written = Sink.bytesOf (String.join lines) := by
      rw [join_flatMap_linesWith]
      show transcript.sink.written = _
      rw [hrun, hsink, hwritten]
      rfl
    have hcount : written.count 10 = valid.length + issues.length +
        (issues.map fun issue => lineFeeds issue.message).sum := by
      rw [htext, Sink.count_bytesOf]
      exact lineFeeds_flatMap_linesWith hreached hbrackets
    have hzero : (issues.map fun issue => lineFeeds issue.message).sum = 0 ↔
        ∀ issue ∈ issues, OneLine issue.message := by
      simp only [List.sum_eq_zero_iff, List.forall_mem_map, lineFeeds_eq_zero_iff]
    refine ⟨htext, hcount, ?_, cutLines_flatMap_linesWith hreached hbrackets,
      fun input hinput issue hissue => feedsFrom_of_issuesWith (hreached input hinput) hissue⟩
    rw [← hzero, hcount]
    omega

/-- A valid document and one with an unknown property make a line each. -/
theorem lines_of_run_of_pair :
    let files := FileSystem.ofList [("a.raml", .ok "#%RAML 1.0\ntitle: x\n"),
      ("b.raml", .ok "#%RAML 1.0\ntitle: x\nother: 1\n")]
    StandardInput.unread.Holds "" ∧ (∀ argument ∈ ["a.raml", "b.raml"], OneLine argument) ∧
      Input.ofRun ["a.raml", "b.raml"] .unread ≠ [] ∧
      (run (textSettings .everything "") (validator .builtin files) ["a.raml", "b.raml"]
        .unread .boundless).sink.written.count 10 = 2 := by
  intro files
  have hread : StandardInput.unread.text.1 = .ok "" := by decide
  have hholds : StandardInput.unread.Holds "" := StandardInput.holds_of_text hread
  have hnames : ∀ argument ∈ ["a.raml", "b.raml"], OneLine argument := by decide
  have hinputs : Input.ofRun ["a.raml", "b.raml"] .unread ≠ [] := by decide
  obtain ⟨reached, -, hall, -, -, hcount, -⟩ :=
    lines_of_run .everything files "" ["a.raml", "b.raml"] .unread "" hholds hnames hinputs
  refine ⟨hholds, hnames, hinputs, ?_⟩
  rw [hcount, hall hread]
  decide +kernel

/-- A key with line feeds in it.  The document has one issue and its report has three lines,
one of which says that another document is valid. -/
theorem line_of_key :
    let files := FileSystem.ofList
      [("a.raml", .ok "#%RAML 1.0\ntitle: x\n\"a\\n[b.raml] VALID\\nc\": 1\n")]
    let inputs := Input.ofRun ["a.raml"] .unread
    let valid := validInputs .everything (validator .builtin files) "" inputs
    let issues := inputs.flatMap (issuesWith .everything (validator .builtin files) "")
    let written := (run (textSettings .everything "") (validator .builtin files) ["a.raml"]
      .unread .boundless).sink.written
    written.count 10 ≠ valid.length + issues.length ∧
      valid.length = 0 ∧ issues.length = 1 ∧ written.count 10 = 3 ∧
      written = Sink.bytesOf
        "[a.raml:3:1] Unknown property 'a\n[b.raml] VALID\nc' at the document root\n" := by
  decide +kernel

end Run

end RamlCheck
