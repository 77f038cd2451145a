import RamlCheck.Proofs.Text.LineFeed
import RamlCheck.Yaml.Document

/-!
# What the message of a YAML error quotes

The message of an error shows the way to the value that is complained about, and on this
way each key as it is.  Everything else in it stays on one line: fixed words, numbers and
texts in quotes.  So the line feeds of a message are those of keys on the way
(`Error.feedsFrom_summary`).
-/

namespace RamlCheck.Yaml

open Text (OneLine FeedsFrom oneLine_append oneLine_ofList oneLine_nat oneLine_int oneLine_quoted)

/-- The keys on the way to a value. -/
def keysOf (path : List Segment) : List String :=
  path.filterMap fun segment =>
    match segment with
    | .key text => some text
    | _ => none

/-- The keys on the way to what is wrong. -/
def Error.keys : Error → List String
  | .complaint _ path _ => keysOf path
  | _ => []

theorem Problem.oneLine_message (problem : Problem) : OneLine problem.message := by
  cases problem <;> exact .of_chars (by decide)

theorem Activity.oneLine_message (activity : Activity) : OneLine activity.message := by
  cases activity <;> exact .of_chars (by decide)

theorem Mark.oneLine_suffix (mark : Mark) : OneLine mark.suffix := by
  unfold Mark.suffix
  split
  · simp only [oneLine_append, oneLine_nat, and_true]
    exact ⟨.of_chars (by decide), .of_chars (by decide)⟩
  · exact .of_chars (by decide)

theorem Fault.oneLine_message (fault : Fault) : OneLine fault.message := by
  unfold Fault.message
  simp only [oneLine_append]
  refine ⟨⟨fault.problem.oneLine_message, ?_⟩, ?_⟩
  · split
    · exact fault.mark.oneLine_suffix
    · split
      · rw [oneLine_append]
        exact ⟨.of_chars (by decide), oneLine_nat _⟩
      · exact .of_chars (by decide)
  · split
    · exact .of_chars (by decide)
    · next activity _ =>
      rw [oneLine_append]
      exact ⟨.of_chars (by decide), activity.oneLine_message⟩

theorem Number.oneLine_text (number : Number) : OneLine number.text := by
  cases number with
  | integer value => exact oneLine_int value
  | float value =>
      refine Text.oneLine_render ?_ ?_ ?_ value
      all_goals exact .of_chars (by decide)

theorem oneLine_keyInWords (key : Value) : OneLine (keyInWords key) := by
  have hcollection : OneLine "in YAML map" := .of_chars (by decide)
  cases key with
  | null => exact .of_chars (by decide)
  | bool value =>
      rw [keyInWords, oneLine_append, oneLine_append]
      refine ⟨⟨.of_chars (by decide), ?_⟩, .of_chars (by decide)⟩
      split <;> exact .of_chars (by decide)
  | number value =>
      rw [keyInWords, oneLine_append]
      exact ⟨.of_chars (by decide), value.oneLine_text⟩
  | string text =>
      rw [keyInWords, oneLine_append]
      exact ⟨.of_chars (by decide), oneLine_quoted text⟩
  | sequence items => exact hcollection
  | mapping entries => exact hcollection
  | tagged tag value => exact hcollection

theorem feedsFrom_pathText (path : List Segment) : FeedsFrom (· ∈ keysOf path) (pathText path) := by
  induction path with
  | nil => exact .of_chars (by decide)
  | cons segment outer ih =>
      have hfront : FeedsFrom (· ∈ keysOf outer)
          (if outer.isEmpty then "" else pathText outer ++ ".") := by
        split
        · exact .of_chars (by decide)
        · exact ih.append (.of_chars (by decide))
      cases segment with
      | index position =>
          refine ((ih.append (.of_oneLine ?_)).append (.of_oneLine ?_)).append (.of_oneLine ?_)
          · exact .of_chars (by decide)
          · exact oneLine_nat position
          · exact .of_chars (by decide)
      | key text =>
          refine .append (hfront.mono fun other => List.mem_cons_of_mem _) (.of_quoted ?_)
          exact List.mem_cons_self
      | unknown => exact hfront.append (.of_chars (by decide))

/-- Whether the words of an error are fixed where a tag asks for something. -/
def Error.IsFixed : Error → Prop
  | .complaint (.notOfTag _ expected) _ _ => OneLine expected
  | _ => True

theorem Complaint.oneLine_message {what : Complaint} {path : List Segment} {mark : Mark}
    (hfixed : (Error.complaint what path mark).IsFixed) : OneLine what.message := by
  unfold message
  cases what with
  | duplicateKey key =>
      rw [oneLine_append]
      exact ⟨.of_chars (by decide), oneLine_keyInWords key⟩
  | notOfTag text expected =>
      simp only [oneLine_append, oneLine_quoted]
      exact ⟨⟨⟨.of_chars (by decide), trivial⟩, .of_chars (by decide)⟩, hfixed⟩
  | tooWide value =>
      simp only [oneLine_append, oneLine_int]
      refine ⟨⟨⟨⟨.of_chars (by decide), trivial⟩, .of_chars (by decide)⟩, ?_⟩,
        .of_chars (by decide)⟩
      split <;> exact .of_chars (by decide)

theorem Error.withoutPlace_subset (message : List Char) : withoutPlace message ⊆ message := by
  induction message with
  | nil => exact List.Subset.refl _
  | cons char rest ih =>
      rw [withoutPlace]
      split
      · exact List.nil_subset _
      · exact List.cons_subset_cons char ih

theorem Error.feedsFrom_message {error : Error} (hfixed : error.IsFixed) :
    FeedsFrom (· ∈ error.keys) error.message := by
  unfold message
  cases error with
  | syntaxFault fault => exact .of_oneLine fault.oneLine_message
  | unknownAnchor mark =>
      exact .append (.of_chars (by decide)) (.of_oneLine mark.oneLine_suffix)
  | complaint what path mark =>
      refine .append (.append ?_ (.of_oneLine (Complaint.oneLine_message hfixed)))
        (.of_oneLine mark.oneLine_suffix)
      split
      · exact .of_chars (by decide)
      · exact (feedsFrom_pathText path).append (.of_chars (by decide))
  | tooDeep mark =>
      exact .append (.of_chars (by decide)) (.of_oneLine mark.oneLine_suffix)
  | tooManyAliases => exact .of_chars (by decide)
  | endOfDocument => exact .of_chars (by decide)
  | severalDocuments => exact .of_chars (by decide)

/-- The line feeds in the message of an error are those of keys on the way. -/
theorem Error.feedsFrom_summary {error : Error} (hfixed : error.IsFixed) :
    FeedsFrom (· ∈ error.keys) error.summary := by
  refine .of_subset ?_ (feedsFrom_message hfixed)
  rw [summary, String.toList_ofList]
  exact withoutPlace_subset _

end RamlCheck.Yaml
