import RamlCheck.Outline.Basic
import RamlCheck.Proofs.Outline.TokenFault
import RamlCheck.Proofs.Text.LineFeed

/-!
# What the message of an outline's fault quotes

Why a text has no outline is told in fixed words, but for one problem that shows a
character.  It is never a line feed, so the message of a fault stays on one line
(`oneLine_of_read`).

## Strategy

The fault of the tokens shows where they break off, so the triples of the steps from one
event to the next ask that this fault stays on one line.  What an outline cannot hold of
the events is refused in fixed words.
-/

namespace RamlCheck.Outline

open Std.Do
open Text (OneLine oneLine_append oneLine_nat)
open Yaml (Mark Token TokenKind)

set_option mvcgen.warning false

/-! ## Events -/

namespace Parse

/-- Whether a step fails only with words that stay on one line, given that the fault of the
tokens does. -/
abbrev FailsOnOneLine {Value : Type} (step : Parse Value) : Prop :=
  ⦃fun state => ⌜∀ fault ∈ state.fault, fault.OnOneLine⌝⦄ step
  ⦃post⟨fun _ state => ⌜∀ fault ∈ state.fault, fault.OnOneLine⌝, fun fault => ⌜fault.OnOneLine⌝⟩⦄

@[spec]
theorem failsOnOneLine_peek : FailsOnOneLine peek := by
  mvcgen [peek]
  next hfaults _ fault hfault => exact hfaults fault hfault

@[spec]
theorem failsOnOneLine_skip : FailsOnOneLine skip := by
  mvcgen [skip]

@[spec]
theorem failsOnOneLine_expect (expected : Expected) : FailsOnOneLine (expect expected) := by
  mvcgen [expect]

@[spec]
theorem failsOnOneLine_push (expected : Expected) : FailsOnOneLine (push expected) := by
  mvcgen [push]

@[spec]
theorem failsOnOneLine_pop : FailsOnOneLine pop := by
  mvcgen [pop]
  next state hfaults after =>
    cases houter : state.outer with
    | nil => simpa only [after, houter] using hfaults
    | cons expected outer => simpa only [after, houter] using hfaults

@[spec]
theorem failsOnOneLine_fail {Value : Type} (problem : Problem) (mark : Mark) :
    ⦃⌜problem ≠ .strayCharacter '\n'⌝⦄ (fail problem mark : Parse Value)
    ⦃post⟨fun _ state => ⌜∀ fault ∈ state.fault, fault.OnOneLine⌝,
      fun fault => ⌜fault.OnOneLine⌝⟩⦄ := by
  mvcgen [fail]

@[spec]
theorem failsOnOneLine_anchorNext : FailsOnOneLine anchorNext := by
  mvcgen [anchorNext]

@[spec]
theorem failsOnOneLine_tagNext (start : Mark) : FailsOnOneLine (tagNext start) := by
  mvcgen [tagNext]
  all_goals decide

@[spec]
theorem failsOnOneLine_properties : FailsOnOneLine properties := by
  mvcgen [properties]

@[spec]
theorem failsOnOneLine_content (found : Properties) (block indentless : Bool) :
    FailsOnOneLine (content found block indentless) := by
  mvcgen [content]
  all_goals decide

@[spec]
theorem failsOnOneLine_node (block indentless : Bool) : FailsOnOneLine (node block indentless) := by
  mvcgen [node]
  all_goals decide

@[spec]
theorem failsOnOneLine_nodeUnless (absent : TokenKind → Bool) (block indentless : Bool)
    (after : Expected) (mark : Option Mark) :
    FailsOnOneLine (nodeUnless absent block indentless after mark) := by
  mvcgen [nodeUnless]

@[spec]
theorem failsOnOneLine_directives (remaining : Nat) (seen : Bool) :
    FailsOnOneLine (directives remaining seen) := by
  induction remaining generalizing seen with
  | zero => mvcgen [directives]
  | succ remaining ih =>
      mvcgen [directives, ih]
      all_goals decide

@[spec]
theorem failsOnOneLine_skipDocumentEnds (remaining : Nat) :
    FailsOnOneLine (skipDocumentEnds remaining) := by
  induction remaining with
  | zero => mvcgen [skipDocumentEnds]
  | succ remaining ih =>
      mvcgen [skipDocumentEnds, ih]

@[spec]
theorem failsOnOneLine_documentStart : FailsOnOneLine documentStart := by
  mvcgen [documentStart]
  all_goals decide

@[spec]
theorem failsOnOneLine_documentContent : FailsOnOneLine documentContent := by
  mvcgen [documentContent]

@[spec]
theorem failsOnOneLine_documentEnd : FailsOnOneLine documentEnd := by
  mvcgen [documentEnd]
  all_goals decide

@[spec]
theorem failsOnOneLine_close (kind : EventKind) (mark : Mark) (takes : Bool) :
    FailsOnOneLine (close kind mark takes) := by
  mvcgen [close]

@[spec]
theorem failsOnOneLine_blockEntry (first : Bool) : FailsOnOneLine (blockEntry first) := by
  mvcgen [blockEntry]
  all_goals decide

@[spec]
theorem failsOnOneLine_indentlessEntry : FailsOnOneLine indentlessEntry := by
  mvcgen [indentlessEntry]

@[spec]
theorem failsOnOneLine_blockKey (first : Bool) : FailsOnOneLine (blockKey first) := by
  mvcgen [blockKey]
  all_goals decide

@[spec]
theorem failsOnOneLine_blockValue : FailsOnOneLine blockValue := by
  mvcgen [blockValue]

@[spec]
theorem failsOnOneLine_flowEntry (first : Bool) : FailsOnOneLine (flowEntry first) := by
  mvcgen [flowEntry, separator]
  all_goals decide

@[spec]
theorem failsOnOneLine_flowPairKey : FailsOnOneLine flowPairKey := by
  mvcgen [flowPairKey]

@[spec]
theorem failsOnOneLine_flowPairValue : FailsOnOneLine flowPairValue := by
  mvcgen [flowPairValue]

@[spec]
theorem failsOnOneLine_flowPairEnd : FailsOnOneLine flowPairEnd := by
  mvcgen [flowPairEnd]

@[spec]
theorem failsOnOneLine_flowKey (first : Bool) : FailsOnOneLine (flowKey first) := by
  mvcgen [flowKey, separator]
  all_goals decide

@[spec]
theorem failsOnOneLine_flowValue (absent : Bool) : FailsOnOneLine (flowValue absent) := by
  mvcgen [flowValue]

@[spec]
theorem failsOnOneLine_next : FailsOnOneLine next := by
  mvcgen [next]

end Parse

theorem onOneLine_parsing (remaining : Nat) {state : Parsing}
    (hstate : ∀ fault ∈ state.fault, fault.OnOneLine) :
    ∀ fault ∈ (state.run remaining).fault, fault.OnOneLine := by
  induction remaining generalizing state with
  | zero => simp [Parsing.run]
  | succ remaining ih =>
      unfold Parsing.run
      split
      · next fault hrun =>
        intro other hother
        rw [← Option.some.inj hother]
        exact Reader.error_of_triple Parse.failsOnOneLine_next hstate hrun
      · next event next hrun =>
        split
        · simp
        · exact ih (Reader.ok_of_triple Parse.failsOnOneLine_next hstate hrun)

/-! ## Outlines -/

theorem onOneLine_of_refuse {problem : Problem} (hproblem : problem ≠ .strayCharacter '\n')
    {event : Event} {Value : Type} {fault : Fault}
    (hrefused : (refuse problem event : Except Fault Value) = .error fault) : fault.OnOneLine := by
  rw [← Except.error.inj hrefused]
  exact hproblem

theorem onOneLine_of_placeScalar {event : Event} {text : List Char} {frames : List Frame}
    {fault : Fault} (hplace : placeScalar event text frames = .error fault) : fault.OnOneLine := by
  unfold placeScalar at hplace
  simp only at hplace
  split at hplace
  · exact onOneLine_of_refuse (by decide) hplace
  · contradiction
  · contradiction

theorem onOneLine_of_openFrame {event : Event} {frame : Frame} {frames : List Frame}
    {fault : Fault} (hopen : openFrame event frame frames = .error fault) : fault.OnOneLine := by
  unfold openFrame at hopen
  split at hopen
  · exact onOneLine_of_refuse (by decide) hopen
  · exact onOneLine_of_refuse (by decide) hopen
  · contradiction

theorem onOneLine_of_take {event : Event} {frames : List Frame} {fault : Fault}
    (htake : take event frames = .error fault) : fault.OnOneLine := by
  unfold take at htake
  split at htake
  · split at htake
    · exact onOneLine_of_refuse (by decide) htake
    · split at htake
      · exact onOneLine_of_refuse (by decide) htake
      · exact onOneLine_of_placeScalar htake
  · split at htake
    · exact onOneLine_of_refuse (by decide) htake
    · split at htake
      · exact onOneLine_of_refuse (by decide) htake
      · exact onOneLine_of_openFrame htake
  · split at htake
    · exact onOneLine_of_refuse (by decide) htake
    · split at htake
      · exact onOneLine_of_refuse (by decide) htake
      · exact onOneLine_of_openFrame htake
  · -- nothing else is refused: it ends a collection, or it is passed over
    contradiction
  · contradiction
  · contradiction

theorem onOneLine_of_build {building : Building} {events : List Event} {fault : Fault}
    (hbuild : build building events = .error fault) : fault.OnOneLine := by
  induction events generalizing building with
  | nil => cases building <;> contradiction
  | cons event rest ih =>
      cases building with
      | finished outline => contradiction
      | inside frames =>
          unfold build at hbuild
          split at hbuild
          · next other htake =>
            rw [← Except.error.inj hbuild]
            exact onOneLine_of_take htake
          · exact ih hbuild

theorem onOneLine_of_read {text : String} {fault : Fault} (hread : read text = .error fault) :
    fault.OnOneLine := by
  unfold read at hread
  simp only at hread
  split at hread
  · next other hfault =>
    rw [← Except.error.inj hread]
    refine onOneLine_parsing _ ?_ other hfault
    exact onOneLine_run _
  · exact onOneLine_of_build hread

theorem Problem.oneLine_message {problem : Problem} (hproblem : problem ≠ .strayCharacter '\n') :
    OneLine problem.message := by
  cases problem with
  | strayCharacter char =>
      have hchar : char ≠ '\n' := fun hfeed => hproblem (congrArg Problem.strayCharacter hfeed)
      unfold message
      simp only [oneLine_append]
      refine ⟨⟨.of_chars (by decide), ?_⟩, .of_chars (by decide)⟩
      simpa [OneLine] using Ne.symm hchar
  | _ => exact .of_chars (by decide)

/-- The message of a fault stays on one line. -/
theorem oneLine_of_read {text : String} {fault : Fault} (hread : read text = .error fault) :
    OneLine fault.message := by
  unfold Fault.message
  simp only [oneLine_append, oneLine_nat]
  exact ⟨⟨⟨⟨trivial, .of_chars (by decide)⟩, trivial⟩, .of_chars (by decide)⟩,
    Problem.oneLine_message (onOneLine_of_read hread)⟩

end RamlCheck.Outline
