import Mathlib

/-!
# Steps of readers

A reader takes steps that change a state or end with an error.  The triple of a step says
what it leaves and what its errors are like; `ok_of_triple` and `error_of_triple` read both
off a run of the step, and `triple_of_run` is the way back.

Where only steps that end well count, and each from a single state, `Leads` says where they
lead; it has one rule for each way of putting steps together.
-/

namespace RamlCheck.Reader

open Std.Do

variable {State Error Result : Type}

/-- A throw ends a step with its error. -/
@[spec 2000]
theorem spec_throw (error : Error)
    {post : PostCond Result (.arg State (.except Error .pure))} :
    ⦃fun _ => post.2.1 error⦄ (throw error : StateT State (Except Error) Result) ⦃post⦄ :=
  fun _ hpost => hpost

variable {step : StateT State (Except Error) Result} {before : State → Prop}
  {after : Result → State → Prop} {fails : Error → Prop}

/-- A step has a triple if each of its runs ends as the triple says. -/
theorem triple_of_run
    (hrun : ∀ state, before state →
      match step.run state with
      | .ok (result, next) => after result next
      | .error error => fails error) :
    ⦃fun state => ⌜before state⌝⦄ step
    ⦃post⟨fun result state => ⌜after result state⌝, fun error => ⌜fails error⌝⟩⦄ := by
  intro state hbefore
  show (wp⟦step.run state⟧ post⟨fun reached => ⌜after reached.1 reached.2⌝,
    fun error => ⌜fails error⌝⟩).down
  have hend := hrun state hbefore
  cases hstep : step.run state with
  | ok reached => rw [hstep] at hend; exact hend
  | error error => rw [hstep] at hend; exact hend

theorem error_of_triple
    (htriple : ⦃fun state => ⌜before state⌝⦄ step
      ⦃post⟨fun result state => ⌜after result state⌝, fun error => ⌜fails error⌝⟩⦄)
    {state : State} (hbefore : before state) {error : Error}
    (hrun : step.run state = .error error) : fails error := by
  have hend : (wp⟦step.run state⟧ post⟨fun reached => ⌜after reached.1 reached.2⌝,
      fun error => ⌜fails error⌝⟩).down := htriple state hbefore
  rw [hrun] at hend
  exact hend

theorem ok_of_triple
    (htriple : ⦃fun state => ⌜before state⌝⦄ step
      ⦃post⟨fun result state => ⌜after result state⌝, fun error => ⌜fails error⌝⟩⦄)
    {state next : State} (hbefore : before state) {result : Result}
    (hrun : step.run state = .ok (result, next)) : after result next := by
  have hend : (wp⟦step.run state⟧ post⟨fun reached => ⌜after reached.1 reached.2⌝,
      fun error => ⌜fails error⌝⟩).down := htriple state hbefore
  rw [hrun] at hend
  exact hend

/-! ## Where a step leads -/

/-- Whether a step that ends well leads from some state to such results and states. -/
def Leads (step : StateT State (Except Error) Result) (state : State)
    (post : Result → State → Prop) : Prop :=
  ∀ result next, step.run state = .ok (result, next) → post result next

namespace Leads

variable {Other : Type} {state : State} {post : Result → State → Prop}

theorem pure {result : Result} (hpost : post result state) :
    Leads (Pure.pure result : StateT State (Except Error) Result) state post := by
  intro _ _ hrun
  cases hrun
  exact hpost

theorem throw (error : Error) :
    Leads (MonadExcept.throw error : StateT State (Except Error) Result) state post := by
  intro _ _ hrun
  cases hrun

theorem get {post : State → State → Prop} (hpost : post state state) :
    Leads (MonadState.get : StateT State (Except Error) State) state post := by
  intro _ _ hrun
  cases hrun
  exact hpost

theorem modify {post : Unit → State → Prop} {change : State → State}
    (hpost : post () (change state)) :
    Leads (modify change : StateT State (Except Error) Unit) state post := by
  intro _ _ hrun
  cases hrun
  exact hpost

theorem bind {first : StateT State (Except Error) Other}
    {further : Other → StateT State (Except Error) Result}
    (hfirst : Leads first state fun result next => Leads (further result) next post) :
    Leads (first >>= further) state post := by
  intro result next hrun
  rw [StateT.run_bind] at hrun
  cases hrunFirst : first.run state with
  | error error => rw [hrunFirst] at hrun; cases hrun
  | ok reached =>
      rw [hrunFirst] at hrun
      exact hfirst reached.1 reached.2 hrunFirst result next hrun

theorem mono {post' : Result → State → Prop} (hstep : Leads step state post)
    (himp : ∀ result next, post result next → post' result next) : Leads step state post' :=
  fun result next hrun => himp result next (hstep result next hrun)

theorem ite {condition : Prop} [Decidable condition]
    {other : StateT State (Except Error) Result} (hthen : condition → Leads step state post)
    (helse : ¬condition → Leads other state post) :
    Leads (if condition then step else other) state post := by
  split
  · exact hthen ‹_›
  · exact helse ‹_›

end Leads

end RamlCheck.Reader
