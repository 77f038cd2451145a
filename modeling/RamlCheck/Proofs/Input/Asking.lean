import Mathlib.Data.List.Basic
import RamlCheck.Input.Standard

/-!
# Asking standard input again and again

Whether standard input counts as an input and what its text is may be asked any number of
times and in any order.  What is told of the text depends only on how often it was asked for
(`texts_of_requests`).  A text that is known, or that the bytes are, is told each time.  Bytes
that are no text are refused once: they are gone then, so that from the second time on the
text is told to be empty (`text_behind_refusal`).

## Strategy

Asking whether standard input counts changes nothing, so that only the requests for the text
are followed (`texts_cons`).  A text that is told is known from then on (`texts_of_content`),
and the first request makes it known unless it fails.
-/

namespace RamlCheck.StandardInput

/-- What is asked of standard input. -/
inductive Request
  | availability (arguments : List String)
  | text
  deriving DecidableEq, Repr

/-- What is told about standard input. -/
inductive Reply
  | availability (counts : Bool)
  | text (told : Except Fatal String)

/-- The answer to a request, and standard input afterwards. -/
def answer (stdin : StandardInput) : Request → Reply × StandardInput
  | .availability arguments => (.availability (stdin.isAvailable arguments), stdin)
  | .text => (.text stdin.text.1, stdin.text.2)

/-- The answers to some requests, one after another. -/
def replies (stdin : StandardInput) : List Request → List Reply
  | [] => []
  | request :: rest =>
      let (reply, after) := stdin.answer request
      reply :: after.replies rest

/-- What an answer tells of the text. -/
def Reply.text? : Reply → Option (Except Fatal String)
  | .availability _ => none
  | .text told => some told

/-- What is told of the text in answer to some requests. -/
def texts (stdin : StandardInput) (requests : List Request) : List (Except Fatal String) :=
  (stdin.replies requests).filterMap Reply.text?

variable {stdin : StandardInput} {content : String} {requests : List Request}

@[simp] theorem texts_nil (stdin : StandardInput) : stdin.texts [] = [] := rfl

@[simp] theorem texts_availability (arguments : List String) :
    stdin.texts (.availability arguments :: requests) = stdin.texts requests := rfl

@[simp] theorem texts_text :
    stdin.texts (.text :: requests) = stdin.text.1 :: stdin.text.2.texts requests := rfl

/-- Only the number of requests for the text matters. -/
theorem texts_eq_replicate (stdin : StandardInput) (requests : List Request) :
    stdin.texts requests = stdin.texts (List.replicate (requests.count .text) .text) := by
  induction requests generalizing stdin with
  | nil => rfl
  | cons request rest ih =>
      cases request with
      | availability arguments =>
          rw [texts_availability, ih, List.count_cons_of_ne (by simp)]
      | text =>
          rw [List.count_cons_self, List.replicate_succ, texts_text, texts_text, ih]

/-- A text that is known is told each time. -/
theorem texts_of_content (hcontent : stdin.content = some content) (requests : List Request) :
    stdin.texts requests = List.replicate (requests.count .text) (.ok content) := by
  rw [texts_eq_replicate]
  induction requests.count .text with
  | zero => rfl
  | succ count ih =>
      rw [List.replicate_succ, texts_text, text_of_content hcontent, ih, List.replicate_succ]

/-- The text of standard input, if it has one: a text that is known, or the one that its bytes
are. -/
def text? (stdin : StandardInput) : Option String :=
  stdin.content.or (Text.decode? stdin.pending)

/-- Why bytes that are no text are refused. -/
def refusal : Fatal :=
  .standardInput ReadFailure.notText.message

/-- The first request makes a text known if there is one. -/
theorem text_of_text? (htext : stdin.text? = some content) :
    stdin.text.1 = .ok content ∧ stdin.text.2.content = some content := by
  cases hcontent : stdin.content with
  | some known =>
      rw [text?, hcontent] at htext
      obtain rfl := Option.some.inj htext
      rw [text_of_content hcontent]
      exact ⟨rfl, hcontent⟩
  | none =>
      rw [text?, hcontent, Option.none_or] at htext
      simp [text, hcontent, readAll, htext]

/-- Without a text the first request fails, and leaves no bytes behind. -/
theorem text_of_text?_eq_none (htext : stdin.text? = none) :
    stdin.text.1 = .error refusal ∧ stdin.text.2.text? = some "" := by
  obtain ⟨hcontent, hpending⟩ := Option.or_eq_none_iff.mp htext
  have hempty : Text.decode? ByteArray.empty = some "" := by decide
  simp [text, hcontent, readAll, hpending, refusal, text?, hempty]

/-- Where there is a text, it is told each time. -/
theorem texts_of_text? (htext : stdin.text? = some content) (requests : List Request) :
    stdin.texts requests = List.replicate (requests.count .text) (.ok content) := by
  obtain ⟨htold, hknown⟩ := text_of_text? htext
  rw [texts_eq_replicate]
  cases requests.count .text with
  | zero => rfl
  | succ count =>
      rw [List.replicate_succ, texts_text, htold, texts_of_content hknown,
        List.count_replicate_self, List.replicate_succ]

/-- What is told of bytes that are no text, asked for a number of times. -/
def toldOfRefused : Nat → List (Except Fatal String)
  | 0 => []
  | count + 1 => .error refusal :: List.replicate count (.ok "")

theorem texts_of_text?_eq_none (htext : stdin.text? = none) (requests : List Request) :
    stdin.texts requests = toldOfRefused (requests.count .text) := by
  obtain ⟨htold, hafter⟩ := text_of_text?_eq_none htext
  rw [texts_eq_replicate]
  cases requests.count .text with
  | zero => rfl
  | succ count =>
      rw [List.replicate_succ, texts_text, htold, texts_of_text? hafter, List.count_replicate_self,
        toldOfRefused]

/-- From two requests on, a refusal is followed by an empty text. -/
theorem toldOfRefused_alike_iff (count : Nat) :
    (∀ first ∈ toldOfRefused count, ∀ second ∈ toldOfRefused count, first = second) ↔
      count ≤ 1 := by
  match count with
  | 0 => simp [toldOfRefused]
  | 1 => simp [toldOfRefused]
  | count + 2 => simp [toldOfRefused]

/-- In answer to any requests, the text of standard input is told each time that it is asked for.
Where there is none, the first request for it fails and all later ones are told that it is empty.
So the same is told each time if and only if there is a text, or it is asked for once at most. -/
theorem texts_of_requests (stdin : StandardInput) (requests : List Request) :
    (∀ content, stdin.text? = some content →
      stdin.texts requests = List.replicate (requests.count .text) (.ok content)) ∧
      (stdin.text? = none → stdin.texts requests = toldOfRefused (requests.count .text)) ∧
      ((∀ first ∈ stdin.texts requests, ∀ second ∈ stdin.texts requests, first = second) ↔
        stdin.text?.isSome = true ∨ requests.count .text ≤ 1) := by
  refine ⟨fun content htext => texts_of_text? htext requests,
    fun htext => texts_of_text?_eq_none htext requests, ?_⟩
  cases htext : stdin.text? with
  | some content =>
      rw [texts_of_text? htext]
      simp only [List.mem_replicate]
      constructor
      · exact fun _ => .inl rfl
      · rintro - first ⟨-, rfl⟩ second ⟨-, rfl⟩
        rfl
  | none =>
      -- the first answer is the failure, all others are an empty text
      rw [texts_of_text?_eq_none htext, toldOfRefused_alike_iff]
      simp

/-- A terminal that is asked twice for a text that its bytes are not tells an empty text the
second time. -/
theorem text_behind_refusal :
    (terminal ⟨#[0xff]⟩).texts [.text, .text] = [.error refusal, .ok ""] := by
  decide +kernel

end RamlCheck.StandardInput
