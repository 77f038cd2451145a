import RamlCheck.Rule.Basic

/-!
# Responses have status codes

The responses of a method are a mapping from status codes, among which annotations
may stand.  A code is any spelling of a number from 100 to 599: a plus sign and
zeros in front do not matter.
-/

namespace RamlCheck.Rule

/-- The number that a text writes: digits of ASCII, perhaps behind a plus sign. -/
def naturalOf? (text : List Char) : Option Nat :=
  let digits :=
    match text with
    | '+' :: rest => rest
    | _ => text
  if digits.isEmpty || !digits.all Char.isDigit then none
  else some (digits.foldl (fun value digit => value * 10 + (digit.toNat - '0'.toNat)) 0)

/-- Whether a key is a status code. -/
def isStatusCode (key : String) : Bool :=
  (naturalOf? key.toList).any fun code => 100 ≤ code && code ≤ 599

/-- A key of responses that is no status code. -/
def codeFindings (document : Document) (code : Label) : List Finding :=
  if isStatusCode code.text || Key.isAnnotation code.text then []
  else
    [document.findingAt code.place .error
      ("Invalid response code '" ++ code.text
        ++ "': expected an HTTP status code between 100 and 599")]

/-- What is wrong with the responses of a method. -/
def responseFindings (document : Document) (method : Method) : List Finding :=
  match Outline.entryOf? "responses" (method.node.entries?.getD []) with
  | none => []
  | some (key, node) =>
      match node.entries? with
      | some entries => entries.flatMap fun entry => codeFindings document entry.1
      | none =>
          if node.isEmptyValue || node.isReference then []
          else [document.findingAt key.place .error "Property 'responses' must be a mapping"]

/-- The rule that looks at the responses of methods. -/
def responses : Rule :=
  { id := "response-codes"
    description := "Ensures method responses are keyed by HTTP status codes"
    severity := .error
    check := fun _ document => document.methods.flatMap (responseFindings document) }

end RamlCheck.Rule
