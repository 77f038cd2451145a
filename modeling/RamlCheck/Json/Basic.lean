import RamlCheck.Number.Double

/-!
# JSON values

The payload of a document is a JSON value.  The members of an object stand in
the order of their names, character by character, and no name occurs twice:
`Members.insert` keeps both, the later value of one name taking the place of the
earlier one.

A whole number and a number with a fraction or an exponent are kept apart, since
they are written differently.
-/

namespace RamlCheck

/-- A JSON value. -/
inductive Json
  | null
  | bool (value : Bool)
  | integer (value : Int)
  | float (value : Double)
  | string (text : String)
  | array (items : List Json)
  | object (members : List (String × Json))
  deriving Repr, Inhabited

namespace Json

/-- The members with one of them put in at its place; a member of that name is
replaced. -/
def insertMember (name : String) (value : Json) : List (String × Json) → List (String × Json)
  | [] => [(name, value)]
  | (other, old) :: rest =>
      if name = other then (name, value) :: rest
      else if name < other then (name, value) :: (other, old) :: rest
      else (other, old) :: insertMember name value rest

/-- The object of a list of entries, in which the last entry of a name counts. -/
def ofEntries (entries : List (String × Json)) : Json :=
  .object (entries.foldl (fun members entry => insertMember entry.1 entry.2 members) [])

/-- The value of a member of an object. -/
def member? (name : String) : Json → Option Json
  | .object members => members.lookup name
  | _ => none

@[simp] theorem insertMember_nil (name : String) (value : Json) :
    insertMember name value [] = [(name, value)] := rfl

theorem lookup_insertMember_self (name : String) (value : Json)
    (members : List (String × Json)) :
    (insertMember name value members).lookup name = some value := by
  induction members with
  | nil => simp [insertMember]
  | cons entry rest ih =>
      obtain ⟨other, old⟩ := entry
      simp only [insertMember]
      split
      · simp
      · next hother =>
        split
        · simp
        · have hdiffer : (name == other) = false := by simpa using hother
          simp [List.lookup_cons, hdiffer, ih]

end Json

end RamlCheck
