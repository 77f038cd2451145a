import RamlCheck.File.Basic
import RamlCheck.Include.Rendering
import RamlCheck.Json.Reader
import RamlCheck.Yaml.Document
import RamlCheck.Yaml.Printer

/-!
# Payload of a document

The payload is the value of a document as JSON: tags are dropped, keys become
texts, and a reference gives way to what it names.  Inside what is named,
references stay as they are, so that no chain of files is ever followed.
-/

namespace RamlCheck.Payload

open Yaml (Value)

/-- A number; JSON has no infinite or undefined ones. -/
def ofNumber : Yaml.Number → Json
  | .integer value => .integer value
  | .float value => if value.isFinite then .float value else .null

/-- The name of the member that an entry with some key becomes. -/
def keyText : Value → String
  | .string text => text
  | .number value => value.text
  | .bool value => if value then "true" else "false"
  | .null => "null"
  | key => String.ofList (Text.trimEnd ((Yaml.Value.print? key).getD "").toList)

mutual

/-- A value as JSON, in which strings are shown some way. -/
def ofValue (ofText : String → Json) : Value → Json
  | .null => .null
  | .bool value => .bool value
  | .number value => ofNumber value
  | .string text => ofText text
  | .sequence items => .array (ofItems ofText items)
  | .mapping entries => .ofEntries (ofEntries ofText entries)
  | .tagged _ value => ofValue ofText value

/-- The items of a sequence as JSON. -/
def ofItems (ofText : String → Json) : List Value → List Json
  | [] => []
  | item :: rest => ofValue ofText item :: ofItems ofText rest

/-- The entries of a mapping as members, in their order. -/
def ofEntries (ofText : String → Json) : List (Value × Value) → List (String × Json)
  | [] => []
  | (key, value) :: rest => (keyText key, ofValue ofText value) :: ofEntries ofText rest

end

/-- A value as JSON, in which references stay. -/
def plain (value : Value) : Json :=
  ofValue .string value

/-- What a target names: a YAML or JSON value, or the text of a file.  There is
nothing if the file cannot be read or does not hold such a value. -/
def inlined? (files : FileSystem) (directory target : String) : Option Json :=
  match files (Include.pathOf directory target) with
  | .error _ => none
  | .ok content =>
      if Include.isYamlTarget target then
        (Yaml.read (Include.valuesText content)).toOption.map plain
      else if Include.isJsonTarget target then (Json.read content).toOption
      else some (.string content)

/-- A string of a document: a reference gives way to what it names, if that can be
had. -/
def ofText (files : FileSystem) (directory text : String) : Json :=
  match Include.target? text with
  | none => .string text
  | some target => (inlined? files directory target).getD (.string text)

/-- The payload of a document in some directory. -/
def ofDocument (files : FileSystem) (directory : String) (value : Value) : Json :=
  ofValue (ofText files directory) value

end RamlCheck.Payload
