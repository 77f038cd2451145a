/-!
# Where a report goes

A sink takes the bytes of a report.  One with limited room takes what fits and
refuses the rest, so pieces written one after another leave what writing them
at once leaves (`push_append`).
-/

namespace RamlCheck

/-- The bytes written so far, and how many more there is room for; nothing for
boundless room. -/
structure Sink where
  written : List UInt8
  room : Option Nat
  deriving DecidableEq, Repr

namespace Sink

/-- An empty sink with boundless room. -/
def boundless : Sink :=
  { written := [], room := none }

/-- An empty sink with room for some bytes. -/
def bounded (room : Nat) : Sink :=
  { written := [], room := some room }

/-- The wording of a refusal. -/
def refusal : String := "sink is full"

/-- The bytes of a text. -/
def bytesOf (text : String) : List UInt8 :=
  text.toUTF8.toList

/-- The sink after some bytes, of which it takes as many as there is room for. -/
def push (sink : Sink) (bytes : List UInt8) : Sink :=
  match sink.room with
  | none => { sink with written := sink.written ++ bytes }
  | some room =>
      { written := sink.written ++ bytes.take room, room := some (room - bytes.length) }

/-- Whether there is room for some bytes. -/
def fits (sink : Sink) (bytes : List UInt8) : Bool :=
  match sink.room with
  | none => true
  | some room => bytes.length ≤ room

/-- Writes a text: the sink afterwards, and whether it took everything. -/
def write (sink : Sink) (text : String) : Sink × Bool :=
  (sink.push (bytesOf text), sink.fits (bytesOf text))

@[simp] theorem push_nil (sink : Sink) : sink.push [] = sink := by
  cases sink with
  | mk written room => cases room <;> simp [push]

theorem push_append (sink : Sink) (first second : List UInt8) :
    (sink.push first).push second = sink.push (first ++ second) := by
  cases sink with
  | mk written room =>
      cases room with
      | none => simp [push]
      | some room => simp [push, List.take_append, Nat.sub_sub]

end Sink

end RamlCheck
