import RamlCheck.Proofs.Text.LineFeed
import RamlCheck.Report.Sink

/-!
# Bytes of a report

Texts that are written one after another leave the bytes of the texts joined
(`bytesOf_append`), so what a report leaves is told by its texts.  This holds of a sink
with limited room too, if writing stops at the first text that is not taken as a whole
(`writeAll_eq_write`): it makes no difference into which pieces a text is cut.
-/

namespace RamlCheck.Sink

theorem toList_loop (bytes : ByteArray) (index : Nat) (front : List UInt8) :
    ByteArray.toList.loop bytes index front = front.reverse ++ bytes.data.toList.drop index := by
  fun_induction ByteArray.toList.loop bytes index front with
  | case1 index front hindex ih =>
      have hlength : index < bytes.data.toList.length := hindex
      have hget : bytes.get! index = bytes.data.toList[index] := by
        show bytes.data[index]! = _
        rw [getElem!_pos bytes.data index hindex, Array.getElem_toList]
      rw [ih, List.reverse_cons, List.append_assoc, List.drop_eq_getElem_cons hlength, hget]
      rfl
  | case2 index front hindex =>
      rw [List.drop_of_length_le (Nat.le_of_not_lt hindex), List.append_nil]

theorem toList_eq_data (bytes : ByteArray) : bytes.toList = bytes.data.toList := by
  rw [ByteArray.toList, toList_loop, List.reverse_nil, List.nil_append, List.drop_zero]

theorem bytesOf_append (first second : String) :
    bytesOf (first ++ second) = bytesOf first ++ bytesOf second := by
  simp only [bytesOf, String.toUTF8, String.toByteArray_append, toList_eq_data,
    ByteArray.toList_data_append]

theorem length_bytesOf (text : String) : (bytesOf text).length = text.utf8ByteSize := by
  simp only [bytesOf, String.toUTF8, toList_eq_data]
  rfl

@[simp] theorem bytesOf_empty : bytesOf "" = [] :=
  List.length_eq_zero_iff.mp (length_bytesOf "")

theorem bytesOf_eq (text : String) : bytesOf text = Text.bytesOf text.toList := by
  have hencode : ∀ chars : List Char, chars.utf8Encode.data.toList = Text.bytesOf chars := by
    intro chars
    simp [List.utf8Encode, Text.bytesOf]
  rw [bytesOf, toList_eq_data, String.toUTF8, ← String.utf8Encode_toList, hencode]

/-- The line feeds of a report are those of the texts in it. -/
theorem count_bytesOf (text : String) : (bytesOf text).count 10 = Text.lineFeeds text := by
  rw [bytesOf_eq, Text.count_bytesOf]
  rfl

/-! ## Pieces of a text -/

/-- Writes texts one after another, up to the first one that is not taken as a whole. -/
def writeAll (sink : Sink) : List String → Sink × Bool
  | [] => (sink, true)
  | text :: rest =>
      match sink.write text with
      | (sink, true) => sink.writeAll rest
      | (sink, false) => (sink, false)

theorem fits_append (sink : Sink) (first second : List UInt8) :
    sink.fits (first ++ second) = (sink.fits first && (sink.push first).fits second) := by
  cases hroom : sink.room with
  | none => simp only [fits, push, hroom, Bool.and_self]
  | some room =>
      simp only [fits, push, hroom, List.length_append]
      rw [← Bool.decide_and, decide_eq_decide]
      omega

/-- A sink that could not take everything takes nothing more. -/
theorem push_append_of_not_fits {sink : Sink} {first : List UInt8}
    (hfull : sink.fits first = false) (second : List UInt8) :
    sink.push (first ++ second) = sink.push first := by
  cases hroom : sink.room with
  | none => simp [fits, hroom] at hfull
  | some room =>
      have hexceeds : room < first.length := by simpa [fits, hroom] using hfull
      have hzero : room - first.length = 0 := Nat.sub_eq_zero_of_le (Nat.le_of_lt hexceeds)
      simp only [push, hroom, List.take_append, List.length_append, ← Nat.sub_sub, hzero,
        List.take_zero, List.append_nil, Nat.zero_sub]

/-- Cutting a text into pieces does not change what a sink takes of it. -/
theorem writeAll_eq_write (sink : Sink) (texts : List String) :
    sink.writeAll texts = sink.write (String.join texts) := by
  induction texts generalizing sink with
  | nil =>
      have hfits : sink.fits [] = true := by
        cases hroom : sink.room <;> simp [fits, hroom]
      simp only [writeAll, write, String.join_nil, bytesOf_empty, push_nil, hfits]
  | cons text rest ih =>
      simp only [writeAll, write, String.join_cons, bytesOf_append, fits_append]
      cases hfits : sink.fits (bytesOf text) with
      | true =>
          show (sink.push (bytesOf text)).writeAll rest = _
          rw [ih, write, push_append, Bool.true_and]
      | false => rw [push_append_of_not_fits hfits, Bool.false_and]

end RamlCheck.Sink
