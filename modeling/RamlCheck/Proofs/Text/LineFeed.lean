import Mathlib.Algebra.Ring.Nat
import Mathlib.Data.List.Count
import RamlCheck.Number.Layout
import RamlCheck.Proofs.Text.Lines
import RamlCheck.Proofs.Text.Slice
import RamlCheck.Text.Quoted

/-!
# Line feeds of a text

A report is cut into lines at line feeds, which are bytes of their own in it
(`count_bytesOf`); it falls apart into the lines that it is made of if each of these has its
only line feed at its end (`cutLines_join`).  A text without one is `OneLine`: fixed words
are, numbers are, and so is every text in quotes, since the quotes spell a line feed out
(`oneLine_quoted`).

Words that are put around texts have the line feeds of these texts and no others:
`FeedsFrom` says of a text that its line feeds come from some texts that it quotes.
-/

namespace RamlCheck.Text

/-- The number of line feeds in a text. -/
def lineFeeds (text : String) : Nat :=
  text.toList.count '\n'

/-- Whether a text stays on one line. -/
def OneLine (text : String) : Prop :=
  '\n' ∉ text.toList

instance (text : String) : Decidable (OneLine text) :=
  inferInstanceAs (Decidable ('\n' ∉ text.toList))

/-! ## Line feeds among bytes -/

theorem count_utf8EncodeChar (char : Char) :
    (String.utf8EncodeChar char).count 10 = [char].count '\n' := by
  by_cases hchar : char.toNat < 128
  · rw [utf8EncodeChar_of_lt hchar, List.count_singleton, List.count_singleton]
    have hbyte : char.toUInt8 = 10 ↔ char = '\n' := by
      constructor
      · intro hten
        have hnat : char.toNat % 256 = 10 := congrArg UInt8.toNat hten
        rw [Nat.mod_eq_of_lt (by omega)] at hnat
        exact Char.toNat_inj.mp hnat
      · rintro rfl
        rfl
    simp only [beq_iff_eq, hbyte]
  · have hfeed : char ≠ '\n' := by
      rintro rfl
      exact hchar (by decide)
    rw [List.count_singleton, if_neg (by simpa using hfeed), List.count_eq_zero]
    intro hmem
    have hhigh := le_of_mem_utf8EncodeChar (Nat.le_of_not_lt hchar) hmem
    exact absurd hhigh (by decide)

/-- A line feed is a byte of its own. -/
theorem count_bytesOf (chars : List Char) : (bytesOf chars).count 10 = chars.count '\n' := by
  induction chars with
  | nil => rfl
  | cons char rest ih =>
      rw [bytesOf_cons, List.count_append, ih, count_utf8EncodeChar, ← List.count_append,
        List.singleton_append]

/-! ## Texts on one line -/

theorem lineFeeds_append (first second : String) :
    lineFeeds (first ++ second) = lineFeeds first + lineFeeds second := by
  rw [lineFeeds, String.toList_append, List.count_append]
  rfl

theorem lineFeeds_join (texts : List String) :
    lineFeeds (String.join texts) = (texts.map lineFeeds).sum := by
  induction texts with
  | nil => rfl
  | cons text rest ih => rw [String.join_cons, lineFeeds_append, ih, List.map_cons, List.sum_cons]

theorem lineFeeds_eq_zero_iff {text : String} : lineFeeds text = 0 ↔ OneLine text :=
  List.count_eq_zero

@[simp] theorem oneLine_append {first second : String} :
    OneLine (first ++ second) ↔ OneLine first ∧ OneLine second := by
  simp only [OneLine, String.toList_append, List.mem_append, not_or]

@[simp] theorem oneLine_ofList {chars : List Char} :
    OneLine (String.ofList chars) ↔ '\n' ∉ chars := by
  rw [OneLine, String.toList_ofList]

/-- Fixed words are on one line if no line feed is among their characters. -/
theorem OneLine.of_chars {chars : List Char} (hchars : '\n' ∉ chars) :
    OneLine (String.ofList chars) :=
  oneLine_ofList.mpr hchars

theorem feed_not_mem_toDigitsCore (base fuel number : Nat) {digits : List Char}
    (hdigits : '\n' ∉ digits) : '\n' ∉ Nat.toDigitsCore base fuel number digits := by
  have hchar : ∀ digit, '\n' ≠ Nat.digitChar digit := by
    intro digit
    grind [Nat.digitChar]
  induction fuel generalizing number digits with
  | zero => exact hdigits
  | succ fuel ih =>
      have hmore := List.not_mem_cons_of_ne_of_not_mem (hchar (number % base)) hdigits
      rw [Nat.toDigitsCore]
      split
      · exact hmore
      · exact ih _ hmore

theorem feed_not_mem_toDigits (base number : Nat) : '\n' ∉ Nat.toDigits base number :=
  feed_not_mem_toDigitsCore _ _ _ List.not_mem_nil

@[simp] theorem oneLine_nat (number : Nat) : OneLine (toString number) := by
  rw [OneLine, show (toString number).toList = Nat.toDigits 10 number from String.toList_ofList]
  exact feed_not_mem_toDigits _ _

@[simp] theorem oneLine_int (number : Int) : OneLine (toString number) := by
  cases number with
  | ofNat number => exact oneLine_nat number
  | negSucc number =>
      show OneLine ("-" ++ toString (number + 1))
      rw [oneLine_append]
      exact ⟨by decide, oneLine_nat _⟩

/-- Quotes spell line feeds out. -/
@[simp] theorem oneLine_quoted (text : String) : OneLine (quoted text) := by
  have hspelt : ∀ char, '\n' ∉ spellInQuotes char := by
    intro char
    unfold spellInQuotes
    repeat' split
    any_goals decide
    · simp [hexDigits, feed_not_mem_toDigits]
    · next hfeed _ _ _ => simpa using Ne.symm hfeed
  rw [quoted, oneLine_ofList]
  simp [hspelt]

theorem oneLine_of_subset {first second : String} (hsubset : first.toList ⊆ second.toList)
    (hsecond : OneLine second) : OneLine first :=
  fun hmem => hsecond (hsubset hmem)

theorem toList_join (texts : List String) :
    (String.join texts).toList = (texts.map String.toList).flatten := by
  induction texts with
  | nil => rfl
  | cons text rest ih =>
      rw [String.join_cons, String.toList_append, ih, List.map_cons, List.flatten_cons]

/-- Lines are cut apart again where each ends in the only line feed that it has. -/
theorem cutLines_join {lines : List String}
    (hlines : ∀ line ∈ lines, ∃ body, line = body ++ "\n" ∧ OneLine body) :
    cutLines (String.join lines).toList = lines.map String.toList := by
  have hcut : IsCut (lines.map String.toList) := by
    induction lines with
    | nil => trivial
    | cons line rest ih =>
        rw [List.forall_mem_cons] at hlines
        obtain ⟨body, rfl, hbody⟩ := hlines.1
        have hchars : (body ++ "\n").toList = body.toList ++ ['\n'] := String.toList_append
        rw [List.map_cons, hchars]
        refine ⟨by simp, ?_, fun _ => List.getLast?_concat, ih hlines.2⟩
        rw [List.dropLast_concat]
        exact hbody
  rw [toList_join, cutLines_flatten hcut]

/-! ## Numbers of double precision -/

theorem oneLine_zeros (count : Nat) : OneLine (Layout.zeros count) := by
  rw [Layout.zeros, oneLine_ofList]
  intro hmem
  exact absurd (List.eq_of_mem_replicate hmem) (by decide)

theorem oneLine_positional {digits : List Char} (hdigits : '\n' ∉ digits) (point : Int) :
    OneLine (Layout.positional digits point) := by
  have htake : '\n' ∉ digits.take point.natAbs := fun hmem => hdigits (List.mem_of_mem_take hmem)
  have hdrop : '\n' ∉ digits.drop point.natAbs := fun hmem => hdigits (List.mem_of_mem_drop hmem)
  unfold Layout.positional
  simp only
  split
  · simp only [oneLine_append, oneLine_ofList]
    exact ⟨⟨by decide, oneLine_zeros _⟩, hdigits⟩
  · split
    · simp only [oneLine_append, oneLine_ofList]
      exact ⟨⟨hdigits, oneLine_zeros _⟩, by decide⟩
    · simp only [oneLine_append, oneLine_ofList]
      exact ⟨⟨htake, by decide⟩, hdrop⟩

theorem oneLine_scientific {layout : Layout} (hsign : OneLine layout.exponentSign)
    {digits : List Char} (hdigits : '\n' ∉ digits) (exponent : Int) :
    OneLine (layout.scientific digits exponent) := by
  unfold Layout.scientific
  simp only [oneLine_append]
  refine ⟨⟨⟨?_, by decide⟩, ?_⟩, oneLine_nat _⟩
  · split
    · decide
    · rw [oneLine_ofList]
      exact hdigits
    · rw [List.mem_cons, not_or] at hdigits
      simp only [oneLine_ofList, List.mem_cons, not_or]
      exact ⟨hdigits.1, by decide, hdigits.2⟩
  · split
    · decide
    · exact hsign

theorem oneLine_render {layout : Layout} (hsign : OneLine layout.exponentSign)
    (hinfinity : OneLine layout.infinity) (hundefined : OneLine layout.undefined)
    (number : Double) : OneLine (number.render layout) := by
  cases number with
  | finite negative significand exponent =>
      have hminus : OneLine (if negative then "-" else "") := by
        split <;> decide
      unfold Double.render
      simp only
      split
      · exact oneLine_append.mpr ⟨hminus, by decide⟩
      · refine oneLine_append.mpr ⟨hminus, ?_⟩
        unfold Layout.magnitude
        simp only
        split
        · exact oneLine_positional (feed_not_mem_toDigits _ _) _
        · exact oneLine_scientific hsign (feed_not_mem_toDigits _ _) _
  | infinite negative =>
      refine oneLine_append.mpr ⟨?_, hinfinity⟩
      split <;> decide
  | nan => exact hundefined

/-! ## Line feeds of texts that are quoted -/

/-- Whether the line feeds of a text come from some texts that it quotes. -/
def FeedsFrom (quoted : String → Prop) (text : String) : Prop :=
  ¬ OneLine text → ∃ other, quoted other ∧ ¬ OneLine other

namespace FeedsFrom

variable {quoted : String → Prop} {first second : String}

theorem of_oneLine (htext : OneLine first) : FeedsFrom quoted first :=
  fun hfeed => absurd htext hfeed

theorem of_chars {chars : List Char} (hchars : '\n' ∉ chars) :
    FeedsFrom quoted (String.ofList chars) :=
  of_oneLine (.of_chars hchars)

theorem of_quoted (htext : quoted first) : FeedsFrom quoted first :=
  fun hfeed => ⟨first, htext, hfeed⟩

theorem append (hfirst : FeedsFrom quoted first) (hsecond : FeedsFrom quoted second) :
    FeedsFrom quoted (first ++ second) := by
  intro hfeed
  rw [oneLine_append, not_and_or] at hfeed
  exact hfeed.elim hfirst hsecond

theorem of_subset (hsubset : first.toList ⊆ second.toList) (hsecond : FeedsFrom quoted second) :
    FeedsFrom quoted first :=
  fun hfeed => hsecond fun hone => hfeed (oneLine_of_subset hsubset hone)

theorem mono {other : String → Prop} (hquoted : ∀ text, quoted text → other text)
    (hfirst : FeedsFrom quoted first) : FeedsFrom other first := by
  intro hfeed
  obtain ⟨text, htext, hother⟩ := hfirst hfeed
  exact ⟨text, hquoted text htext, hother⟩

end FeedsFrom

end RamlCheck.Text
