import RamlCheck.Proofs.Include.ClosingQuote

/-!
# Quoting and closing

A text in single or in double quotes is closed where its form ends, whatever it holds
(`closeQuote_singleQuoted`, `closeQuote_doubleQuoted`).  What stands behind the closing
quote matters only by whether it is another quote (`closeQuote_behind`), and where a
line holds no closing quote the search goes on with the next line as it began
(`closeQuote_line`).
-/

namespace RamlCheck.Include

variable {quote : Char} {taken : Bool} {chars inside after shown : List Char}

/-- A text as a YAML scalar in double quotes: a backslash goes in front of each quote and
each backslash inside. -/
def doubleQuoted (text : List Char) : List Char :=
  ['"'] ++ text.flatMap (fun char => if char = '"' ∨ char = '\\' then ['\\', char] else [char]) ++
    ['"']

/-- A character that does not close is passed, and says whether it takes the next one. -/
theorem closeQuote_pass_of_not {char : Char} {rest : List Char}
    (hends : ¬(!taken && char = quote && !(quote = '\'' && rest.head? = some '\'')) = true) :
    closeQuote quote taken (char :: rest) =
      (closeQuote quote (!taken && ((quote = '"' && char = '\\') || char = quote)) rest).map
        fun closed => (char :: closed.1, closed.2) := by
  rw [closeQuote, if_neg hends]

/-! ## What stands behind the closing quote -/

theorem ne_nil_of_closeQuote (hclose : closeQuote quote taken chars = some (inside, after)) :
    inside ≠ [] := by
  rintro rfl
  simpa using ByteWalk.getLast?_of_closeQuote hclose

/-- Other text behind the closing quote leaves it the closing one, unless it brings in a
second quote. -/
theorem closeQuote_behind (hclose : closeQuote quote taken chars = some (inside, after))
    (hhead : shown.head? = some '\'' → after.head? = some '\'') :
    closeQuote quote taken (inside ++ shown) = some (inside, shown) := by
  induction chars generalizing taken inside with
  | nil => simp [closeQuote] at hclose
  | cons char rest ih =>
      rw [closeQuote] at hclose
      split at hclose
      · next hends =>
        cases hclose
        have hstill :
            (!taken && char = quote && !(quote = '\'' && shown.head? = some '\'')) = true := by
          simp only [Bool.and_eq_true, Bool.not_eq_true', Bool.and_eq_false_iff,
            decide_eq_true_eq, decide_eq_false_iff_not] at hends ⊢
          exact ⟨hends.1, hends.2.imp_right fun hnot hshown => hnot (hhead hshown)⟩
        rw [List.singleton_append, closeQuote, if_pos hstill]
      · next hends =>
        obtain ⟨⟨inside', after'⟩, hrest, heq⟩ := Option.map_eq_some_iff.mp hclose
        cases heq
        -- what is ahead of this character is inside, so both texts have it
        obtain ⟨first, others, rfl⟩ := List.exists_cons_of_ne_nil (ne_nil_of_closeQuote hrest)
        have hsame : rest.head? = some first := by rw [← append_of_closeQuote hrest]; rfl
        rw [hsame] at hends
        rw [List.cons_append, closeQuote_pass_of_not hends, ih hrest]
        rfl

/-- The closing quote of a text closes a longer text too, unless another quote follows
at once. -/
theorem closeQuote_append {behind : List Char}
    (hclose : closeQuote quote taken chars = some (inside, after))
    (hbehind : after = [] → behind.head? ≠ some '\'') :
    closeQuote quote taken (chars ++ behind) = some (inside, after ++ behind) := by
  rw [← append_of_closeQuote hclose, List.append_assoc]
  refine closeQuote_behind hclose fun hhead => ?_
  cases after with
  | nil => exact absurd hhead (hbehind rfl)
  | cons first others => exact hhead

/-- Inside of a quoted scalar nothing has closed it yet. -/
theorem closeQuote_eq_none_of_inside {front others : List Char} {char : Char} (hchar : char ≠ '\'')
    (hclose : closeQuote quote taken chars = some (front ++ char :: others, after)) :
    closeQuote quote taken front = none := by
  cases hfront : closeQuote quote taken front with
  | none => rfl
  | some closed =>
      obtain ⟨inner, behind⟩ := closed
      have happend := closeQuote_append hfront (fun _ => (by simp [hchar] :
        (char :: others ++ after).head? ≠ some '\''))
      rw [← append_of_closeQuote hclose, List.append_assoc, happend] at hclose
      have hlength := congrArg List.length (append_of_closeQuote hfront)
      have hinner := congrArg List.length (Prod.mk.inj (Option.some.inj hclose)).1
      simp only [List.length_append, List.length_cons] at hlength hinner
      omega

/-! ## Quoted forms -/

theorem closeQuote_singleQuoted (text : List Char) (hafter : after.head? ≠ some '\'') :
    ∃ inside, singleQuoted text = '\'' :: inside ∧
      closeQuote '\'' false (inside ++ after) = some (inside, after) := by
  refine ⟨text.flatMap _ ++ ['\''], rfl, ?_⟩
  induction text with
  | nil => exact ByteWalk.closeQuote_end fun _ => hafter
  | cons char rest ih =>
      rw [List.flatMap_cons]
      split
      · simp only [List.cons_append, List.nil_append] at ih ⊢
        rw [ByteWalk.closeQuote_pair, ih]
        rfl
      · next hchar =>
        simp only [List.cons_append, List.nil_append] at ih ⊢
        rw [ByteWalk.closeQuote_pass hchar (by simp), ih]
        rfl

theorem closeQuote_doubleQuoted (text after : List Char) :
    ∃ inside, doubleQuoted text = '"' :: inside ∧
      closeQuote '"' false (inside ++ after) = some (inside, after) := by
  refine ⟨text.flatMap _ ++ ['"'], rfl, ?_⟩
  induction text with
  | nil => exact ByteWalk.closeQuote_end (by simp)
  | cons char rest ih =>
      rw [List.flatMap_cons]
      split
      · simp only [List.cons_append, List.nil_append] at ih ⊢
        rw [ByteWalk.closeQuote_escape, ih]
        rfl
      · next hchar =>
        rw [not_or] at hchar
        simp only [List.cons_append, List.nil_append] at ih ⊢
        rw [ByteWalk.closeQuote_pass hchar.1 fun _ => hchar.2, ih]
        rfl

/-! ## Lines without a closing quote -/

theorem closeQuote_ending {ending : List Char} (hquote : quote = '\'' ∨ quote = '"')
    (hending : ∀ char ∈ ending, Text.isLineEnding char = true) (hne : taken = true → ending ≠ [])
    (more : List Char) :
    closeQuote quote taken (ending ++ more) =
      (closeQuote quote false more).map fun closed => (ending ++ closed.1, closed.2) := by
  induction ending generalizing taken with
  | nil =>
      have htaken : taken = false := Bool.eq_false_iff.mpr fun htrue => hne htrue rfl
      simp [htaken]
  | cons char rest ih =>
      have hchar := hending char (by simp)
      have hother : char ≠ quote := by
        rintro rfl
        rcases hquote with rfl | rfl <;> contradiction
      have hslash : char ≠ '\\' := by
        rintro rfl
        contradiction
      have hrest := @ih false (fun other hmem => hending other (by simp [hmem])) (by simp)
      simp [closeQuote, hother, hslash, hrest, Option.map_map, Function.comp_def]

/-- Where a line holds no closing quote, the search goes on behind it as it began: a
backslash at the end of a line takes nothing of the next one. -/
theorem closeQuote_line {content ending more : List Char} (hquote : quote = '\'' ∨ quote = '"')
    (hending : ∀ char ∈ ending, Text.isLineEnding char = true) (hne : more ≠ [] → ending ≠ [])
    (hopen : closeQuote quote taken content = none) :
    closeQuote quote taken (content ++ (ending ++ more)) =
      (closeQuote quote false more).map fun closed =>
        (content ++ (ending ++ closed.1), closed.2) := by
  induction content generalizing taken with
  | nil =>
      rw [List.nil_append]
      by_cases hnil : ending = []
      · have hmore : more = [] := by
          by_contra hmore
          exact hne hmore hnil
        simp [hnil, hmore, closeQuote]
      · exact closeQuote_ending hquote hending (fun _ => hnil) more
  | cons char rest ih =>
      rw [closeQuote] at hopen
      split at hopen
      · contradiction
      · next hends =>
        have hstill : ¬(!taken && char = quote &&
            !(quote = '\'' && (rest ++ (ending ++ more)).head? = some '\'')) = true := by
          cases rest with
          | nil =>
              -- at the end of the line nothing ahead keeps a quote from closing
              intro htrue
              refine hends ?_
              simp only [Bool.and_eq_true] at htrue ⊢
              exact ⟨htrue.1, by simp⟩
          | cons first others => exact hends
        rw [List.cons_append, closeQuote_pass_of_not hstill, ih (Option.map_eq_none_iff.mp hopen)]
        simp [Option.map_map, Function.comp_def]

end RamlCheck.Include
