import Mathlib.Data.List.TakeWhile
import RamlCheck.Document.Header
import RamlCheck.Proofs.Text.Lines

/-!
# The form of a header line

`Header.Writes` says which lines write a header, as the language of RAML has it: the mark of
RAML, a gap, the version, and for version 1.0 perhaps a gap and the name of a fragment.
Reading a line finds exactly these (`Header.parse?_iff`), and a text is opened by the header
that its first line writes (`Header.parse?_firstLine_iff`).

## Strategy

Each part of a line is read by a function of its own, and for each of them we say what it
leaves.  Versions and names are words (`IsWord`), so it is settled where the gap in front of
one ends, and what is cut off at the end of a line belongs to neither.
-/

namespace RamlCheck

variable {version : Version} {fragment : Fragment} {header : Header} {chars rest : List Char}

/-- Some spaces and tabs, at least one. -/
structure IsGap (gap : List Char) : Prop where
  nonempty : gap ≠ []
  chars : ∀ char ∈ gap, Header.isGap char = true

/-- Whether a line writes a header. -/
inductive Header.Writes : Header → List Char → Prop
  | plain (version : Version) {gap : List Char} (hgap : IsGap gap) :
      Writes { version, fragment := none } ("#%RAML".toList ++ (gap ++ version.text.toList))
  | named (fragment : Fragment) {gap inner : List Char} (hgap : IsGap gap) (hinner : IsGap inner) :
      Writes { version := .v10, fragment := some fragment }
        ("#%RAML".toList ++ (gap ++ ("1.0".toList ++ (inner ++ fragment.name.toList))))

/-! ## The parts of a line -/

theorem Fragment.name_of_ofName? {name : String} (hfragment : ofName? name = some fragment) :
    fragment.name = name := by
  simpa using List.find?_some hfragment

/-- Some characters that are not blank, at least one. -/
structure IsWord (word : List Char) : Prop where
  nonempty : word ≠ []
  chars : ∀ char ∈ word, Text.isBlank char = false

theorem isWord_of_chars (hchars : chars ≠ [] ∧ chars.any Text.isBlank = false) :
    IsWord (String.ofList chars).toList := by
  rw [String.toList_ofList]
  exact ⟨hchars.1, by simpa using hchars.2⟩

theorem Fragment.isWord_name (fragment : Fragment) : IsWord fragment.name.toList := by
  cases fragment <;> exact isWord_of_chars (by decide)

theorem Version.isWord_text (version : Version) : IsWord version.text.toList := by
  cases version <;> exact isWord_of_chars (by decide)

/-- A word does not go on with the gap in front of it. -/
theorem IsWord.head?_not_gap {word : List Char} (hword : IsWord word) (rest : List Char) :
    ∀ char ∈ (word ++ rest).head?, Header.isGap char = false := by
  intro char hchar
  rw [List.head?_append_of_ne_nil _ hword.nonempty] at hchar
  have hblank := hword.chars char (List.mem_of_mem_head? hchar)
  rw [Bool.eq_false_iff]
  intro hgap
  simp only [Header.isGap, Bool.or_eq_true, decide_eq_true_eq] at hgap
  rcases hgap with rfl | rfl <;> exact absurd hblank (by decide)

theorem IsWord.getLast?_not_blank {word : List Char} (hword : IsWord word) (front : List Char) :
    ∀ char ∈ (front ++ word).getLast?, Text.isBlank char = false := by
  intro char hchar
  rw [List.getLast?_append_of_ne_nil _ hword.nonempty] at hchar
  exact hword.chars char (List.mem_of_getLast? hchar)

namespace Header

theorem dropStart?_eq_some_iff {start : List Char} :
    dropStart? start chars = some rest ↔ chars = start ++ rest := by
  rw [dropStart?]
  constructor
  · intro hdrop
    split at hdrop
    · next htake =>
      rw [← Option.some.inj hdrop]
      exact (List.take_append_drop start.length chars).symm.trans (congrArg (· ++ _) htake)
    · contradiction
  · rintro rfl
    simp

theorem exists_gap_of_dropGap? (hdrop : dropGap? chars = some rest) :
    ∃ gap, IsGap gap ∧ chars = gap ++ rest := by
  cases chars with
  | nil => contradiction
  | cons first others =>
      rw [dropGap?] at hdrop
      split at hdrop
      · next hfirst =>
        rw [← Option.some.inj hdrop]
        refine ⟨(first :: others).takeWhile isGap, ⟨by simp [hfirst], fun char hchar => ?_⟩, ?_⟩
        · exact List.mem_takeWhile_imp hchar
        · exact List.takeWhile_append_dropWhile.symm
      · contradiction

/-- A gap goes up to the word behind it. -/
theorem dropGap?_of_isWord {gap word : List Char} (hgap : IsGap gap) (hword : IsWord word)
    (rest : List Char) : dropGap? (gap ++ (word ++ rest)) = some (word ++ rest) := by
  have hstop := hword.head?_not_gap rest
  generalize word ++ rest = behind at hstop ⊢
  obtain ⟨first, others, rfl⟩ := List.exists_cons_of_ne_nil hgap.nonempty
  have hfirst := hgap.chars first List.mem_cons_self
  rw [List.cons_append, dropGap?, if_pos hfirst, ← List.cons_append,
    List.dropWhile_append_of_pos hgap.chars]
  cases behind with
  | nil => rfl
  | cons char behind => rw [List.dropWhile_cons_of_neg (by simp [hstop char rfl])]

theorem version?_eq_some_iff :
    version? chars = some (version, rest) ↔ chars = version.text.toList ++ rest := by
  rw [version?]
  constructor
  · intro hversion
    split at hversion
    · next behind hdrop =>
      obtain ⟨rfl, rfl⟩ := Prod.mk.inj (Option.some.inj hversion)
      exact dropStart?_eq_some_iff.mp hdrop
    · obtain ⟨behind, hdrop, hsame⟩ := Option.map_eq_some_iff.mp hversion
      obtain ⟨rfl, rfl⟩ := Prod.mk.inj hsame
      exact dropStart?_eq_some_iff.mp hdrop
  · rintro rfl
    cases version <;> rfl

/-- What follows a version is nothing, or a gap and the name of a fragment of version 1.0. -/
theorem cases_of_withName? (hname : withName? version rest = some header) :
    rest = [] ∧ header = { version, fragment := none } ∨
      ∃ fragment gap, IsGap gap ∧ version = .v10 ∧ rest = gap ++ fragment.name.toList ∧
        header = { version := .v10, fragment := some fragment } := by
  cases rest with
  | nil => exact .inl ⟨rfl, (Option.some.inj hname).symm⟩
  | cons first others =>
      obtain ⟨name, hgap, hname⟩ := Option.bind_eq_some_iff.mp hname
      obtain ⟨gap, hgap, hrest⟩ := exists_gap_of_dropGap? hgap
      split at hname
      · contradiction
      · split at hname
        · contradiction
        · next hversion =>
          obtain ⟨fragment, hfragment, hheader⟩ := Option.bind_eq_some_iff.mp hname
          have hspelled := Fragment.name_of_ofName? hfragment
          -- the older version may not name a fragment
          obtain rfl : version = .v10 := by
            cases version
            · contradiction
            · rfl
          rw [hrest, ← String.toList_ofList (l := name), ← hspelled]
          exact .inr ⟨fragment, gap, hgap, rfl, rfl, (Option.some.inj hheader).symm⟩

/-- The name of a fragment is found behind a gap. -/
theorem withName?_name (fragment : Fragment) {gap : List Char} (hgap : IsGap gap) :
    withName? .v10 (gap ++ fragment.name.toList) =
      some { version := .v10, fragment := some fragment } := by
  have hname := fragment.isWord_name
  have hdrop := dropGap?_of_isWord hgap hname []
  have hchars : (fragment.name.toList.isEmpty || fragment.name.toList.any Text.isBlank) =
      false := by
    rw [List.isEmpty_eq_false_iff.mpr hname.nonempty,
      List.any_eq_false.mpr (by simpa using hname.chars), Bool.or_false]
  obtain ⟨first, others, rfl⟩ := List.exists_cons_of_ne_nil hgap.nonempty
  rw [List.append_nil, List.cons_append] at hdrop
  rw [List.cons_append, withName?]
  simp only [hdrop, Option.bind_eq_bind, Option.bind_some, hchars, Bool.false_eq_true,
    if_false, reduceCtorEq, String.ofList_toList, Fragment.ofName?_name]

/-- The parts of a line are read one after the other. -/
theorem parse?_eq_some_iff {line : List Char} :
    parse? line = some header ↔ ∃ gapped, dropStart? "#%RAML".toList (Text.trimEnd line) =
      some gapped ∧ ∃ versioned, dropGap? gapped = some versioned ∧
        ∃ version rest, version? versioned = some (version, rest) ∧
          withName? version rest = some header := by
  simp only [parse?, Option.bind_eq_bind, Option.bind_eq_some_iff, Prod.exists]

/-- A line is read as a header if it writes it.  Blanks at its end do not count. -/
theorem parse?_iff {line : List Char} :
    parse? line = some header ↔ header.Writes (Text.trimEnd line) := by
  rw [parse?_eq_some_iff]
  constructor
  · rintro ⟨gapped, hstart, versioned, hgap, version, rest, hversion, hname⟩
    obtain ⟨gap, hgap, hgapped⟩ := exists_gap_of_dropGap? hgap
    rw [dropStart?_eq_some_iff.mp hstart, hgapped, version?_eq_some_iff.mp hversion]
    rcases cases_of_withName? hname with ⟨rfl, rfl⟩ | ⟨fragment, inner, hinner, rfl, rfl, rfl⟩
    · rw [List.append_nil]
      exact .plain version hgap
    · exact .named fragment hgap hinner
  · intro hwrites
    -- from here on only the trimmed line counts
    generalize Text.trimEnd line = trimmed at hwrites ⊢
    cases hwrites with
    | plain version hgap =>
        have hversioned := dropGap?_of_isWord hgap version.isWord_text []
        rw [List.append_nil] at hversioned
        exact ⟨_, dropStart?_eq_some_iff.mpr rfl, _, hversioned, version, [],
          version?_eq_some_iff.mpr (List.append_nil _).symm, rfl⟩
    | named fragment hgap hinner =>
        exact ⟨_, dropStart?_eq_some_iff.mpr rfl, _,
          dropGap?_of_isWord hgap Version.v10.isWord_text _, .v10, _,
          version?_eq_some_iff.mpr rfl, withName?_name fragment hinner⟩

end Header

/-! ## The first line of a text -/

/-- Whether the first line of a text writes a header.  Blanks at its end do not count. -/
inductive Header.Opens (header : Header) : List Char → Prop
  | intro {line blanks rest : List Char} (hline : header.Writes line)
      (hblanks : ∀ char ∈ blanks, Text.isBlank char = true) (hfeed : '\n' ∉ line ++ blanks)
      (hrest : ∀ char ∈ rest.head?, char = '\n') : Opens header (line ++ (blanks ++ rest))

namespace Header

/-- A header does not end with a blank. -/
theorem Writes.getLast?_not_blank {line : List Char} (hwrites : header.Writes line) :
    ∀ char ∈ line.getLast?, Text.isBlank char = false := by
  cases hwrites with
  | plain version hgap =>
      rw [← List.append_assoc]
      exact version.isWord_text.getLast?_not_blank _
  | named fragment hgap hinner =>
      rw [← List.append_assoc, ← List.append_assoc, ← List.append_assoc]
      exact fragment.isWord_name.getLast?_not_blank _

/-- The header of a text is the one that opens it. -/
theorem parse?_firstLine_iff {text : List Char} :
    parse? (Text.firstLine text) = some header ↔ header.Opens text := by
  rw [parse?_iff]
  constructor
  · intro hwrites
    -- the first line is what is written and the blanks behind it
    obtain ⟨blanks, hline, hblanks⟩ :=
      Text.mem_takeWhile_reverse_isLineEnding (Text.firstLine text).reverse Text.isBlank
    rw [List.reverse_reverse] at hline
    have hfeed : '\n' ∉ Text.firstLine text := fun hmem => by
      simpa using List.mem_takeWhile_imp hmem
    have htext : text = Text.trimEnd (Text.firstLine text) ++
        (blanks ++ text.dropWhile (· ≠ '\n')) := by
      rw [← List.append_assoc]
      exact List.takeWhile_append_dropWhile.symm.trans (congrArg (· ++ _) hline)
    rw [htext]
    refine .intro hwrites hblanks (hline ▸ hfeed) fun char hchar => ?_
    rw [Option.mem_def] at hchar
    have hstop := List.head?_dropWhile_not (fun char : Char => char ≠ '\n') text
    rw [hchar] at hstop
    simpa using hstop
  · rintro @⟨line, blanks, rest, hline, hblanks, hfeed, hrest⟩
    -- written so, the line ends at the first line feed, and its blanks do not count
    have hfirst : Text.firstLine (line ++ (blanks ++ rest)) = line ++ blanks := by
      have hfront : ∀ char ∈ line ++ blanks, decide (char ≠ '\n') = true := by
        intro char hchar
        exact decide_eq_true fun hsame => hfeed (hsame ▸ hchar)
      rw [← List.append_assoc, Text.firstLine, List.takeWhile_append_of_pos hfront]
      cases rest with
      | nil => simp
      | cons char rest => simp [hrest char rfl]
    rw [hfirst, Text.trimEnd,
      Text.trimEndWhile_append_of_stops hline.getLast?_not_blank hblanks]
    exact hline

/-- A text has one header at most. -/
theorem Opens.unique {text : List Char} {other : Header} (hheader : header.Opens text)
    (hother : other.Opens text) : header = other :=
  Option.some.inj ((parse?_firstLine_iff.mpr hheader).symm.trans
    (parse?_firstLine_iff.mpr hother))

end Header

end RamlCheck
