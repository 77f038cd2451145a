import RamlCheck.Proofs.Yaml.ComplaintPlace

/-!
# What is left of an error without its place

An error is told without its place by cutting its message at the first place that is announced
there.  This leaves what is in front of the place of the error, unless that announces a place
by itself (`Error.summary_eq_iff`).  Fixed words never do (`Error.summary_of_fixed_words`), but a
complaint about a value may, since it shows keys of the document
(`Error.summary_of_complaint`, `Error.complaints_cut_short`).

## Strategy

The words that announce a place begin and end with a blank, and have nothing else in common
with themselves where they overlap (`placeWords_prefix_iff`).  So what is in front of a place
can lend them all characters but the last one, and the place then begins with that.
-/

namespace RamlCheck.Yaml.Error

variable {error : Error} {words message front behind : List Char} {char : Char}

/-- Whether a place is announced in some words, or would be by a blank behind them. -/
def Announces (words : List Char) : Prop :=
  placeWords <:+: words ++ [' ']

instance decidableAnnounces : DecidablePred Announces :=
  fun words => inferInstanceAs (Decidable (placeWords <:+: words ++ [' ']))

theorem announces_cons :
    Announces (char :: words) ↔ placeWords <+: char :: words ++ [' '] ∨ Announces words :=
  List.infix_cons_iff

/-! ## Cutting -/

theorem withoutPlace_of_start (hstart : placeWords <+: message) : withoutPlace message = [] := by
  cases message with
  | nil => rfl
  | cons char rest => rw [withoutPlace, if_pos (List.prefix_iff_eq_take.mp hstart).symm]

theorem withoutPlace_cons (hstart : ¬placeWords <+: char :: words) :
    withoutPlace (char :: words) = char :: withoutPlace words := by
  rw [withoutPlace, if_neg fun htake => hstart (List.prefix_iff_eq_take.mpr htake.symm)]

/-- What is cut off begins with the announcement of a place. -/
theorem exists_behind_withoutPlace (hplace : placeWords <:+: message) :
    ∃ behind, message = withoutPlace message ++ (placeWords ++ behind) := by
  induction message with
  | nil => exact absurd hplace (by decide)
  | cons char rest ih =>
      by_cases hstart : placeWords <+: char :: rest
      · obtain ⟨behind, hbehind⟩ := hstart
        exact ⟨behind, by rw [withoutPlace_of_start ⟨behind, hbehind⟩, hbehind, List.nil_append]⟩
      · obtain ⟨behind, hbehind⟩ := ih ((List.infix_cons_iff.mp hplace).resolve_left hstart)
        exact ⟨behind, by rw [withoutPlace_cons hstart, List.cons_append, ← hbehind]⟩

/-- The announcing words end as they begin in a blank alone. -/
theorem overlap_cases {last : List Char} (hsuffix : last <:+ placeWords)
    (hstart : last <+: placeWords) : last = [] ∨ last = [' '] ∨ last = placeWords := by
  have htails : ∀ last ∈ placeWords.tails, last <+: placeWords →
      last = [] ∨ last = [' '] ∨ last = placeWords := by decide
  exact htails last ((List.mem_tails _ _).mpr hsuffix) hstart

/-- Of a place that is announced in front of another one, at most the last blank is the first one
of the other. -/
theorem placeWords_prefix_iff (hfront : front ≠ []) :
    placeWords <+: front ++ (placeWords ++ behind) ↔ placeWords <+: front ++ [' '] := by
  constructor
  · intro hstart
    rcases le_total placeWords.length front.length with hlong | hshort
    · exact (List.prefix_of_prefix_length_le hstart (List.prefix_append _ _) hlong).trans
        (List.prefix_append _ _)
    · -- the words go on behind the front with an end of theirs, which starts the place too
      obtain ⟨last, hlast⟩ :=
        List.prefix_of_prefix_length_le (List.prefix_append front _) hstart hshort
      have hlength : last.length ≤ placeWords.length := by
        rw [← hlast, List.length_append]
        exact Nat.le_add_left _ _
      have hoverlap : last <+: placeWords := by
        refine List.prefix_of_prefix_length_le ?_ (List.prefix_append placeWords behind) hlength
        rwa [← List.prefix_append_right_inj front, hlast]
      rcases overlap_cases ⟨front, hlast⟩ hoverlap with rfl | rfl | rfl
      · rw [← hlast, List.append_nil]
        exact List.prefix_append _ _
      · rw [hlast]
      · exact absurd (List.append_left_eq_self.mp hlast) hfront
  · intro hstart
    refine hstart.trans ((List.prefix_append_right_inj front).mpr ?_)
    exact ⟨placeWords.drop 1 ++ behind, rfl⟩

/-- What is in front of a place is left in full if it does not announce one itself. -/
theorem withoutPlace_eq_iff :
    withoutPlace (words ++ (placeWords ++ behind)) = words ↔ ¬Announces words := by
  induction words with
  | nil =>
      rw [List.nil_append, withoutPlace_of_start (List.prefix_append _ _)]
      exact iff_of_true rfl (by decide)
  | cons char rest ih =>
      rw [announces_cons, ← @placeWords_prefix_iff (char :: rest) behind (List.cons_ne_nil _ _),
        not_or]
      by_cases hstart : placeWords <+: char :: rest ++ (placeWords ++ behind)
      · rw [withoutPlace_of_start hstart]
        exact iff_of_false (List.cons_ne_nil char rest).symm fun hboth => hboth.1 hstart
      · rw [and_iff_right hstart, ← ih]
        rw [List.cons_append] at hstart ⊢
        rw [withoutPlace_cons hstart, List.cons_inj_right]

/-! ## Messages with a place -/

theorem toList_summary (error : Error) :
    error.summary.toList = withoutPlace error.message.toList := by
  rw [summary, String.toList_ofList]

section

variable {problem place : String} (hmessage : error.message = problem ++ " at line " ++ place)
include hmessage

theorem toList_message :
    error.message.toList = problem.toList ++ (placeWords ++ place.toList) := by
  rw [hmessage, String.toList_append, String.toList_append, List.append_assoc]
  rfl

/-- An error with a place is told in full without it unless it announces another one. -/
theorem summary_eq_iff_of_message : error.summary = problem ↔ ¬Announces problem.toList := by
  rw [← String.toList_inj, toList_summary, toList_message hmessage, withoutPlace_eq_iff]

theorem exists_behind_summary :
    ∃ behind, error.message = error.summary ++ " at line " ++ behind := by
  have hplace : placeWords <:+: error.message.toList :=
    ⟨problem.toList, place.toList, by rw [toList_message hmessage, List.append_assoc]⟩
  obtain ⟨behind, hbehind⟩ := exists_behind_withoutPlace hplace
  refine ⟨String.ofList behind, String.toList_inj.mp ?_⟩
  rw [hbehind, String.toList_append, String.toList_append, toList_summary,
    String.toList_ofList (l := behind), List.append_assoc]
  rfl

end

/-! ## What is wrong -/

/-- What is wrong, without the place of it. -/
def problem : Error → String
  | .syntaxFault fault => fault.problem.message
  | .unknownAnchor _ => "unknown anchor"
  | .complaint what path _ =>
      (if pathText path = "." then "" else pathText path ++ ": ") ++ what.message
  | .tooDeep _ => "recursion limit exceeded"
  | .tooManyAliases => "repetition limit exceeded"
  | .endOfDocument => "EOF while parsing a value"
  | .severalDocuments =>
      "deserializing from YAML containing more than one document is not supported"

theorem exists_place_suffix {mark : Mark} (hbehind : mark.IsBehindStart) :
    ∃ place, mark.suffix = " at line " ++ place := by
  rw [Mark.suffix, if_pos (show mark.line ≠ 0 ∨ mark.column ≠ 0 from hbehind)]
  exact ⟨_, by rw [String.append_assoc, String.append_assoc]⟩

theorem exists_place_fault {fault : Fault} (hbehind : fault.mark.IsBehindStart) :
    ∃ place, fault.message = fault.problem.message ++ " at line " ++ place := by
  obtain ⟨place, hplace⟩ := exists_place_suffix hbehind
  unfold Fault.message
  simp only [if_pos (show fault.mark.line ≠ 0 ∨ fault.mark.column ≠ 0 from hbehind), hplace]
  exact ⟨place ++ _, by simp only [String.append_assoc]; rfl⟩

/-- Behind what is wrong there is its place, unless that is the start of the text. -/
theorem exists_place {mark : Mark} (hmark : error.mark? = some mark)
    (hbehind : mark.IsBehindStart) :
    ∃ place, error.message = error.problem ++ " at line " ++ place := by
  obtain ⟨place, hplace⟩ := exists_place_suffix hbehind
  cases error with
  | syntaxFault fault =>
      obtain rfl := Option.some.inj hmark
      exact exists_place_fault hbehind
  | unknownAnchor other | tooDeep other | complaint what path other =>
      obtain rfl := Option.some.inj hmark
      unfold message
      simp only [hplace, ← String.append_assoc]
      exact ⟨place, rfl⟩
  | tooManyAliases | endOfDocument | severalDocuments => contradiction

/-- Fixed words are read character by character. -/
theorem not_announces_of_chars (hwords : ¬Announces words) :
    ¬Announces (String.ofList words).toList := by
  rwa [String.toList_ofList]

theorem not_announces_problem (problem : Problem) : ¬Announces problem.message.toList := by
  cases problem <;> exact not_announces_of_chars (by decide)

/-- What is told in fixed words is told in full. -/
theorem summary_of_fixed_words (hmark : ∀ mark ∈ error.mark?, mark.IsBehindStart)
    (hfixed : ∀ what path mark, error ≠ .complaint what path mark) :
    error.summary = error.problem := by
  have hplaced : ∀ mark, error.mark? = some mark → ¬Announces error.problem.toList →
      error.summary = error.problem := by
    intro mark hsome hwords
    obtain ⟨place, hmessage⟩ := exists_place hsome (hmark mark hsome)
    exact (summary_eq_iff_of_message hmessage).mpr hwords
  cases error with
  | syntaxFault fault => exact hplaced fault.mark rfl (not_announces_problem fault.problem)
  | unknownAnchor mark | tooDeep mark =>
      exact hplaced mark rfl (not_announces_of_chars (by decide))
  | complaint what path mark => exact absurd rfl (hfixed what path mark)
  | tooManyAliases | endOfDocument | severalDocuments => decide +kernel

/-- What a document with a header is complained about for is told in full unless that announces a
place, in a key that is shown or on the way to it. -/
theorem summary_of_complaint {text : String} {rest : List Char} (htext : text.toList = '#' :: rest)
    {what : Complaint} {path : List Segment} {mark : Mark}
    (hread : read text = .error (.complaint what path mark)) :
    (complaint what path mark).summary = (complaint what path mark).problem ↔
      ¬Announces (complaint what path mark).problem.toList := by
  have hmark : (complaint what path mark).mark? = some mark := rfl
  obtain ⟨place, hmessage⟩ := exists_place hmark (isPlaced_of_read htext hread)
  exact summary_eq_iff_of_message hmessage

/-! ## What is left -/

/-- An error that is told with a line and a column behind some words is told without them in just
these words if and only if they do not announce a place themselves.  In any case it is told in
what is in front of the first place that its message announces. -/
theorem summary_eq_iff {problem : String} {line column : Nat}
    (hmessage : error.message =
      problem ++ " at line " ++ toString line ++ " column " ++ toString column) :
    (error.summary = problem ↔ ¬Announces problem.toList) ∧
      ¬Announces error.summary.toList ∧
        ∃ behind, error.message = error.summary ++ " at line " ++ behind := by
  have hplaced : error.message =
      problem ++ " at line " ++ (toString line ++ " column " ++ toString column) := by
    rw [hmessage]
    simp only [String.append_assoc]
  obtain ⟨behind, hfirst⟩ := exists_behind_summary hplaced
  exact ⟨summary_eq_iff_of_message hplaced, (summary_eq_iff_of_message hfirst).mp rfl, behind,
    hfirst⟩

/-- A key that nearly announces a place. -/
theorem summary_of_near_place :
    let error := complaint (.duplicateKey (.string "x at line")) []
      { index := 11, line := 1, column := 0 }
    error.message = "duplicate entry with key \"x at line\"" ++ " at line " ++ toString 2 ++
        " column " ++ toString 1 ∧
      error.summary = "duplicate entry with key \"x at line\"" := by
  intro error
  have hmessage : error.message = "duplicate entry with key \"x at line\"" ++ " at line " ++
      toString 2 ++ " column " ++ toString 1 := by decide
  exact ⟨hmessage, (summary_eq_iff hmessage).1.mpr (by decide)⟩

theorem exists_error_of_told {text message summary : String}
    (htold : (match read text with
      | .error error => some (error.message, error.summary)
      | .ok _ => none) = some (message, summary)) :
    ∃ error, read text = .error error ∧ error.message = message ∧ error.summary = summary := by
  cases hread : read text with
  | error error =>
      rw [hread] at htold
      obtain ⟨hmessage, hsummary⟩ := Prod.mk.inj (Option.some.inj htold)
      exact ⟨error, rfl, hmessage, hsummary⟩
  | ok value =>
      rw [hread] at htold
      contradiction

/-- What is wrong is not told in full where a key that is there twice announces a place, nor where
a key on the way to one does: there not even the way is. -/
theorem complaints_cut_short :
    (∃ error, read "#%RAML 1.0\ntitle: x\na at line b: 1\na at line b: 2\n" = .error error ∧
      error.message = "duplicate entry with key \"a at line b\"" ++ " at line " ++ toString 2 ++
        " column " ++ toString 1 ∧
      error.summary = "duplicate entry with key \"a") ∧
    ∃ error, read "#%RAML 1.0\ntypes:\n  seen at line one: \x7ba: 1, a: 2\x7d\n" = .error error ∧
      error.message = "types.seen at line one: duplicate entry with key \"a\"" ++ " at line " ++
        toString 3 ++ " column " ++ toString 21 ∧
      error.summary = "types.seen" := by
  constructor <;> exact exists_error_of_told (by decide +kernel)

end RamlCheck.Yaml.Error
