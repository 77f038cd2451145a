import RamlCheck.File.Basic

/-!
# A file is found from its directory

The name of a file looked up from the directory of its path is the file again
(`equivalent_join_fileName`), however the path is spelt: `parent?` leaves out what says
nothing, and `join` brings back a slash only where one is missing.

## Strategy

A path is an anchor, its root or a leading `.`, and a body.  The components of the body
are those of its parts, `named`, and parts are told apart by slashes, so `named` of two
texts with a slash between them is `named` of both.  `dropSilent` changes nothing in
`named`, and what it leaves ends with a part that says something.

Neither the name of a file nor its directory has a character that its path does not have
(`fileName?_subset`, `directory_subset`).
-/

namespace RamlCheck.Path

/-- The components that the parts of a text stand for, wherever they are in a path. -/
def named (chars : List Char) : List Component :=
  (parts chars).filterMap inner?

/-- The first part of a text. -/
def firstPart (chars : List Char) : List Char :=
  chars.takeWhile (· ≠ '/')

/-- The component of the anchor of a path. -/
def anchorOf (chars : List Char) : List Component :=
  if chars.head? = some '/' then [.root]
  else if firstPart chars = ['.'] then [.current]
  else []

/-! ## Parts -/

theorem parts_ne_nil (chars : List Char) : parts chars ≠ [] := by
  cases chars with
  | nil => simp [parts]
  | cons char rest =>
      simp only [parts]
      split
      · simp
      · split <;> simp

theorem parts_cons_of_ne {char : Char} (hchar : char ≠ '/') {rest part : List Char}
    {others : List (List Char)} (hrest : parts rest = part :: others) :
    parts (char :: rest) = (char :: part) :: others := by
  simp only [parts, if_neg hchar, hrest]

/-- A slash parts what is in front of it from what is behind. -/
theorem parts_append (front behind : List Char) :
    parts (front ++ '/' :: behind) = parts front ++ parts behind := by
  induction front with
  | nil => simp [parts]
  | cons char rest ih =>
      by_cases hchar : char = '/'
      · simp [parts, hchar, ih]
      · obtain ⟨part, others, hparts⟩ := List.exists_cons_of_ne_nil (parts_ne_nil rest)
        rw [hparts, List.cons_append] at ih
        rw [List.cons_append, parts_cons_of_ne hchar hparts, parts_cons_of_ne hchar ih,
          List.cons_append]

theorem parts_of_no_slash {part : List Char} (hslash : '/' ∉ part) : parts part = [part] := by
  induction part with
  | nil => rfl
  | cons char rest ih =>
      rw [List.mem_cons, not_or] at hslash
      exact parts_cons_of_ne (Ne.symm hslash.1) (ih hslash.2)

theorem parts_eq_firstPart (chars : List Char) :
    ∃ others, parts chars = firstPart chars :: others := by
  induction chars with
  | nil => exact ⟨[], rfl⟩
  | cons char rest ih =>
      obtain ⟨others, hparts⟩ := ih
      by_cases hchar : char = '/'
      · exact ⟨parts rest, by simp [parts, firstPart, hchar]⟩
      · refine ⟨others, ?_⟩
        rw [parts_cons_of_ne hchar hparts]
        simp [firstPart, hchar]

@[simp] theorem named_nil : named [] = [] := rfl

theorem named_append (front behind : List Char) :
    named (front ++ '/' :: behind) = named front ++ named behind := by
  rw [named, parts_append, List.filterMap_append]
  rfl

theorem named_of_no_slash {part : List Char} (hslash : '/' ∉ part) :
    named part = (inner? part).toList := by
  rw [named, parts_of_no_slash hslash]
  cases hinner : inner? part <;> simp [hinner]

/-! ## Anchor and body -/

/-- A path that starts with a part `.` has it as its anchor. -/
theorem exists_of_firstPart_current {chars : List Char} (hfirst : firstPart chars = ['.']) :
    chars = ['.'] ∨ ∃ rest, chars = '.' :: '/' :: rest := by
  cases chars with
  | nil => simp [firstPart] at hfirst
  | cons char rest =>
      by_cases hchar : char = '/'
      · simp [firstPart, hchar] at hfirst
      · simp only [firstPart, List.takeWhile_cons, decide_eq_true hchar, if_true,
          List.cons.injEq] at hfirst
        obtain ⟨rfl, hnone⟩ := hfirst
        cases rest with
        | nil => exact .inl rfl
        | cons next rest =>
            by_cases hnext : next = '/'
            · exact .inr ⟨rest, by rw [hnext]⟩
            · simp [hnext] at hnone

theorem anchorLength_of_none {chars : List Char} (hhead : chars.head? ≠ some '/')
    (hfirst : firstPart chars ≠ ['.']) : anchorLength chars = 0 := by
  unfold anchorLength
  split
  · exact absurd rfl hhead
  · exact absurd rfl hfirst
  · exact absurd rfl hfirst
  · rfl

/-- The components of a path are that of its anchor and those of its body. -/
theorem components_eq (path : String) :
    components path = anchorOf path.toList ++
      named (path.toList.drop (anchorLength path.toList)) := by
  obtain ⟨others, hparts⟩ := parts_eq_firstPart path.toList
  unfold components isAbsolute anchorOf
  rw [hparts]
  by_cases hcurrent : firstPart path.toList = ['.']
  · rcases exists_of_firstPart_current hcurrent with hchars | ⟨rest, hchars⟩
    · rw [hchars] at hparts ⊢
      obtain ⟨-, rfl⟩ := List.cons.inj hparts
      rfl
    · rw [hchars] at hparts ⊢
      obtain ⟨-, rfl⟩ := List.cons.inj hparts
      rfl
  · by_cases hhead : path.toList.head? = some '/'
    · cases hchars : path.toList with
      | nil => simp [hchars] at hhead
      | cons char rest =>
          rw [hchars] at hparts hhead hcurrent
          cases hhead
          obtain ⟨-, rfl⟩ := List.cons.inj hparts
          rfl
    · rw [anchorLength_of_none hhead hcurrent, List.drop_zero, named, hparts]
      simp only [if_neg hcurrent, hhead, decide_false, Bool.false_eq_true, if_false,
        List.nil_append]
      cases hinner : inner? (firstPart path.toList) <;> simp [hinner]

/-! ## Parts at the end that say nothing -/

/-- The last part of a text, from its characters in reverse. -/
def lastPart (reversed : List Char) : List Char :=
  (reversed.takeWhile (· ≠ '/')).reverse

theorem slash_not_mem_lastPart (reversed : List Char) : '/' ∉ lastPart reversed := by
  rw [lastPart, List.mem_reverse]
  intro hmem
  have hne := List.all_eq_true.mp List.all_takeWhile '/' hmem
  simp at hne

/-- A text is its last part and, if there is a slash, what is in front of it. -/
theorem reverse_cases (reversed : List Char) :
    (dropPart reversed = [] ∧ reversed.reverse = lastPart reversed) ∨
      reversed.reverse = (dropPart reversed).reverse ++ '/' :: lastPart reversed := by
  have hsplit := List.takeWhile_append_dropWhile (p := fun char : Char => char ≠ '/')
    (l := reversed)
  cases hdrop : reversed.dropWhile (· ≠ '/') with
  | nil =>
      rw [hdrop, List.append_nil] at hsplit
      refine .inl ⟨by rw [dropPart, hdrop, List.drop_nil], ?_⟩
      rw [lastPart, hsplit]
  | cons char rest =>
      have hhead := List.head?_dropWhile_not (fun char : Char => char ≠ '/') reversed
      rw [hdrop] at hhead
      have hchar : char = '/' := by simpa using hhead
      subst hchar
      have hreverse := congrArg List.reverse hsplit
      rw [hdrop, List.reverse_append, List.reverse_cons, List.append_assoc] at hreverse
      refine .inr ?_
      rw [← hreverse, dropPart, hdrop]
      rfl

theorem named_reverse (reversed : List Char) :
    named reversed.reverse =
      named (dropPart reversed).reverse ++ (inner? (lastPart reversed)).toList := by
  have hlast := named_of_no_slash (slash_not_mem_lastPart reversed)
  rcases reverse_cases reversed with ⟨hdrop, hreverse⟩ | hreverse
  · rw [hreverse, hdrop, hlast]
    rfl
  · rw [hreverse, named_append, hlast]

theorem length_dropPart_lt {reversed : List Char} (hne : reversed ≠ []) :
    (dropPart reversed).length < reversed.length := by
  have hpositive := List.length_pos_iff.mpr hne
  have hle := (List.dropWhile_sublist (l := reversed) fun char : Char => char ≠ '/').length_le
  rw [dropPart, List.length_drop]
  omega

/-- Whether the last part of a text says nothing, from its characters in reverse. -/
theorem inner?_lastPart_eq_none_iff (reversed : List Char) :
    inner? (lastPart reversed) = none ↔
      reversed.takeWhile (· ≠ '/') = [] ∨ reversed.takeWhile (· ≠ '/') = ['.'] := by
  have hsilent : ∀ part : List Char, inner? part = none ↔ part = [] ∨ part = ['.'] := by
    intro part
    unfold inner?
    split
    · next hpart => simp [hpart]
    · next hpart =>
      split <;> simp [hpart]
  rw [hsilent, lastPart, List.reverse_eq_nil_iff, List.reverse_eq_iff]
  rfl

/-- Parts that say nothing do not count among the components. -/
theorem named_dropSilent (fuel : Nat) (reversed : List Char) :
    named (dropSilent fuel reversed).reverse = named reversed.reverse := by
  induction fuel generalizing reversed with
  | zero => rfl
  | succ fuel ih =>
      simp only [dropSilent]
      split
      · next hnil => rw [hnil]
      split
      · next hsilent =>
        have hnone := (inner?_lastPart_eq_none_iff reversed).mpr hsilent
        rw [ih, named_reverse reversed, hnone]
        simp
      · rfl

/-- What is left ends with a part that says something. -/
theorem inner?_dropSilent_ne_none {fuel : Nat} {reversed : List Char}
    (hfuel : reversed.length ≤ fuel) (hne : dropSilent fuel reversed ≠ []) :
    inner? (lastPart (dropSilent fuel reversed)) ≠ none := by
  induction fuel generalizing reversed with
  | zero =>
      rw [List.length_eq_zero_iff.mp (Nat.le_zero.mp hfuel)] at hne
      exact absurd rfl hne
  | succ fuel ih =>
      simp only [dropSilent] at hne ⊢
      split at hne
      · exact absurd rfl hne
      · next hreversed =>
        rw [if_neg hreversed]
        split at hne
        · next hsilent =>
          have hlength := length_dropPart_lt hreversed
          rw [if_pos hsilent]
          exact ih (by omega) hne
        · next hsilent =>
          rw [if_neg hsilent]
          exact fun hnone => hsilent ((inner?_lastPart_eq_none_iff reversed).mp hnone)

/-! ## Fronts -/

/-- A text is cut off in front of a slash or at its end, or as a whole. -/
def IsFront (front whole : List Char) : Prop :=
  front = [] ∨ ∃ back, whole = front ++ back ∧ ∀ char ∈ back.head?, char = '/'

theorem isFront_refl (whole : List Char) : IsFront whole whole :=
  .inr ⟨[], by simp, by simp⟩

theorem IsFront.trans {first second third : List Char} (hfirst : IsFront first second)
    (hsecond : IsFront second third) : IsFront first third := by
  rcases hfirst with rfl | ⟨back, rfl, hback⟩
  · exact .inl rfl
  · rcases hsecond with hnil | ⟨behind, rfl, hbehind⟩
    · exact .inl (List.append_eq_nil_iff.mp hnil).1
    · refine .inr ⟨back ++ behind, by simp, ?_⟩
      cases back with
      | nil => simpa using hbehind
      | cons char back => simpa using hback

theorem IsFront.length_le {front whole : List Char} (hfront : IsFront front whole) :
    front.length ≤ whole.length := by
  rcases hfront with rfl | ⟨back, rfl, -⟩
  · exact Nat.zero_le _
  · rw [List.length_append]
    omega

theorem isFront_dropPart (reversed : List Char) :
    IsFront (dropPart reversed).reverse reversed.reverse := by
  rcases reverse_cases reversed with ⟨hdrop, -⟩ | hreverse
  · rw [hdrop]
    exact .inl rfl
  · rw [hreverse]
    exact .inr ⟨_, rfl, by simp⟩

theorem isFront_dropSilent (fuel : Nat) (reversed : List Char) :
    IsFront (dropSilent fuel reversed).reverse reversed.reverse := by
  induction fuel generalizing reversed with
  | zero => exact isFront_refl _
  | succ fuel ih =>
      simp only [dropSilent]
      split
      · exact .inl rfl
      split
      · exact (ih _).trans (isFront_dropPart reversed)
      · exact isFront_refl _

theorem firstPart_append (front : List Char) {back : List Char}
    (hback : ∀ char ∈ back.head?, char = '/') :
    firstPart (front ++ back) = firstPart front := by
  induction front with
  | nil =>
      cases back with
      | nil => rfl
      | cons char back => simp [firstPart, hback char (by simp)]
  | cons char front ih =>
      by_cases hchar : char = '/'
      · simp [firstPart, hchar]
      · have hpass : ∀ rest, firstPart (char :: rest) = char :: firstPart rest := by
          intro rest
          simp [firstPart, hchar]
        rw [List.cons_append, hpass, hpass, ih]

/-! ## A part below a directory -/

/-- The components of a path, from its characters. -/
def componentsOf (chars : List Char) : List Component :=
  anchorOf chars ++ named (chars.drop (anchorLength chars))

/-- A part looked up from a directory, from their characters. -/
def below (base part : List Char) : List Char :=
  if base = [] ∨ base.getLast? = some '/' then base ++ part else base ++ '/' :: part

theorem componentsOf_root (body : List Char) : componentsOf ('/' :: body) = .root :: named body :=
  rfl

theorem componentsOf_current {body : List Char} (hbody : body.head? = some '/') :
    componentsOf ('.' :: body) = .current :: named body := by
  cases body with
  | nil => simp at hbody
  | cons char body =>
      rw [List.head?_cons, Option.some.injEq] at hbody
      subst hbody
      rfl

theorem componentsOf_of_none {chars : List Char} (hhead : chars.head? ≠ some '/')
    (hfirst : firstPart chars ≠ ['.']) : componentsOf chars = named chars := by
  rw [componentsOf, anchorOf, if_neg hhead, if_neg hfirst, anchorLength_of_none hhead hfirst]
  rfl

theorem below_of_last {base part : List Char} (hne : base ≠ [])
    (hlast : base.getLast? ≠ some '/') : below base part = base ++ '/' :: part := by
  rw [below, if_neg]
  rintro (hnil | hslash)
  · exact hne hnil
  · exact hlast hslash

section Below

variable {chars front part : List Char}

theorem named_of_inner {component : Component} (hslash : '/' ∉ part)
    (hpart : inner? part = some component) : named part = [component] := by
  rw [named_of_no_slash hslash, hpart]
  rfl

theorem componentsOf_below_root (hlast : front.getLast? ≠ some '/') :
    componentsOf (below ('/' :: front) part) = [.root] ++ named front ++ named part := by
  cases front with
  | nil =>
      have hbelow : below ['/'] part = '/' :: part := rfl
      rw [hbelow, componentsOf_root]
      rfl
  | cons char front =>
      have hbelow : below ('/' :: char :: front) part = '/' :: (char :: front ++ '/' :: part) :=
        below_of_last (by simp) (by rwa [List.getLast?_cons_cons])
      rw [hbelow, componentsOf_root, named_append]
      rfl

theorem componentsOf_below_current (hlast : front.getLast? ≠ some '/')
    (hstart : front = [] ∨ front.head? = some '/') :
    componentsOf (below ('.' :: front) part) = [.current] ++ named front ++ named part := by
  have hbelow : below ('.' :: front) part = '.' :: (front ++ '/' :: part) := by
    refine below_of_last (by simp) ?_
    cases front with
    | nil => decide
    | cons char front => rwa [List.getLast?_cons_cons]
  have hbody : (front ++ '/' :: part).head? = some '/' := by
    rcases hstart with rfl | hstart
    · rfl
    · rw [List.head?_append, hstart]
      rfl
  rw [hbelow, componentsOf_current hbody, named_append]
  rfl

/-- The front of the body of a path that starts with a dot ends in front of a slash. -/
theorem exists_front_of_current (hcurrent : firstPart chars = ['.'])
    (hfront : IsFront front (chars.drop (anchorLength chars))) :
    chars.take (anchorLength chars) = ['.'] ∧ (front = [] ∨ front.head? = some '/') := by
  rcases exists_of_firstPart_current hcurrent with rfl | ⟨body, rfl⟩
  · refine ⟨rfl, .inl ?_⟩
    rcases hfront with hnil | ⟨back, hback, -⟩
    · exact hnil
    · exact (List.append_eq_nil_iff.mp hback.symm).1
  · refine ⟨rfl, ?_⟩
    rcases hfront with hnil | ⟨back, hback, -⟩
    · exact .inl hnil
    · cases front with
      | nil => exact .inl rfl
      | cons char front => exact .inr (congrArg some (List.cons.inj hback).1.symm)

theorem componentsOf_below_named {component : Component} (hhead : chars.head? ≠ some '/')
    (hcurrent : firstPart chars ≠ ['.']) (hfront : IsFront front chars)
    (hlast : front.getLast? ≠ some '/') (hslash : '/' ∉ part)
    (hpart : inner? part = some component) :
    componentsOf (below front part) = named front ++ named part := by
  by_cases hnil : front = []
  · -- then the part comes first, and it is no dot, which would be an anchor
    obtain ⟨others, hparts⟩ := parts_eq_firstPart part
    rw [parts_of_no_slash hslash] at hparts
    have hpartFirst : firstPart part ≠ ['.'] := by
      rw [← (List.cons.inj hparts).1]
      rintro rfl
      simp [inner?] at hpart
    have hpartHead : part.head? ≠ some '/' := fun hsome => hslash (List.mem_of_mem_head? hsome)
    have hbelow : below [] part = part := rfl
    rw [hnil, hbelow, componentsOf_of_none hpartHead hpartFirst]
    rfl
  · obtain ⟨back, rfl, hback⟩ := hfront.resolve_left hnil
    have hfirst : firstPart (front ++ '/' :: part) = firstPart (front ++ back) := by
      rw [firstPart_append front hback, firstPart_append front (by simp)]
    have hsame : (front ++ '/' :: part).head? = (front ++ back).head? := by
      cases front with
      | nil => exact absurd rfl hnil
      | cons char front => rfl
    rw [below_of_last hnil hlast, componentsOf_of_none (by rwa [hsame]) (by rwa [hfirst]),
      named_append]

/-- A part below the anchor of a path and the front of its body stands where the front
ends. -/
theorem componentsOf_below {component : Component}
    (hfront : IsFront front (chars.drop (anchorLength chars)))
    (hlast : front.getLast? ≠ some '/') (hslash : '/' ∉ part)
    (hpart : inner? part = some component) :
    componentsOf (below (chars.take (anchorLength chars) ++ front) part) =
      anchorOf chars ++ named front ++ [component] := by
  rw [← named_of_inner hslash hpart]
  by_cases hhead : chars.head? = some '/'
  · obtain ⟨body, rfl⟩ : ∃ body, chars = '/' :: body := by
      cases chars with
      | nil => simp at hhead
      | cons char body => exact ⟨body, by rw [Option.some.inj hhead]⟩
    exact componentsOf_below_root hlast
  by_cases hcurrent : firstPart chars = ['.']
  · obtain ⟨htake, hstart⟩ := exists_front_of_current hcurrent hfront
    have hanchor : anchorOf chars = [.current] := by rw [anchorOf, if_neg hhead, if_pos hcurrent]
    rw [htake, hanchor]
    exact componentsOf_below_current hlast hstart
  · have hlength := anchorLength_of_none hhead hcurrent
    rw [hlength, List.drop_zero] at hfront
    rw [hlength, List.take_zero, List.nil_append, anchorOf, if_neg hhead, if_neg hcurrent,
      List.nil_append]
    exact componentsOf_below_named hhead hcurrent hfront hlast hslash hpart

end Below

/-! ## The name of a file -/

theorem toList_join (base part : List Char) (hslash : '/' ∉ part) :
    (join (String.ofList base) (String.ofList part)).toList = below base part := by
  have habsolute : isAbsolute (String.ofList part) = false := by
    rw [isAbsolute, String.toList_ofList, decide_eq_false_iff_not]
    exact fun hsome => hslash (List.mem_of_mem_head? hsome)
  have hempty : String.ofList base = "" ↔ base = [] := by
    rw [← String.toList_inj, String.toList_ofList]
    rfl
  simp only [join, habsolute, Bool.false_eq_true, if_false, hempty, String.toList_ofList, below]
  split
  · simp
  · simp

theorem getLast?_dropSilent {fuel : Nat} {reversed : List Char}
    (hfuel : reversed.length ≤ fuel) :
    (dropSilent fuel reversed).reverse.getLast? ≠ some '/' := by
  intro hlast
  have hne : dropSilent fuel reversed ≠ [] := by
    intro hnil
    simp [hnil] at hlast
  have hsome := inner?_dropSilent_ne_none hfuel hne
  rw [List.getLast?_reverse] at hlast
  cases hreversed : dropSilent fuel reversed with
  | nil => exact hne hreversed
  | cons char rest =>
      rw [hreversed] at hlast hsome
      cases hlast
      exact hsome ((inner?_lastPart_eq_none_iff _).mpr (.inl (by simp)))

theorem inner?_eq_some_name {part : List Char} {text : String}
    (hinner : inner? part = some (.name text)) : text = String.ofList part := by
  unfold inner? at hinner
  split at hinner
  · simp at hinner
  · split at hinner
    · simp at hinner
    · simpa using hinner.symm

theorem directory_eq {path : String} {reversed : List Char}
    (hreversed : dropSilent path.toList.length
      (path.toList.drop (anchorLength path.toList)).reverse = reversed) (hne : reversed ≠ []) :
    directory path = String.ofList (path.toList.take (anchorLength path.toList) ++
      (dropSilent path.toList.length (dropPart reversed)).reverse) := by
  simp only [directory, parent?, hreversed, if_neg hne, Option.getD_some]

theorem not_name_of_mem_anchorOf {chars : List Char} {text : String} :
    Component.name text ∉ anchorOf chars := by
  unfold anchorOf
  split
  · simp
  · split <;> simp

/-- The name of a file, looked up from the directory of its path, is the file. -/
theorem equivalent_join_fileName {path name : String} (hname : fileName? path = some name) :
    equivalent (join (directory path) name) path = true := by
  have hcomponents := components_eq path
  generalize hanchor : anchorLength path.toList = anchor at hcomponents
  generalize hbody : path.toList.drop anchor = body at hcomponents
  have hlength : body.reverse.length ≤ path.toList.length := by
    rw [List.length_reverse, ← hbody, List.length_drop]
    omega
  generalize hreversed : dropSilent path.toList.length body.reverse = reversed
  have hnamed : named body = named reversed.reverse := by
    rw [← hreversed, named_dropSilent, List.reverse_reverse]
  -- the last component is a name, so it is not the anchor
  have hlastName : (components path).getLast? = some (.name name) := by
    unfold fileName? at hname
    split at hname
    · next text hlast => rw [hlast, Option.some.inj hname]
    · simp at hname
  have hne : reversed ≠ [] := by
    rintro rfl
    rw [hcomponents, hnamed, List.reverse_nil, named_nil, List.append_nil] at hlastName
    exact not_name_of_mem_anchorOf (List.mem_of_mem_getLast? hlastName)
  obtain ⟨component, hcomponent⟩ := Option.ne_none_iff_exists'.mp
    (hreversed ▸ inner?_dropSilent_ne_none hlength (hreversed ▸ hne))
  -- what is in front of the name, and the parts there that say nothing left out
  have hshort : (dropPart reversed).length ≤ path.toList.length := by
    have hfront := (isFront_dropSilent path.toList.length body.reverse).length_le
    rw [hreversed, List.length_reverse, List.length_reverse] at hfront
    exact Nat.le_trans (Nat.le_of_lt (length_dropPart_lt hne)) (Nat.le_trans hfront hlength)
  generalize hfront : (dropSilent path.toList.length (dropPart reversed)).reverse = front
  have hsplit : named body = named front ++ [component] := by
    rw [hnamed, named_reverse, hcomponent, ← hfront, named_dropSilent]
    rfl
  have hisFront : IsFront front body := by
    have hwhole := isFront_dropSilent path.toList.length body.reverse
    rw [hreversed, List.reverse_reverse] at hwhole
    rw [← hfront]
    exact ((isFront_dropSilent _ _).trans (isFront_dropPart reversed)).trans hwhole
  have hlast : front.getLast? ≠ some '/' := hfront ▸ getLast?_dropSilent hshort
  rw [hcomponents, hsplit, ← List.append_assoc, List.getLast?_concat] at hlastName
  obtain rfl := Option.some.inj hlastName
  have hpart := inner?_eq_some_name hcomponent
  have hdirectory : directory path = String.ofList (path.toList.take anchor ++ front) := by
    rw [← hfront, ← hanchor]
    refine directory_eq ?_ hne
    rw [hanchor, hbody, hreversed]
  have hbelow := componentsOf_below (hanchor ▸ hbody ▸ hisFront) hlast
    (slash_not_mem_lastPart reversed) hcomponent
  have hjoin := toList_join (path.toList.take anchor ++ front) (lastPart reversed)
    (slash_not_mem_lastPart reversed)
  rw [hanchor] at hbelow
  rw [equivalent, decide_eq_true_eq, hdirectory, hpart, components_eq, hjoin, hcomponents, hsplit,
    ← List.append_assoc]
  exact hbelow

/-! ## The characters of a path -/

theorem subset_of_mem_parts {chars part : List Char} (hpart : part ∈ parts chars) :
    part ⊆ chars := by
  induction chars generalizing part with
  | nil =>
      rw [List.mem_singleton.mp hpart]
      exact List.Subset.refl _
  | cons char rest ih =>
      by_cases hchar : char = '/'
      · rw [parts, if_pos hchar] at hpart
        rcases List.mem_cons.mp hpart with rfl | hpart
        · exact List.nil_subset _
        · exact List.subset_cons_of_subset char (ih hpart)
      · cases hparts : parts rest with
        | nil => exact absurd hparts (parts_ne_nil rest)
        | cons first others =>
            rw [hparts] at ih
            rw [parts, if_neg hchar, hparts] at hpart
            rcases List.mem_cons.mp hpart with rfl | hpart
            · exact List.cons_subset_cons char (ih List.mem_cons_self)
            · exact List.subset_cons_of_subset char (ih (List.mem_cons_of_mem _ hpart))

/-- The name of a file is made of characters of its path. -/
theorem fileName?_subset {path name : String} (hname : fileName? path = some name) :
    name.toList ⊆ path.toList := by
  unfold fileName? at hname
  split at hname
  · next text hlast =>
    obtain rfl := Option.some.inj hname
    have hmem := List.mem_of_mem_getLast? hlast
    rw [components_eq, List.mem_append] at hmem
    obtain ⟨part, hpart, hinner⟩ :=
      List.mem_filterMap.mp (hmem.resolve_left not_name_of_mem_anchorOf)
    rw [inner?_eq_some_name hinner, String.toList_ofList]
    exact List.Subset.trans (subset_of_mem_parts hpart) (List.drop_subset _ _)
  · contradiction

theorem IsFront.subset {front whole : List Char} (hfront : IsFront front whole) :
    front ⊆ whole := by
  rcases hfront with rfl | ⟨back, rfl, -⟩
  · exact List.nil_subset _
  · exact List.subset_append_left _ _

/-- The directory of a path is made of characters of the path. -/
theorem directory_subset (path : String) : (directory path).toList ⊆ path.toList := by
  generalize hreversed : dropSilent path.toList.length
    (path.toList.drop (anchorLength path.toList)).reverse = reversed
  by_cases hne : reversed = []
  · simp only [directory, parent?, hreversed, if_pos hne]
    split <;> exact List.nil_subset _
  · have hbody : (dropSilent path.toList.length (dropPart reversed)).reverse ⊆
        path.toList.drop (anchorLength path.toList) := by
      have hwhole := isFront_dropSilent path.toList.length
        (path.toList.drop (anchorLength path.toList)).reverse
      rw [hreversed, List.reverse_reverse] at hwhole
      exact (((isFront_dropSilent _ _).trans (isFront_dropPart reversed)).trans hwhole).subset
    rw [directory_eq hreversed hne, String.toList_ofList]
    exact List.append_subset.mpr
      ⟨List.take_subset _ _, List.Subset.trans hbody (List.drop_subset _ _)⟩

end RamlCheck.Path
