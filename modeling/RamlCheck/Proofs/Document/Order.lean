import Mathlib.Data.Prod.Lex
import Mathlib.Data.String.Basic
import RamlCheck.Proofs.Document.Loading

/-!
# The order of findings

A validator reports what the rules of its registry find in a document, sorted: what is in
the document itself first, then by path, line and column.  `findings_in_order` says that
nothing is lost or added, that findings of one place keep the order of the rules, and that
rules can be left out without moving what the others find.

## Strategy

`Finding.le` is the lexicographic order of four keys (`Finding.le_iff_rank_le`), so it is
transitive and total.  A stable sort puts one more item in front of those it may precede and
behind all others (`mergeSort_cons_split`), so it passes through every filter
(`filter_mergeSort`).  The findings of one place are a filter, and so are the findings of
some rules, once each finding carries the rule that it comes from.
-/

namespace RamlCheck

/-! ## Stable sorting -/

section

variable {Item : Type} {le : Item → Item → Bool}

/-- Where one more item in front goes: the items that it may precede stand behind it, all
others in front of it. -/
theorem mergeSort_cons_split (htrans : ∀ a b c, le a b = true → le b c = true → le a c = true)
    (htotal : ∀ a b, (le a b || le b a) = true) (item : Item) (items : List Item) :
    let before := (items.mergeSort le).filter fun other => !le item other
    let behind := (items.mergeSort le).filter fun other => le item other
    items.mergeSort le = before ++ behind ∧
      (item :: items).mergeSort le = before ++ item :: behind := by
  intro before behind
  obtain ⟨front, back, hcons, hsort, hfront⟩ := List.mergeSort_cons htrans htotal item items
  have hback : ∀ other ∈ back, le item other = true := by
    intro other hother
    have hsorted := List.pairwise_mergeSort htrans htotal (item :: items)
    rw [hcons] at hsorted
    exact List.rel_of_pairwise_cons (List.pairwise_append.mp hsorted).2.1 hother
  -- the item may not precede `front` and may precede `back`, so the filters give them back
  have hbefore : before = front := by
    have hnone : back.filter (fun other => !le item other) = [] := by
      rw [List.filter_eq_nil_iff]
      intro other hother
      simp [hback other hother]
    show (items.mergeSort le).filter _ = front
    rw [hsort, List.filter_append, hnone, List.append_nil, List.filter_eq_self.mpr hfront]
  have hbehind : behind = back := by
    have hnone : front.filter (fun other => le item other) = [] := by
      rw [List.filter_eq_nil_iff]
      intro other hother
      simpa using hfront other hother
    show (items.mergeSort le).filter _ = back
    rw [hsort, List.filter_append, hnone, List.nil_append, List.filter_eq_self.mpr hback]
  rw [hbefore, hbehind]
  exact ⟨hsort, hcons⟩

/-- Leaving items out of a sorted list comes to the same as leaving them out beforehand. -/
theorem filter_mergeSort (htrans : ∀ a b c, le a b = true → le b c = true → le a c = true)
    (htotal : ∀ a b, (le a b || le b a) = true) (keep : Item → Bool) (items : List Item) :
    (items.mergeSort le).filter keep = (items.filter keep).mergeSort le := by
  induction items with
  | nil => simp
  | cons item items ih =>
      obtain ⟨hsort, hcons⟩ := mergeSort_cons_split htrans htotal item items
      -- an item that is kept goes to the same place among those that are kept
      by_cases hkeep : keep item = true
      · have hkept := (mergeSort_cons_split htrans htotal item (items.filter keep)).2
        rw [hcons, List.filter_cons_of_pos hkeep, hkept, ← ih, List.filter_append,
          List.filter_cons_of_pos hkeep]
        simp only [List.filter_filter, Bool.and_comm]
      · rw [hcons, List.filter_cons_of_neg hkeep, ← ih, List.filter_append,
          List.filter_cons_of_neg hkeep, ← List.filter_append, ← hsort]

end

/-! ## What findings are sorted by -/

namespace Finding

/-- What a finding of a document is sorted by: whether it is elsewhere, then its path, its
line and its column. -/
def rank (name : String) (finding : Finding) : Bool ×ₗ String ×ₗ Nat ×ₗ Nat :=
  toLex (finding.isElsewhere name, toLex (finding.path, toLex (finding.line, finding.column)))

theorem le_iff_rank_le (name : String) (first second : Finding) :
    le name first second = true ↔ first.rank name ≤ second.rank name := by
  unfold le rank
  rw [Prod.Lex.toLex_le_toLex, Prod.Lex.toLex_le_toLex, Prod.Lex.toLex_le_toLex]
  by_cases helsewhere : first.isElsewhere name = second.isElsewhere name
  · rw [if_neg (not_not.mpr helsewhere)]
    by_cases hpath : first.path = second.path
    · rw [if_neg (not_not.mpr hpath)]
      by_cases hline : first.line = second.line
      · rw [if_neg (not_not.mpr hline)]
        simp only [helsewhere, hpath, hline, lt_irrefl, false_or, true_and, decide_eq_true_eq]
      · rw [if_pos hline]
        simp only [helsewhere, hpath, hline, lt_irrefl, false_or, true_and, false_and, or_false,
          decide_eq_true_eq]
    · rw [if_pos hpath]
      simp only [helsewhere, hpath, lt_irrefl, false_or, true_and, false_and, or_false,
        decide_eq_true_eq]
  · rw [if_pos helsewhere]
    cases hfirst : first.isElsewhere name <;> cases hsecond : second.isElsewhere name <;>
      simp_all

theorem le_trans (name : String) (first second third : Finding)
    (hfirst : le name first second = true) (hsecond : le name second third = true) :
    le name first third = true := by
  rw [le_iff_rank_le] at hfirst hsecond ⊢
  exact hfirst.trans hsecond

theorem le_total (name : String) (first second : Finding) :
    (le name first second || le name second first) = true := by
  rw [Bool.or_eq_true, le_iff_rank_le, le_iff_rank_le]
  exact Std.le_total

end Finding

/-! ## The findings of some rules -/

/-- What a validator finds.  A document that cannot be entered may have no findings. -/
def Verdict.findings : Verdict → List Finding
  | .ok _ => []
  | .error (.generic _) => []
  | .error (.structured findings _) => findings

/-- A finding with the rule that it comes from. -/
structure Attribution where
  rule : Rule
  finding : Finding

namespace Attribution

def le (name : String) (first second : Attribution) : Bool :=
  Finding.le name first.finding second.finding

theorem le_trans (name : String) (first second third : Attribution)
    (hfirst : le name first second = true) (hsecond : le name second third = true) :
    le name first third = true :=
  Finding.le_trans name _ _ _ hfirst hsecond

theorem le_total (name : String) (first second : Attribution) :
    (le name first second || le name second first) = true :=
  Finding.le_total name _ _

end Attribution

namespace Registry

/-- The rules of a registry that are chosen, in their order. -/
def restrict (registry : Registry) (chosen : Rule → Bool) : Registry :=
  { rules := registry.rules.filter chosen }

end Registry

namespace Document

/-- What the rules of a registry find in a document, rule by rule, with the rules. -/
def attributions (document : Document) (registry : Registry) (files : FileSystem) :
    List Attribution :=
  registry.rules.flatMap fun rule =>
    (rule.check files document).map fun finding => { rule, finding }

variable (document : Document) (registry : Registry) (files : FileSystem)

theorem map_finding_attributions :
    (document.attributions registry files).map (·.finding) = document.findings registry files := by
  simp only [attributions, findings, List.map_flatMap, List.map_map, Function.comp_def,
    List.map_id']

theorem filter_attributions (chosen : Rule → Bool) :
    (document.attributions registry files).filter (fun attribution => chosen attribution.rule) =
      document.attributions (registry.restrict chosen) files := by
  unfold attributions Registry.restrict
  induction registry.rules with
  | nil => rfl
  | cons rule rules ih =>
      rw [List.flatMap_cons, List.filter_append, ih, List.filter_map]
      by_cases hchosen : chosen rule = true
      · have hall : (rule.check files document).filter
            ((fun attribution => chosen attribution.rule) ∘ fun finding =>
              ({ rule, finding } : Attribution)) = rule.check files document :=
          List.filter_eq_self.mpr fun _ _ => hchosen
        rw [hall, List.filter_cons_of_pos hchosen, List.flatMap_cons]
      · have hnone : (rule.check files document).filter
            ((fun attribution => chosen attribution.rule) ∘ fun finding =>
              ({ rule, finding } : Attribution)) = [] :=
          List.filter_eq_nil_iff.mpr fun _ _ => hchosen
        rw [hnone, List.filter_cons_of_neg hchosen, List.map_nil, List.nil_append]

theorem findings_verdict :
    Verdict.findings (document.verdict registry files) =
      document.sortedFindings registry files := by
  unfold verdict
  cases document.sortedFindings registry files with
  | nil => rfl
  | cons finding rest => rfl

/-- Sorting with the rules comes to the same as sorting without them. -/
theorem map_finding_mergeSort (attributions : List Attribution) :
    (attributions.mergeSort (Attribution.le document.name)).map (·.finding) =
      (attributions.map (·.finding)).mergeSort (Finding.le document.name) :=
  List.map_mergeSort fun _ _ _ _ => rfl

end Document

/-- What a validator finds in a document that can be entered is what the rules of its
registry find, rule by rule, in another order.  What is in the document itself comes first;
then paths, lines and columns decide; and findings for which all of these are the same stay
in the order of the rules.  Each finding can be traced to the rule that it comes from in
such a way that those of any chosen rules, as they stand, are what a validator with only
these rules finds. -/
theorem findings_in_order {files : FileSystem} {source : Source} {document : Document}
    (hload : source.load files = .ok document) (registry : Registry) :
    let found := fun registry => Verdict.findings (validator registry files source)
    (found registry).Perm (document.findings registry files) ∧
      (found registry).Pairwise (fun first second =>
        first.rank document.name ≤ second.rank document.name) ∧
      (∀ rank, (found registry).filter (fun finding => finding.rank document.name = rank) =
        (document.findings registry files).filter fun finding =>
          finding.rank document.name = rank) ∧
      ∃ traced : List Attribution,
        traced.Perm (document.attributions registry files) ∧
        traced.map (·.finding) = found registry ∧
        ∀ chosen : Rule → Bool,
          (traced.filter fun attribution => chosen attribution.rule).map (·.finding) =
            found (registry.restrict chosen) := by
  intro found
  have hfound : ∀ registry, found registry = document.sortedFindings registry files := by
    intro registry
    show Verdict.findings (validator registry files source) = _
    rw [validator, hload]
    exact document.findings_verdict registry files
  have htrans := Finding.le_trans document.name
  have htotal := Finding.le_total document.name
  refine ⟨?_, ?_, fun rank => ?_, ?_⟩
  · rw [hfound]
    exact List.mergeSort_perm _ _
  · rw [hfound]
    refine (List.pairwise_mergeSort htrans htotal _).imp ?_
    intro first second hle
    exact (Finding.le_iff_rank_le document.name first second).mp hle
  · rw [hfound, Document.sortedFindings, filter_mergeSort htrans htotal]
    -- among findings of one rank any order is sorted, so sorting leaves them as they are
    refine List.mergeSort_of_pairwise (List.pairwise_of_forall_mem_list ?_)
    intro first hfirst second hsecond
    rw [List.mem_filter, decide_eq_true_eq] at hfirst hsecond
    rw [Finding.le_iff_rank_le, hfirst.2, hsecond.2]
  · refine ⟨(document.attributions registry files).mergeSort (Attribution.le document.name),
      List.mergeSort_perm _ _, ?_, fun chosen => ?_⟩
    · rw [hfound, document.map_finding_mergeSort, document.map_finding_attributions]
      rfl
    · rw [hfound, filter_mergeSort (Attribution.le_trans document.name)
          (Attribution.le_total document.name), document.filter_attributions,
        document.map_finding_mergeSort, document.map_finding_attributions]
      rfl

/-- Three rules find something each, and not in the order of the lines. -/
theorem findings_in_order_of_lines :
    let source := Source.content "STDIN" "#%RAML 1.0\n/users: none\nsummary: y\n"
    let files := FileSystem.ofList []
    ∃ document, source.load files = .ok document ∧
      (document.findings .builtin files).map (·.line) = [1, 3, 2] ∧
      (Verdict.findings (validator .builtin files source)).Perm
        (document.findings .builtin files) ∧
      (Verdict.findings (validator .builtin files source)).Pairwise fun first second =>
        first.rank document.name ≤ second.rank document.name := by
  intro source files
  have hlines : (source.load files).toOption.map
      (fun document => (document.findings .builtin files).map (·.line)) = some [1, 3, 2] := by
    decide +kernel
  cases hload : source.load files with
  | error failure => simp [hload, Except.toOption] at hlines
  | ok document =>
      rw [hload] at hlines
      have horder := findings_in_order hload .builtin
      exact ⟨document, rfl, Option.some.inj hlines, horder.1, horder.2.1⟩

end RamlCheck
