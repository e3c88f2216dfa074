import DriverAudit.Proofs.Files.PathBytes
import DriverAudit.Proofs.Report.Tallies
import Mathlib.Data.List.Pairwise

/-!
# The ranking does not depend on who came first

Findings are ranked by their number and then by path. Both comparisons are
lawful, so the ranking is a total preorder, and a stable sort by it says
exactly where each finding goes: above all that rank below it, and behind those
that rank equal and came earlier (`Ranks`).

Findings rank equal only if they are as many on spellings of one path. Where
that does not happen, sorting leaves no choice, and outcomes that arrive in
another order make the same report, except for the order of the failures.
-/

namespace DriverAudit

/-! ## The order of findings -/

instance : Std.TransCmp rank :=
  have : Std.TransCmp fun a b : ScanResult => compare a.matchCount b.matchCount :=
    transCmp_by ScanResult.matchCount
  have : Std.TransCmp fun a b : ScanResult => compare b.matchCount a.matchCount :=
    Std.TransCmp.opposite
  have : Std.TransCmp fun a b : ScanResult => Path.order a.path b.path :=
    transCmp_by ScanResult.path
  inferInstanceAs (Std.TransCmp (compareLex _ _))

/-- **Findings that rank equal** are as many, on spellings of one path. -/
theorem rank_eq_iff {a b : ScanResult} :
    rank a b = .eq ↔ a.matchCount = b.matchCount
      ∧ Path.components a.path = Path.components b.path := by
  rw [rank, compareLex_eq_eq, Std.compare_eq_iff_eq, Path.order_eq_iff, eq_comm]

/-- **What ranks first** has more findings, or as many on an earlier path. -/
theorem rank_lt_iff {a b : ScanResult} :
    rank a b = .lt ↔ b.matchCount < a.matchCount
      ∨ (a.matchCount = b.matchCount ∧ Path.order a.path b.path = .lt) := by
  rw [rank, compareLex, Ordering.then_eq_lt, Nat.compare_eq_lt,
    Std.compare_eq_iff_eq, eq_comm]

/-- **Paths that are not text rank by their bytes**, with the text of as many
characters in their place. -/
theorem rank_ofBytes (a b : ScanResult) (p q : List UInt8) :
    rank { a with path := Path.ofBytes p } { b with path := Path.ofBytes q }
      = (compare b.matchCount a.matchCount).then (Path.byteOrder p q) := by
  rw [← Path.order_ofBytes]
  rfl

/-! ## Stable sorting -/

section Sorting

variable {α : Type} {cmp : α → α → Ordering} [h : Std.TransCmp cmp]

theorem isLE_or_isLE (a b : α) :
    ((cmp a b).isLE || (cmp b a).isLE) = true := by
  rw [h.eq_swap (a := b)]
  cases cmp a b <;> rfl

theorem isLE_trans (a b c : α) (hab : (cmp a b).isLE = true)
    (hbc : (cmp b c).isLE = true) : (cmp a c).isLE = true :=
  h.isLE_trans hab hbc

/-- What is sorted by a lawful comparison ascends. -/
theorem pairwise_isLE_mergeSort (l : List α) :
    (l.mergeSort fun a b => (cmp a b).isLE).Pairwise
      fun a b => (cmp a b).isLE = true :=
  List.pairwise_mergeSort isLE_trans isLE_or_isLE l

/-- **Elements that compare as equal keep their order.** -/
theorem filter_isEq_mergeSort (l : List α) (x : α) :
    (l.mergeSort fun a b => (cmp a b).isLE).filter (fun y => (cmp x y).isEq)
      = l.filter fun y => (cmp x y).isEq := by
  -- the equal ones ascend as they stand, so sorting leaves them in order
  have hequal : (l.filter fun y => (cmp x y).isEq).Pairwise
      fun a b => (cmp a b).isLE = true := by
    refine List.pairwise_of_forall_mem_list fun a ha b hb => ?_
    have ha := Ordering.isEq_iff_eq_eq.1 (List.mem_filter.1 ha).2
    have hb := Ordering.isEq_iff_eq_eq.1 (List.mem_filter.1 hb).2
    rw [← h.congr_left ha, hb]
    rfl
  have hsublist := List.sublist_mergeSort isLE_trans isLE_or_isLE hequal
    List.filter_sublist
  have hperm := (l.mergeSort_perm fun a b => (cmp a b).isLE).filter
    fun y => (cmp x y).isEq
  refine (List.Sublist.eq_of_length ?_ hperm.length_eq.symm).symm
  have hfilter := hsublist.filter fun y => (cmp x y).isEq
  simpa only [List.filter_filter, Bool.and_self] using hfilter

/-- **Sorting forgets the order of what is sorted** as long as elements that
compare as equal are equal. -/
theorem mergeSort_eq_of_perm {l l' : List α} (hperm : l.Perm l')
    (hdistinct : ∀ a ∈ l, ∀ b ∈ l, cmp a b = .eq → a = b) :
    (l.mergeSort fun a b => (cmp a b).isLE)
      = l'.mergeSort fun a b => (cmp a b).isLE := by
  refine List.Perm.eq_of_pairwise (fun a b ha hb hab hba => ?_)
    (pairwise_isLE_mergeSort l) (pairwise_isLE_mergeSort l')
    ((l.mergeSort_perm _).trans (hperm.trans (l'.mergeSort_perm _).symm))
  refine hdistinct a (List.mem_mergeSort.1 ha) b
    (hperm.mem_iff.2 (List.mem_mergeSort.1 hb)) ?_
  exact h.isLE_antisymm hab hba

end Sorting

/-! ## The report -/

/-- **The flagged results among some outcomes**, in the order in which they
came. -/
def flaggedOf (outcomes : List Outcome) : List ScanResult :=
  (outcomes.filterMap Outcome.result?).filter (·.isFlagged)

/-- **A ranking of some results**: all of them and no others, none before one
that ranks above it, and those that rank equal in the order in which they
came. -/
structure Ranks (recorded ranked : List ScanResult) : Prop where
  perm : ranked.Perm recorded
  ascending : ranked.Pairwise fun a b => (rank a b).isLE = true
  stable : ∀ x, ranked.filter (fun y => (rank x y).isEq)
    = recorded.filter fun y => (rank x y).isEq

section Report

variable (total : Nat) (outcomes : List Outcome)

theorem flagged_ofOutcomes :
    (BatchReport.ofOutcomes total outcomes).value.flagged
      = (flaggedOf outcomes).mergeSort fun a b => (rank a b).isLE :=
  congrArg (List.mergeSort · fun a b => (rank a b).isLE)
    (Tally.accountsFor_foldl total outcomes).flagged

theorem failures_ofOutcomes :
    (BatchReport.ofOutcomes total outcomes).value.failures
      = outcomes.filterMap Outcome.failure? :=
  (Tally.accountsFor_foldl total outcomes).failures

/-- **The findings of a report are ranked.** -/
theorem ranks_flagged_ofOutcomes :
    Ranks (flaggedOf outcomes)
      (BatchReport.ofOutcomes total outcomes).value.flagged := by
  rw [flagged_ofOutcomes]
  exact ⟨List.mergeSort_perm _ _, pairwise_isLE_mergeSort _,
    filter_isEq_mergeSort _⟩

variable {outcomes} {outcomes' : List Outcome}

/-- **Outcomes in another order** make the same list of findings, unless some
that differ rank equal. -/
theorem flagged_ofOutcomes_of_perm (h : outcomes.Perm outcomes')
    (hdistinct : ∀ a ∈ flaggedOf outcomes, ∀ b ∈ flaggedOf outcomes,
      rank a b = .eq → a = b) :
    (BatchReport.ofOutcomes total outcomes).value.flagged
      = (BatchReport.ofOutcomes total outcomes').value.flagged := by
  rw [flagged_ofOutcomes, flagged_ofOutcomes]
  exact mergeSort_eq_of_perm ((h.filterMap Outcome.result?).filter _) hdistinct

/-- The numbers in a report do not depend on the order of the outcomes. -/
theorem counts_ofOutcomes_of_perm (h : outcomes.Perm outcomes') :
    let report := (BatchReport.ofOutcomes total outcomes).value
    let report' := (BatchReport.ofOutcomes total outcomes').value
    report.totalCandidates = report'.totalCandidates
      ∧ report.scanned = report'.scanned ∧ report.clean = report'.clean
      ∧ report.failures.length = report'.failures.length := by
  have hresults := h.filterMap Outcome.result?
  refine ⟨?_, ?_, ?_, ?_⟩
  · exact (Tally.totalCandidates_foldl outcomes (.start total)).trans
      (Tally.totalCandidates_foldl outcomes' (.start total)).symm
  · exact (Tally.accountsFor_foldl total outcomes).scanned.trans
      (hresults.length_eq.trans
        (Tally.accountsFor_foldl total outcomes').scanned.symm)
  · exact (Tally.accountsFor_foldl total outcomes).clean.trans
      ((hresults.countP_eq _).trans
        (Tally.accountsFor_foldl total outcomes').clean.symm)
  · rw [failures_ofOutcomes, failures_ofOutcomes]
    exact (h.filterMap Outcome.failure?).length_eq

end Report

/-- **A report ranks its findings, whatever their order of arrival.** Ranking
is a total preorder: more findings come first, equally many ascend by their
paths, and those on spellings of one path rank equal. Texts compare as their
bytes in UTF-8 do, and findings at paths that are not text rank as if each byte
were a character, so all this is true of any bytes that name a file.

A report has the findings that were recorded and no others, sorted, with those
that rank equal as they came, and it has the failures as they came. So the
outcomes in another order give the same findings and the same numbers, unless
two different findings are as many on spellings of one path. -/
theorem findings_ranked :
    ((∀ a, rank a a = .eq)
      ∧ (∀ a b, (rank a b).isLE = true ∨ (rank b a).isLE = true)
      ∧ (∀ a b c, (rank a b).isLE = true → (rank b c).isLE = true
          → (rank a c).isLE = true)
      ∧ (∀ a b, rank a b = .lt ↔ b.matchCount < a.matchCount
          ∨ (a.matchCount = b.matchCount ∧ Path.order a.path b.path = .lt))
      ∧ ∀ a b, rank a b = .eq ↔ a.matchCount = b.matchCount
          ∧ Path.components a.path = Path.components b.path)
    ∧ ((∀ p q : String,
          Path.byteOrder p.toUTF8.data.toList q.toUTF8.data.toList
            = Path.order p q)
      ∧ ∀ (a b : ScanResult) (p q : List UInt8),
          rank { a with path := Path.ofBytes p }
              { b with path := Path.ofBytes q }
            = (compare b.matchCount a.matchCount).then (Path.byteOrder p q))
    ∧ (∀ total outcomes,
        Ranks (flaggedOf outcomes)
            (BatchReport.ofOutcomes total outcomes).value.flagged
          ∧ (BatchReport.ofOutcomes total outcomes).value.failures
            = outcomes.filterMap Outcome.failure?)
    ∧ ∀ total (outcomes outcomes' : List Outcome), outcomes.Perm outcomes'
        → (∀ a ∈ flaggedOf outcomes, ∀ b ∈ flaggedOf outcomes,
            a.matchCount = b.matchCount
              → Path.components a.path = Path.components b.path → a = b)
        → let report := (BatchReport.ofOutcomes total outcomes).value
          let report' := (BatchReport.ofOutcomes total outcomes').value
          report.flagged = report'.flagged
            ∧ report.totalCandidates = report'.totalCandidates
            ∧ report.scanned = report'.scanned
            ∧ report.clean = report'.clean
            ∧ report.failures.length = report'.failures.length := by
  refine ⟨⟨fun a => Std.ReflCmp.compare_self,
    fun a b => Bool.or_eq_true_iff.1 (isLE_or_isLE a b), isLE_trans,
    fun a b => rank_lt_iff, fun a b => rank_eq_iff⟩,
    ⟨Path.byteOrder_toUTF8, rank_ofBytes⟩,
    fun total outcomes => ⟨ranks_flagged_ofOutcomes total outcomes,
      failures_ofOutcomes total outcomes⟩,
    fun total outcomes outcomes' hperm hdistinct => ?_⟩
  refine ⟨flagged_ofOutcomes_of_perm total hperm fun a ha b hb hab => ?_,
    counts_ofOutcomes_of_perm total hperm⟩
  obtain ⟨hcount, hpath⟩ := rank_eq_iff.1 hab
  exact hdistinct a ha b hb hcount hpath

/-- A driver in which one name was found. -/
def ScanResult.sample (path : String) : ScanResult where
  path := path
  architecture := .pe32Plus
  machine := .x86_64
  importedCount := 4
  matched := ⟨["MmMapIoSpace"], List.pairwise_singleton _ _⟩

/-- Two drivers in one directory are ranked alike in either order. Two
spellings of one path rank equal. -/
theorem findings_ranked_sample :
    (BatchReport.ofOutcomes 2 [.ok (.sample "/d/b.sys"),
          .ok (.sample "/d//a.sys")]).value.flagged
        = (BatchReport.ofOutcomes 2 [.ok (.sample "/d//a.sys"),
          .ok (.sample "/d/b.sys")]).value.flagged
      ∧ rank (.sample "/d//a.sys") (.sample "/d/./a.sys") = .eq := by
  obtain ⟨⟨_, _, _, _, hequal⟩, _, _, hperm⟩ := findings_ranked
  exact ⟨(hperm 2 _ _ (List.Perm.swap _ _ []) (by decide)).1,
    (hequal _ _).2 (by decide)⟩

end DriverAudit
