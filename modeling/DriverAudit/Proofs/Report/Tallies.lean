import DriverAudit.Report.Tally

/-!
# A tally accounts for every outcome

The fields of a tally can each be read off the outcomes that were added to it:
the failures and the findings in the order in which they came, the clean
results by their number. `Tally.AccountsFor` says so of all fields at once.
Adding one outcome keeps it, and so it holds of every tally that was made by
adding outcomes one at a time, however many.
-/

namespace DriverAudit

/-- The result of an outcome, if it has one. -/
def Outcome.result? (o : Outcome) : Option ScanResult := o.toOption

/-- The entry of an outcome among the failures, if it is one. -/
def Outcome.failure? : Outcome → Option FailedScan
  | .ok _ => none
  | .error f => some f.toFailedScan

namespace Tally

/-- **A tally that accounts for some outcomes.** -/
structure AccountsFor (t : Tally) (outcomes : List Outcome) : Prop where
  failures : t.failures.toList = outcomes.filterMap Outcome.failure?
  flagged : t.flagged.toList
    = (outcomes.filterMap Outcome.result?).filter (·.isFlagged)
  clean : t.clean
    = (outcomes.filterMap Outcome.result?).countP (fun r => !r.isFlagged)
  scanned : t.scanned = (outcomes.filterMap Outcome.result?).length

/-- The tally without outcomes accounts for none. -/
theorem accountsFor_start (total : Nat) : (start total).AccountsFor [] :=
  ⟨rfl, rfl, rfl, rfl⟩

theorem record_of_isFlagged (t : Tally) {r : ScanResult}
    (h : r.isFlagged = true) :
    t.record (.ok r)
      = { t with scanned := t.scanned + 1, flagged := t.flagged.push r } :=
  if_pos h

theorem record_of_not_isFlagged (t : Tally) {r : ScanResult}
    (h : r.isFlagged = false) :
    t.record (.ok r)
      = { t with scanned := t.scanned + 1, clean := t.clean + 1 } :=
  if_neg (Bool.not_eq_true _ ▸ h)

section Record

variable {t : Tally} {outcomes : List Outcome}

/-- A failure is put behind the failures and changes nothing else. -/
theorem AccountsFor.record_error (h : t.AccountsFor outcomes)
    (f : ScanFailure) : (t.record (.error f)).AccountsFor
      (outcomes ++ [.error f]) := by
  have hresults : (outcomes ++ [Except.error f]).filterMap Outcome.result?
      = outcomes.filterMap Outcome.result? :=
    List.filterMap_append.trans (List.append_nil _)
  refine ⟨?_, ?_, ?_, ?_⟩
  · rw [List.filterMap_append, ← h.failures]
    exact Array.toList_push
  · rw [hresults]
    exact h.flagged
  · rw [hresults]
    exact h.clean
  · rw [hresults]
    exact h.scanned

/-- What a result does to a tally is seen in the number of results, among the
findings if it is flagged, and in the number of clean ones if not. -/
theorem AccountsFor.of_result (h : t.AccountsFor outcomes) {t' : Tally}
    {r : ScanResult} (hfailures : t'.failures = t.failures)
    (hflagged : t'.flagged.toList
      = t.flagged.toList ++ [r].filter (·.isFlagged))
    (hclean : t'.clean = t.clean + [r].countP (fun r => !r.isFlagged))
    (hscanned : t'.scanned = t.scanned + 1) :
    t'.AccountsFor (outcomes ++ [.ok r]) := by
  have hresults : (outcomes ++ [Except.ok r]).filterMap Outcome.result?
      = outcomes.filterMap Outcome.result? ++ [r] :=
    List.filterMap_append
  have hnone : (outcomes ++ [Except.ok r]).filterMap Outcome.failure?
      = outcomes.filterMap Outcome.failure? :=
    List.filterMap_append.trans (List.append_nil _)
  refine ⟨?_, ?_, ?_, ?_⟩
  · rw [hfailures, hnone]
    exact h.failures
  · rw [hflagged, hresults, List.filter_append, h.flagged]
  · rw [hclean, hresults, List.countP_append, h.clean]
  · rw [hscanned, hresults, List.length_append, h.scanned]
    rfl

/-- **Adding an outcome accounts for it.** -/
theorem AccountsFor.record (h : t.AccountsFor outcomes) (o : Outcome) :
    (t.record o).AccountsFor (outcomes ++ [o]) := by
  cases o with
  | error f => exact h.record_error f
  | ok r =>
    cases hr : r.isFlagged with
    | true =>
      rw [record_of_isFlagged t hr]
      refine h.of_result rfl ?_ ?_ rfl
      · rw [List.filter_cons_of_pos hr]
        exact Array.toList_push
      · rw [List.countP_singleton, hr]
        rfl
    | false =>
      rw [record_of_not_isFlagged t hr]
      refine h.of_result rfl ?_ ?_ rfl
      · rw [List.filter_cons_of_neg (Bool.not_eq_true _ ▸ hr)]
        exact (List.append_nil _).symm
      · rw [List.countP_singleton, hr]
        rfl

end Record

/-- Adding outcomes keeps the number of candidates. -/
theorem totalCandidates_foldl (outcomes : List Outcome) (t : Tally) :
    (outcomes.foldl record t).totalCandidates = t.totalCandidates := by
  induction outcomes generalizing t with
  | nil => rfl
  | cons o rest ih =>
    rw [List.foldl_cons, ih]
    unfold record
    split
    · split <;> rfl
    · rfl

/-- **A tally accounts for all outcomes that were added to it.** -/
theorem AccountsFor.foldl {t : Tally} {before : List Outcome}
    (h : t.AccountsFor before) (outcomes : List Outcome) :
    (outcomes.foldl Tally.record t).AccountsFor (before ++ outcomes) := by
  induction outcomes generalizing t before with
  | nil =>
    rw [List.append_nil]
    exact h
  | cons o rest ih =>
    have hrest := ih (h.record o)
    rwa [List.append_assoc] at hrest

theorem accountsFor_foldl (total : Nat) (outcomes : List Outcome) :
    (outcomes.foldl record (start total)).AccountsFor outcomes :=
  (accountsFor_start total).foldl outcomes

/-! ## What follows for the numbers -/

section Balance

variable {t : Tally} {outcomes : List Outcome}

/-- **Every scanned candidate is either clean or flagged.** -/
theorem AccountsFor.scanned_eq (h : t.AccountsFor outcomes) :
    t.scanned = t.clean + t.flagged.size := by
  have hsize : t.flagged.size
      = (outcomes.filterMap Outcome.result?).countP (·.isFlagged) := by
    rw [← Array.length_toList, h.flagged, List.countP_eq_length_filter]
  rw [h.scanned, h.clean, hsize,
    List.length_eq_countP_add_countP (fun r : ScanResult => r.isFlagged),
    Nat.add_comm]
  simp only [Bool.not_eq_true, Bool.decide_eq_false]

/-- Each outcome is either a result or a failure. -/
theorem length_results_add_length_failures (outcomes : List Outcome) :
    (outcomes.filterMap Outcome.result?).length
        + (outcomes.filterMap Outcome.failure?).length
      = outcomes.length := by
  induction outcomes with
  | nil => rfl
  | cons o rest ih =>
    cases o with
    | error f =>
      show _ + ((rest.filterMap Outcome.failure?).length + 1)
        = rest.length + 1
      rw [← ih, ← Nat.add_assoc]
      rfl
    | ok r =>
      show (rest.filterMap Outcome.result?).length + 1 + _ = rest.length + 1
      rw [← ih, Nat.add_right_comm]
      rfl

/-- **No outcome is lost and none is invented.** -/
theorem AccountsFor.balanced (h : t.AccountsFor outcomes) :
    t.scanned + t.failures.size = outcomes.length := by
  rw [h.scanned, ← Array.length_toList, h.failures,
    length_results_add_length_failures]

end Balance

end Tally

end DriverAudit
