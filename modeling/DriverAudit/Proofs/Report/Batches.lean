import DriverAudit.Batch
import DriverAudit.Proofs.Report.Tallies
import DriverAudit.Proofs.Scan.BuiltImages

/-!
# A batch loses no candidate and invents none

What becomes of a candidate is settled by the answer of the system for its
path: the file cannot be opened, or it is too large, or its contents cannot be
scanned, or there is a result (`Scanner.obstacle?`, `Scanner.finding?`). That
says nothing of batches, of tallies or of the other candidates.

The report of a batch is put together from these answers and from nothing
else. It has an entry for each occurrence of a path in the list of candidates,
whatever the number of workers.
-/

namespace DriverAudit

namespace Scanner

variable (s : Scanner) (answer : String → FileAnswer)

/-- **What a scan gets to see of a candidate**, by the answer of the system: the
contents of a file that is not larger than the limit. A directory is looked at
like a file; one that has a size cannot be mapped. -/
def seen : FileAnswer → Except OpenError ByteArray
  | .ok d =>
    if s.maxFileSize < d.size then .error (.tooLarge s.maxFileSize d.size)
    else .ok d
  | .error (.directory size) =>
    if s.maxFileSize < size then .error (.tooLarge s.maxFileSize size)
    else if size = 0 then .ok .empty
    else .error (.system (.coded 19))
  | .error e => .error (.system e)

/-- **What keeps the candidate at a path from being scanned**, if anything
does. -/
def obstacle? (path : String) : Option ScanCause :=
  match s.seen (answer path) with
  | .error e => some (.file e)
  | .ok d =>
    match (s.scanBytes path d).value with
    | .error f => some f.cause
    | .ok _ => none

/-- **What is found in the candidate at a path**: the scan of the full contents
of a file that may be read. -/
def finding? (path : String) : Option ScanResult :=
  match s.seen (answer path) with
  | .error _ => none
  | .ok d => (s.scanBytes path d).value.toOption

/-- The entry of a candidate among the failures, if it has one. -/
def failedScan? (path : String) : Option FailedScan :=
  (s.obstacle? answer path).map fun cause => ⟨path, cause.message⟩

/-- A failure carries the path of the candidate. -/
theorem path_of_scanBytes_eq_error {path : String} {d : ByteArray}
    {f : ScanFailure} (h : (s.scanBytes path d).value = .error f) :
    f.path = path := by
  rw [scanBytes_value] at h
  split at h
  · cases h
    rfl
  · split at h
    · cases h
      rfl
    · cases h

/-- Reading a candidate gives what a scan gets to see of it. -/
theorem readBounded_value (path : String) (a : FileAnswer) :
    (readBounded path s.maxFileSize a).value = s.seen a := by
  -- whatever was opened, its size is looked at first
  have hsized : ∀ (size : Nat) (mapped : Except FileError ByteArray),
      openedFile a = .ok (size, mapped) →
      (readBounded path s.maxFileSize a).value
        = if s.maxFileSize < size then .error (.tooLarge s.maxFileSize size)
          else mapped.mapError .system := by
    intro size mapped hopened
    unfold readBounded checkSize
    rw [hopened]
    by_cases h : s.maxFileSize < size
    · simp only [Traced.value_bind, if_pos h]
      rfl
    · simp only [Traced.value_bind, if_neg h]
      rfl
  unfold seen
  split
  case h_1 d => exact hsized d.size (.ok d) rfl
  case h_2 size =>
    rw [hsized size _ rfl]
    by_cases hzero : size = 0
    · rw [if_pos hzero, if_pos hzero]
      rfl
    · rw [if_neg hzero, if_neg hzero]
      rfl
  case h_3 e hother =>
    have hopened : openedFile (.error e) = .error e := by
      unfold openedFile
      split
      case h_1 h => cases h
      case h_2 size h => exact absurd (Except.error.inj h) (hother size)
      case h_3 h => rw [Except.error.inj h]
    unfold readBounded
    rw [hopened]
    rfl

/-- The outcome of a candidate, given the answer of the system. -/
theorem scanFile_value (path : String) (a : FileAnswer) :
    (s.scanFile path a).value
      = match s.seen a with
        | .error e => .error ⟨path, .file e⟩
        | .ok d => (s.scanBytes path d).value := by
  rw [← s.readBounded_value path a]
  unfold scanFile
  simp only [Traced.value_bind]
  cases (readBounded path s.maxFileSize a).value <;> rfl

/-- **An outcome is a result when something is found.** -/
theorem result?_scanFile (path : String) :
    Outcome.result? (s.scanFile path (answer path)).value
      = s.finding? answer path := by
  rw [scanFile_value]
  unfold finding?
  cases s.seen (answer path) <;> rfl

/-- **An outcome is a failure when there is an obstacle**, which is its
reason. -/
theorem failure?_scanFile (path : String) :
    Outcome.failure? (s.scanFile path (answer path)).value
      = s.failedScan? answer path := by
  rw [scanFile_value]
  unfold failedScan? obstacle?
  cases s.seen (answer path) with
  | error e => rfl
  | ok d =>
    dsimp only
    cases hscan : (s.scanBytes path d).value with
    | ok r => rfl
    | error f =>
      have hpath := s.path_of_scanBytes_eq_error hscan
      show some f.toFailedScan = some ⟨path, f.cause.message⟩
      rw [← hpath]
      rfl

/-- A file that is not too large is scanned. -/
theorem scanFile_value_ok {path : String} {d : ByteArray}
    (hsize : d.size ≤ s.maxFileSize) :
    (s.scanFile path (.ok d)).value = (s.scanBytes path d).value := by
  have hseen : s.seen (.ok d) = .ok d := if_neg (Nat.not_lt.2 hsize)
  rw [scanFile_value, hseen]

/-- The outcomes of candidates come in the order of their paths. -/
theorem outcomes_value (paths : List String) :
    (s.outcomes answer paths).value
      = paths.map fun path => (s.scanFile path (answer path)).value := by
  induction paths with
  | nil => rfl
  | cons path rest ih =>
    rw [List.map_cons, ← ih]
    rfl

/-- The findings among the outcomes of candidates. -/
theorem filterMap_result?_scanFile (paths : List String) :
    (paths.map fun path => (s.scanFile path (answer path)).value).filterMap
        Outcome.result?
      = paths.filterMap (s.finding? answer) := by
  rw [List.filterMap_map]
  exact congrArg (paths.filterMap ·) (funext (s.result?_scanFile answer))

/-- The failures among the outcomes of candidates. -/
theorem filterMap_failure?_scanFile (paths : List String) :
    (paths.map fun path => (s.scanFile path (answer path)).value).filterMap
        Outcome.failure?
      = paths.filterMap (s.failedScan? answer) := by
  rw [List.filterMap_map]
  exact congrArg (paths.filterMap ·) (funext (s.failure?_scanFile answer))

end Scanner

/-- The report of a batch is that of the tally of its outcomes. -/
theorem scanBatch_value (s : Scanner) (workers : Nat)
    (answer : String → FileAnswer) (paths : List String) :
    (scanBatch s workers answer paths).value
      = ((paths.map fun path => (s.scanFile path (answer path)).value).foldl
          Tally.record (.start paths.length)).report := by
  rw [← s.outcomes_value answer paths]
  rfl

/-- The report of a batch counts all of its candidates. -/
theorem totalCandidates_scanBatch (s : Scanner) (workers : Nat)
    (answer : String → FileAnswer) (paths : List String) :
    (scanBatch s workers answer paths).value.totalCandidates
      = paths.length := by
  rw [scanBatch_value]
  exact Tally.totalCandidates_foldl _ _

/-- **The report of a batch accounts for every candidate.** Failures come in
the order of the list, each with the text of what kept it from being scanned;
the flagged drivers are the findings with a match, in some order; the clean
ones are counted. Every candidate is in exactly one of the three, and so it is
at any moment of adding up. -/
theorem scanBatch_report (s : Scanner) (workers : Nat)
    (answer : String → FileAnswer) (paths : List String) :
    (scanBatch s workers answer paths).value.totalCandidates = paths.length
      ∧ (scanBatch s workers answer paths).value.failures
        = paths.filterMap (s.failedScan? answer)
      ∧ (scanBatch s workers answer paths).value.flagged.Perm
        ((paths.filterMap (s.finding? answer)).filter
          (fun r => !r.matched.isEmpty))
      ∧ (scanBatch s workers answer paths).value.clean
        = (paths.filterMap (s.finding? answer)).countP
          (fun r => r.matched.isEmpty)
      ∧ (scanBatch s workers answer paths).value.scanned
        = (scanBatch s workers answer paths).value.clean
          + (scanBatch s workers answer paths).value.flagged.length
      ∧ (scanBatch s workers answer paths).value.scanned
          + (scanBatch s workers answer paths).value.failures.length
        = (scanBatch s workers answer paths).value.totalCandidates
      ∧ ∀ (total : Nat) (outcomes : List Outcome),
        let t := outcomes.foldl Tally.record (.start total)
        t.scanned = t.clean + t.flagged.size
          ∧ t.scanned + t.failures.size = outcomes.length := by
  have hresults := s.filterMap_result?_scanFile answer paths
  have hfailures := s.filterMap_failure?_scanFile answer paths
  rw [scanBatch_value]
  generalize houtcomes : (paths.map fun path =>
    (s.scanFile path (answer path)).value) = outcomes at hresults hfailures
  have hlength : outcomes.length = paths.length := by
    rw [← houtcomes, List.length_map]
  -- what is true of the tally of any outcomes, at those of the candidates
  have hall := Tally.accountsFor_foldl paths.length outcomes
  have htotal := Tally.totalCandidates_foldl outcomes (.start paths.length)
  have hperm := List.mergeSort_perm
    (outcomes.foldl Tally.record (.start paths.length)).flagged.toList
    (fun a b => (rank a b).isLE)
  refine ⟨htotal, ?_, ?_, ?_, ?_, ?_, fun total outcomes => ?_⟩
  · rw [← hfailures]
    exact hall.failures
  · rw [← hresults]
    exact hall.flagged ▸ hperm
  · rw [← hresults]
    refine hall.clean.trans (List.countP_congr (fun r _ => ?_))
    unfold ScanResult.isFlagged
    rw [Bool.not_not]
  · refine hall.scanned_eq.trans ?_
    rw [← Array.length_toList, ← hperm.length_eq]
    rfl
  · refine Eq.trans ?_ (hlength.trans htotal.symm)
    exact hall.balanced
  · have haccounts := Tally.accountsFor_foldl total outcomes
    exact ⟨haccounts.scanned_eq, haccounts.balanced⟩

/-- A file that is found under one path, and a directory under another. -/
def sampleAnswer (path : String) : FileAnswer :=
  if path = "found.sys" then .ok Blueprint.sample.build
  else if path = "folder.sys" then .error (.directory 4096)
  else .error .notFound

/-- The failure at the path of the directory. -/
def sampleUnmappable : FailedScan :=
  ⟨"folder.sys", "An underlying I/O error occurred: "
    ++ "No such device (os error 19)"⟩

/-- The failure at a path to nothing. -/
def sampleMissing : FailedScan :=
  ⟨"gone.sys", "An underlying I/O error occurred: "
    ++ "No such file or directory (os error 2)"⟩

/-- What is found in the file. -/
def sampleFinding : ScanResult :=
  sampleScanner.resultOf "found.sys" Blueprint.sample.headers
    Blueprint.sample.importedTable

/-- The driver imports one target, from two modules of one name. -/
theorem names_matched_sampleFinding :
    sampleFinding.matched.names = ["MmMapIoSpace"] := by
  have himported : (Blueprint.sample.importedTable.entries.filterMap
      (·.name?)).mergeSort (fun a b => decide (a ≤ b))
        = ["MmMapIoSpace", "MmMapIoSpace"] :=
    List.mergeSort_of_pairwise (by decide)
  have htarget : sampleScanner.targets.contains "MmMapIoSpace" = true :=
    decide_eq_true (NameSet.mem_ofList.2 (by decide))
  show List.filter _ (NameSet.dropRepeats _) = _
  rw [himported]
  exact List.filter_cons_of_pos htarget

theorem scanFile_sample :
    (sampleScanner.scanFile "found.sys" (.ok Blueprint.sample.build)).value
      = .ok sampleFinding := by
  have hsize : Blueprint.sample.build.size ≤ sampleScanner.maxFileSize := by
    rw [Blueprint.size_build]
    decide
  exact (sampleScanner.scanFile_value_ok hsize).trans
    (scanBytes_sample "found.sys")

/-- A batch that finds a driver twice and fails on two other paths. -/
theorem scanBatch_report_sample :
    let report := (scanBatch sampleScanner 2 sampleAnswer
      ["gone.sys", "found.sys", "folder.sys", "found.sys"]).value
    report.totalCandidates = 4
      ∧ report.failures = [sampleMissing, sampleUnmappable]
      ∧ report.flagged = [sampleFinding, sampleFinding]
      ∧ report.clean = 0
      ∧ report.scanned = 2 := by
  intro report
  obtain ⟨htotal, hfailures, hflagged, hclean, hscanned, _, _⟩ :=
    scanBatch_report sampleScanner 2 sampleAnswer
      ["gone.sys", "found.sys", "folder.sys", "found.sys"]
  have hanswer : sampleAnswer "found.sys" = .ok Blueprint.sample.build :=
    if_pos rfl
  have hfound := sampleScanner.result?_scanFile sampleAnswer "found.sys"
  have hnone := sampleScanner.failure?_scanFile sampleAnswer "found.sys"
  rw [hanswer, scanFile_sample] at hfound hnone
  have hmatched : sampleFinding.matched.isEmpty = false := by
    unfold NameSet.isEmpty
    rw [names_matched_sampleFinding]
    rfl
  -- what the other two paths come to is evaluated
  have hgone : sampleScanner.finding? sampleAnswer "gone.sys" = none := rfl
  have hfolder : sampleScanner.finding? sampleAnswer "folder.sys" = none := rfl
  have hmissing : sampleScanner.failedScan? sampleAnswer "gone.sys"
      = some sampleMissing := by
    decide +kernel
  have hunmappable : sampleScanner.failedScan? sampleAnswer "folder.sys"
      = some sampleUnmappable := by
    decide +kernel
  rw [List.filterMap_cons_none hgone, List.filterMap_cons_some hfound.symm,
    List.filterMap_cons_none hfolder, List.filterMap_cons_some hfound.symm,
    List.filterMap_nil] at hflagged hclean
  rw [List.filterMap_cons_some hmissing, List.filterMap_cons_none hnone.symm,
    List.filterMap_cons_some hunmappable, List.filterMap_cons_none hnone.symm,
    List.filterMap_nil] at hfailures
  have hboth : report.flagged = [sampleFinding, sampleFinding] := by
    have hperm : report.flagged.Perm (List.replicate 2 sampleFinding) := by
      simpa [hmatched] using hflagged
    exact List.perm_replicate.1 hperm
  have hzero : report.clean = 0 := by
    refine hclean.trans ?_
    simp [hmatched]
  refine ⟨htotal, hfailures, hboth, hzero, hscanned.trans ?_⟩
  show report.clean + report.flagged.length = 2
  rw [hboth, hzero]
  rfl

end DriverAudit
