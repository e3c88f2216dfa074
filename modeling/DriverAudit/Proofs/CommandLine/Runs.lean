import DriverAudit.CommandLine
import DriverAudit.Proofs.Candidates.Grammar
import DriverAudit.Proofs.Files.Writes
import DriverAudit.Proofs.Report.Batches

/-!
# How a run ends, and what it leaves behind

A run is refused for what it is given: too few or too many arguments, a file of
settings that cannot be used, or an index that cannot be read as text. Then it
ends with exit code 1, has printed nothing on the standard output and has
changed no file. Nothing else is an obstacle to a run. Candidates that cannot be
scanned are part of its report, and a report that cannot be written is
mentioned.

A run that is carried out reads all that it reads from the files as they were
before, and writes one file. So the report is the same whether or not it takes
the place of the index, of the settings or of a candidate.
-/

namespace DriverAudit.CommandLine

/-! ## Runs that are refused -/

/-- **A file of settings that cannot be used**, by what the system answers to
reading it. -/
inductive UnusableSettings (answer : FileAnswer) : Prop where
  | unread (cause : FileError) (h : answer = .error cause)
  | noText (d : ByteArray) (h : answer = .ok d)
      (htext : String.fromUTF8? d = none)
  /-- The text is no document, or the document does not have the form of
  settings. -/
  | malformed (d : ByteArray) (text : String) (h : answer = .ok d)
      (htext : String.fromUTF8? d = some text)
      (hform : (Json.parse text).bind Settings.ofJson? = none)
  /-- There is nothing to look for. -/
  | noTarget (d : ByteArray) (text : String) (settings : Settings)
      (h : answer = .ok d) (htext : String.fromUTF8? d = some text)
      (hform : (Json.parse text).bind Settings.ofJson? = some settings)
      (htargets : settings.targets = [])

/-- **An index that cannot be used.** -/
inductive UnusableIndex (answer : FileAnswer) : Prop where
  | unread (cause : FileError) (h : answer = .error cause)
  | noText (d : ByteArray) (h : answer = .ok d)
      (htext : String.fromUTF8? d = none)

/-- **A run that is refused**, by its arguments and by the files that it finds.
The first argument names the index, and the second one the settings. -/
inductive Refused (arguments : List String) (store : FileStore) : Prop where
  | usage (h : arguments.length ≠ 1 ∧ arguments.length ≠ 2)
  | settings (index settings : String) (h : arguments = [index, settings])
      (hsettings : UnusableSettings (store.read settings))
  | index (index : String) (rest : List String) (h : arguments = index :: rest)
      (hrest : rest.length ≤ 1) (hindex : UnusableIndex (store.read index))

theorem exists_load_eq_error_iff (path : String) (answer : FileAnswer) :
    (∃ e, Settings.load path answer = .error e) ↔ UnusableSettings answer := by
  unfold Settings.load Settings.parse
  cases hanswer : answer with
  | error cause =>
    exact iff_of_true ⟨_, rfl⟩ (.unread cause rfl)
  | ok d =>
    dsimp only
    cases htext : String.fromUTF8? d with
    | none => exact iff_of_true ⟨_, rfl⟩ (.noText d rfl htext)
    | some text =>
      dsimp only
      cases hform : (Json.parse text).bind Settings.ofJson? with
      | none =>
        exact iff_of_true ⟨_, rfl⟩ (.malformed d text rfl htext hform)
      | some settings =>
        dsimp only
        by_cases htargets : settings.targets = []
        · rw [if_pos (List.isEmpty_iff.2 htargets)]
          exact iff_of_true ⟨_, rfl⟩
            (.noTarget d text settings rfl htext hform htargets)
        · rw [if_neg (mt List.isEmpty_iff.1 htargets)]
          refine iff_of_false (fun ⟨_, h⟩ => by cases h) ?_
          rintro (⟨_, h⟩ | ⟨_, h, ht⟩ | ⟨_, _, h, ht, hf⟩ | ⟨_, _, _, h, ht, hf, hs⟩)
          · cases h
          · cases h
            rw [htext] at ht
            cases ht
          · cases h
            cases htext.symm.trans ht
            cases hform.symm.trans hf
          · cases h
            cases htext.symm.trans ht
            cases hform.symm.trans hf
            exact htargets hs

theorem exists_loadCandidates_eq_error_iff (index : String)
    (extensions : List String) (answer : FileAnswer) :
    (∃ e, (loadCandidates index extensions answer).value = .error e)
      ↔ UnusableIndex answer := by
  unfold loadCandidates FileIndex.read
  cases hanswer : answer with
  | error cause => exact iff_of_true ⟨_, rfl⟩ (.unread cause rfl)
  | ok d =>
    dsimp only [Except.bind]
    cases htext : String.fromUTF8? d with
    | none => exact iff_of_true ⟨_, rfl⟩ (.noText d rfl htext)
    | some text =>
      refine iff_of_false (fun ⟨_, h⟩ => by cases h) ?_
      rintro (⟨_, h⟩ | ⟨_, h, ht⟩)
      · cases h
      · cases h
        cases htext.symm.trans ht

/-- **A request that is refused**: its settings cannot be used, or its index
cannot. -/
def Request.IsRefused (r : Request) (answer : String → FileAnswer) : Prop :=
  (∃ path, r.settings? = some path ∧ UnusableSettings (answer path))
    ∨ UnusableIndex (answer r.index)

theorem exists_readSettings_eq_error_iff {r : Request}
    {answer : String → FileAnswer} :
    (∃ e, readSettings r answer = .error e)
      ↔ ∃ path, r.settings? = some path ∧ UnusableSettings (answer path) := by
  unfold readSettings
  cases r.settings? with
  | none => exact iff_of_false (fun ⟨_, h⟩ => by cases h) (by simp)
  | some path =>
    simp only [Option.some.injEq, exists_eq_left']
    rw [← exists_load_eq_error_iff path]
    cases Settings.load path (answer path) with
    | error e => exact iff_of_true ⟨_, rfl⟩ ⟨_, rfl⟩
    | ok settings =>
      exact iff_of_false (fun ⟨_, h⟩ => by cases h) (fun ⟨_, h⟩ => by cases h)

/-- **Preparing a run** refuses it, or reads its settings and its
candidates. -/
theorem prepare_cases (r : Request) (answer : String → FileAnswer) :
    (r.IsRefused answer ∧ ∃ refusal,
      (prepare r answer).value = .error refusal)
    ∨ (¬ r.IsRefused answer ∧ ∃ plan,
      (prepare r answer).value = .ok plan
      ∧ readSettings r answer = .ok plan.settings
      ∧ (loadCandidates r.index plan.settings.extensions
          (answer r.index)).value = .ok plan.candidates) := by
  unfold prepare Request.IsRefused
  rw [← exists_readSettings_eq_error_iff]
  cases readSettings r answer with
  | error e => exact Or.inl ⟨Or.inl ⟨e, rfl⟩, e, rfl⟩
  | ok settings =>
    rw [← exists_loadCandidates_eq_error_iff r.index settings.extensions]
    simp only [Traced.value_bind]
    cases hload : (loadCandidates r.index settings.extensions
        (answer r.index)).value with
    | error cause => exact Or.inl ⟨Or.inr ⟨cause, rfl⟩, _, rfl⟩
    | ok candidates =>
      refine Or.inr ⟨?_, _, rfl, rfl, hload⟩
      rintro (⟨_, h⟩ | ⟨_, h⟩) <;> cases h

/-- **A run is refused** when its arguments are no request, or one that is
refused. -/
theorem refused_iff {arguments : List String} {store : FileStore} :
    Refused arguments store
      ↔ ∀ r, Request.ofArguments? arguments = some r →
        r.IsRefused store.read := by
  constructor
  · rintro (⟨hone, htwo⟩ | ⟨index, settings, rfl, hbad⟩
      | ⟨index, rest, rfl, hrest, hbad⟩) r hr
    · -- only one and two arguments make a request
      unfold Request.ofArguments? at hr
      split at hr
      · exact absurd rfl hone
      · exact absurd rfl htwo
      · cases hr
    · cases hr
      exact Or.inl ⟨settings, rfl, hbad⟩
    · match rest, hrest with
      | [], _ =>
        cases hr
        exact Or.inr hbad
      | [settings], _ =>
        cases hr
        exact Or.inr hbad
  · intro h
    match arguments with
    | [] => exact .usage ⟨by decide, by decide⟩
    | [index] =>
      rcases h ⟨index, none⟩ rfl with ⟨_, hpath, _⟩ | hbad
      · cases hpath
      · exact .index index [] rfl (by decide) hbad
    | [index, settings] =>
      rcases h ⟨index, some settings⟩ rfl with ⟨path, hpath, hbad⟩ | hbad
      · cases hpath
        exact .settings index settings rfl hbad
      · exact .index index [settings] rfl (Nat.le_refl 1) hbad
    | _ :: _ :: _ :: rest => exact .usage ⟨by simp, by simp⟩

/-! ## Runs that are carried out -/

/-- **The summary of a report**, with its counts. -/
def summaryLines (r : BatchReport) : List String :=
  ["Candidates: " ++ toString r.totalCandidates,
   "Scanned:    " ++ toString r.scanned,
   "Errored:    " ++ toString r.failures.length]
    ++ r.failures.map (fun f => "  " ++ f.path ++ ": " ++ f.reason)
    ++ ["Flagged:    " ++ toString r.flagged.length]

/-- **What becomes of a report** that is to be kept in the file of a path: what
is said on the error output, and which store is left behind. -/
inductive Kept (store : FileStore) (path text : String) (report : BatchReport)
    (stderr : List String) (after : FileStore) : Prop where
  /-- The file holds the text of the report, and nothing else has changed. -/
  | written (id : NodeId)
      (hanswer : store.overwrite path text.toUTF8 = (.ok (), after))
      (hwritten : FileStore.WrittenTo store path text.toUTF8 id after)
      (hstderr : stderr = summaryLines report)
  /-- The file cannot be opened, which is mentioned, and nothing has changed. -/
  | refused (cause : FileError)
      (hanswer : store.overwrite path text.toUTF8 = (.error cause, after))
      (hafter : after = store)
      (hstderr : stderr = ("Unable to write report: "
          ++ (RunError.file path cause).message) :: summaryLines report)
  /-- The system breaks off, which is mentioned, and the file holds so many
  bytes of the text. -/
  | brokenOff (cause : FileError) (id : NodeId) (room : Nat)
      (hroom : room < text.toUTF8.size)
      (hanswer : store.overwrite path text.toUTF8 = (.error cause, after))
      (hwritten : FileStore.WrittenTo store path
        (text.toUTF8.extract 0 room) id after)
      (hstderr : stderr = ("Unable to write report: "
          ++ (RunError.file path cause).message) :: summaryLines report)

/-- **What a run that is carried out reads, prints and leaves behind.** All that
it reads, it reads from the files as they were before the run. -/
structure CarriedOut (env : Surroundings) (request : Request)
    (store : FileStore) (plan : Plan) (report : BatchReport) (text : String)
    (output : Output) (after : FileStore) : Prop where
  /-- The settings are the usual ones or those in the file that is named. -/
  settings_eq : (request.settings? = none ∧ plan.settings = .default)
    ∨ ∃ path, request.settings? = some path
      ∧ Settings.load path (store.read path) = .ok plan.settings
  candidates_eq : (loadCandidates request.index plan.settings.extensions
    (store.read request.index)).value = .ok plan.candidates
  report_eq : report = (scanBatch plan.settings.scanner
    (plan.settings.effectiveWorkers env.processors) store.read
    plan.candidates).value
  /-- The report is rendered in the form that the settings ask for. -/
  text_eq : text = match plan.settings.report.format with
    | .text => report.renderText
    | .json => report.renderJson plan.settings.scanner.targets env.time
  stdout_eq : output.stdout
    = ["[~] Found " ++ toString report.totalCandidates ++ " drivers.",
        "[~] Searching for the following imports: "]
      ++ (plan.settings.scanner.targets.names.zipIdx.map fun (name, i) =>
        "  (" ++ toString i ++ ") " ++ name)
      ++ ["[~] Done, found " ++ toString report.flagged.length
        ++ " potentially vulnerable drivers."]
  /-- The file of the report is the only one that the run may write. -/
  kept : Kept store plan.settings.report.output text report output.stderr after

/-- The settings of a request that can be read are those of its file, or the
usual ones. -/
theorem readSettings_eq_ok {r : Request} {answer : String → FileAnswer}
    {settings : Settings} (h : readSettings r answer = .ok settings) :
    (r.settings? = none ∧ settings = .default)
      ∨ ∃ path, r.settings? = some path
        ∧ Settings.load path (answer path) = .ok settings := by
  unfold readSettings at h
  cases hpath : r.settings? with
  | none =>
    rw [hpath] at h
    exact Or.inl ⟨rfl, (Except.ok.inj h).symm⟩
  | some path =>
    rw [hpath] at h
    refine Or.inr ⟨path, rfl, ?_⟩
    cases hload : Settings.load path (answer path) with
    | error e =>
      dsimp only at h
      rw [hload] at h
      cases h
    | ok found =>
      dsimp only at h
      rw [hload] at h
      exact congrArg Except.ok (Except.ok.inj h)

/-- **Keeping a report** ends in one of three ways. -/
theorem kept_overwrite (store : FileStore) (plan : Plan) (text : String)
    (report : BatchReport) :
    Kept store plan.settings.report.output text report
      (plan.output report (reportKept plan.settings.report
        (store.overwrite plan.settings.report.output text.toUTF8).1).value).stderr
      (store.overwrite plan.settings.report.output text.toUTF8).2 := by
  obtain ⟨cause, hrefused⟩ | ⟨id, after, hall, hwritten⟩
    | ⟨cause, id, room, after, hroom, hpart, hwritten⟩ :=
    store.overwrite_cases plan.settings.report.output text.toUTF8
  · rw [hrefused]
    exact .refused cause hrefused rfl rfl
  · rw [hall]
    exact .written id hall hwritten rfl
  · rw [hpart]
    exact .brokenOff cause id room hroom hpart hwritten rfl

/-- **Carrying out a plan** scans its candidates and keeps the report. -/
theorem carriedOut_of_prepared (env : Surroundings) {request : Request}
    {store : FileStore} {plan : Plan}
    (hsettings : readSettings request store.read = .ok plan.settings)
    (hcandidates : (loadCandidates request.index plan.settings.extensions
      (store.read request.index)).value = .ok plan.candidates) :
    (plan.carryOut env store).value.1.exitCode = 0
      ∧ ∃ report text, CarriedOut env request store plan report text
        (plan.carryOut env store).value.1 (plan.carryOut env store).value.2 := by
  refine ⟨rfl, (scanBatch plan.settings.scanner
    (plan.settings.effectiveWorkers env.processors) store.read
    plan.candidates).value, _, readSettings_eq_ok hsettings, hcandidates, rfl,
    rfl, ?_, ?_⟩
  · show plan.opening ++ [closing _] = _
    rw [totalCandidates_scanBatch]
    rfl
  · exact kept_overwrite store plan _ _

/-- **How a run ends.** It ends with exit code 1 exactly when it is refused, and
then it has printed nothing on the standard output and changed no file.
Otherwise it ends with exit code 0, whatever its candidates are and whether or
not its report can be written; it has scanned the candidates of the index, all
numbers that it prints are those of the report on them, and the one file that
it has changed holds that report. -/
theorem run_value (env : Surroundings) (arguments : List String)
    (store : FileStore) :
    ((run env arguments store).value.1.exitCode = 1
        ↔ Refused arguments store)
      ∧ (Refused arguments store →
        (run env arguments store).value.1.stdout = []
          ∧ (run env arguments store).value.2 = store)
      ∧ (¬ Refused arguments store →
        (run env arguments store).value.1.exitCode = 0
          ∧ ∃ request plan report text,
            Request.ofArguments? arguments = some request
            ∧ CarriedOut env request store plan report text
              (run env arguments store).value.1
              (run env arguments store).value.2) := by
  rw [refused_iff]
  unfold run
  cases hrequest : Request.ofArguments? arguments with
  | none =>
    refine ⟨iff_of_true rfl (fun r hr => by cases hr), fun _ => ⟨rfl, rfl⟩, ?_⟩
    exact fun h => absurd (fun r hr => by cases hr) h
  | some request =>
    simp only [Option.some.injEq, forall_eq']
    simp only [Traced.value_bind]
    obtain ⟨hrefused, refusal, hprepare⟩
      | ⟨haccepted, plan, hprepare, hsettings, hcandidates⟩ :=
      prepare_cases request store.read
    · rw [hprepare]
      exact ⟨iff_of_true rfl hrefused, fun _ => ⟨rfl, rfl⟩,
        fun h => absurd hrefused h⟩
    · rw [hprepare]
      obtain ⟨hexit, report, text, hcarried⟩ :=
        carriedOut_of_prepared env hsettings hcandidates
      refine ⟨iff_of_false ?_ haccepted, fun h => absurd h haccepted,
        fun _ => ⟨hexit, request, plan, report, text, rfl, hcarried⟩⟩
      exact hexit ▸ Nat.zero_ne_one

/-- The surroundings of the sample run. -/
def sampleSurroundings : Surroundings := ⟨"drvscan", "2024-05-01T00:00:00Z", 4⟩

/-- What the index of the sample run lists. -/
def sampleCandidates : List String := ["found.sys", "folder.sys", "gone.sys"]

/-- The index of the sample run. -/
def sampleIndex : String := "\"found.sys\"\n\"folder.sys\"\n\"gone.sys\"\n"

/-- The files of the sample run: a driver and a directory, and for the report a
link to where there is no file yet. -/
def sampleStore : FileStore :=
  { FileStore.empty with
    nodes := #[.directory .free 0 [],
      .directory .free 0 [("drivers.efu", 2), ("found.sys", 3),
        ("folder.sys", 4), ("log.txt", 5), ("reports", 6)],
      .file .free sampleIndex.toUTF8,
      .file .free Blueprint.sample.build,
      .directory .free 1 [],
      .link "reports/today.txt",
      .directory .free 1 []] }

/-- The report of the sample run. -/
def sampleReport : BatchReport :=
  ⟨3, 1, 0, [sampleUnmappable, sampleMissing], [sampleFinding]⟩

/-- The text of the report of the sample run. -/
def sampleText : String := "found.sys     [MmMapIoSpace] (1)\n"

/-- The index can be read. -/
theorem read_sampleIndex :
    sampleStore.read "drivers.efu" = .ok sampleIndex.toUTF8 :=
  FileStore.read_eq_ok_iff.2 ⟨2, by decide +kernel, rfl⟩

theorem loadCandidates_sample :
    (loadCandidates "drivers.efu" Settings.default.extensions
      (sampleStore.read "drivers.efu")).value = .ok sampleCandidates := by
  have hread : Except.bind (.ok sampleIndex.toUTF8) FileIndex.read
      = .ok sampleCandidates := by
    rw [Except.bind, FileIndex.read_toUTF8]
    decide +kernel
  unfold loadCandidates
  rw [read_sampleIndex, hread]
  decide +kernel

theorem scanBatch_sample (workers : Nat) :
    (scanBatch Settings.default.scanner workers sampleStore.read
      sampleCandidates).value = sampleReport := by
  have hanswer : sampleStore.read "found.sys" = .ok Blueprint.sample.build :=
    FileStore.read_eq_ok_iff.2 ⟨3, by decide +kernel, rfl⟩
  have hfound : (sampleScanner.scanFile "found.sys"
      (sampleStore.read "found.sys")).value = .ok sampleFinding := by
    rw [hanswer, scanFile_sample]
  have hfolder : (sampleScanner.scanFile "folder.sys"
      (sampleStore.read "folder.sys")).value
        = .error ⟨"folder.sys", .file (.system .unmappable)⟩ := by
    decide +kernel
  have hgone : (sampleScanner.scanFile "gone.sys"
      (sampleStore.read "gone.sys")).value
        = .error ⟨"gone.sys", .file (.system .notFound)⟩ := by
    decide +kernel
  rw [show Settings.default.scanner = sampleScanner from rfl, scanBatch_value]
  unfold sampleCandidates
  rw [List.map_cons, List.map_cons, List.map_cons, List.map_nil, hfound,
    hfolder, hgone]
  have hflagged : sampleFinding.isFlagged = true := by
    unfold ScanResult.isFlagged NameSet.isEmpty
    rw [names_matched_sampleFinding]
    rfl
  simp only [List.foldl, Tally.record, if_pos hflagged]
  unfold Tally.report Tally.start
  dsimp only
  rw [show #[].push sampleFinding = #[sampleFinding] from rfl,
    List.mergeSort_singleton]
  rfl

theorem renderText_sample : sampleReport.renderText = sampleText := by
  have hline : sampleFinding.line sampleReport.column = sampleText := by
    unfold ScanResult.line ScanResult.matchCount NameSet.size
    rw [names_matched_sampleFinding]
    decide +kernel
  show String.join [sampleFinding.line sampleReport.column] = sampleText
  rw [hline]
  decide +kernel

/-- A run that is refused, since there is no such index, and one that is carried
out. A driver, a directory and a path to nothing are its candidates, and its
report is there behind the link. -/
theorem run_value_sample :
    let refused := (run sampleSurroundings ["absent.efu"] sampleStore).value
    let ended := (run sampleSurroundings ["drivers.efu"] sampleStore).value
    refused.1.exitCode = 1 ∧ refused.1.stdout = [] ∧ refused.2 = sampleStore
      ∧ ended.1.exitCode = 0
      ∧ CarriedOut sampleSurroundings ⟨"drivers.efu", none⟩ sampleStore
        ⟨.default, sampleCandidates⟩ sampleReport sampleText ended.1 ended.2
      ∧ ended.2.read "reports/today.txt" = .ok sampleText.toUTF8 := by
  intro refused ended
  have hrefused : Refused ["absent.efu"] sampleStore :=
    .index "absent.efu" [] rfl (by decide)
      (.unread .notFound (by decide +kernel))
  have haccepted : ¬ Refused ["drivers.efu"] sampleStore := by
    rintro (⟨hone, -⟩ | ⟨_, _, h, -⟩
      | ⟨_, _, h, -, ⟨_, hread⟩ | ⟨_, hread, htext⟩⟩)
    · exact hone rfl
    · cases h
    · cases h
      cases read_sampleIndex.symm.trans hread
    · cases h
      cases read_sampleIndex.symm.trans hread
      cases (dif_pos sampleIndex.isValidUTF8).symm.trans htext
  obtain ⟨hexit, hnothing, -⟩ :=
    run_value sampleSurroundings ["absent.efu"] sampleStore
  obtain ⟨hstdout, hstore⟩ := hnothing hrefused
  obtain ⟨-, -, hcarried⟩ :=
    run_value sampleSurroundings ["drivers.efu"] sampleStore
  obtain ⟨hzero, request, plan, report, text, hrequest, hrun⟩ :=
    hcarried haccepted
  -- there is one way in which the run can have been carried out
  obtain rfl : ⟨"drivers.efu", none⟩ = request := Option.some.inj hrequest
  obtain rfl : plan = ⟨.default, sampleCandidates⟩ := by
    obtain ⟨settings, candidates⟩ := plan
    obtain ⟨-, rfl⟩ | ⟨_, hpath, -⟩ := hrun.settings_eq
    · have hcandidates := loadCandidates_sample.symm.trans hrun.candidates_eq
      rw [Except.ok.inj hcandidates]
    · cases hpath
  obtain rfl : report = sampleReport :=
    hrun.report_eq.trans (scanBatch_sample _)
  obtain rfl : text = sampleText := hrun.text_eq.trans renderText_sample
  have hafter :
      (sampleStore.overwrite "log.txt" sampleText.toUTF8).2 = ended.2 := by
    obtain ⟨_, h⟩ | ⟨_, h⟩ | ⟨_, _, _, _, h⟩ := hrun.kept <;>
      exact congrArg Prod.snd h
  refine ⟨hexit.2 hrefused, hstdout, hstore, hzero, hrun, ?_⟩
  rw [← hafter]
  decide +kernel

end DriverAudit.CommandLine
