import DriverAudit.Proofs.Json.Pretty
import DriverAudit.Proofs.Settings.Overrides
import DriverAudit.Report.Document

/-!
# A report as JSON can be read back

What a report tells its reader is put down as a structure (`ReportContents`),
and so is how to learn it from a document: every member is looked up by its
name, whatever stands next to it (`ReportContents.read?`). From the text of a
report exactly these contents are read, whatever the texts in it are made of
(`read?_renderJson`).

The time at which a report is made is the value of its first member. Two texts
that differ in nothing else (`AgreeButForTime`) go on alike behind it, so had
they been made at one time, they would be equal, and their contents are.
-/

namespace DriverAudit

namespace Json

/-! ## Looking things up -/

/-- **The value of the member with a name**, the first one if there are
several. -/
def member? (name : String) : Json → Option Json
  | object members =>
    (members.find? fun member => member.1 = .ofString name).map Prod.snd
  | _ => none

/-- What is read from the member with a name. -/
def field? {α : Type} (name : String) (read : Json → Option α) (j : Json) :
    Option α :=
  (j.member? name).bind read

/-- The natural number that some digits stand for. -/
def nat? : Json → Option Nat
  | number literal =>
    if literal.toList.all isDigit then
      some (Nat.ofDigitChars 10 literal.toList 0)
    else none
  | _ => none

/-- The items of a list, each of them read. -/
def list? {α : Type} (read : Json → Option α) : Json → Option (List α)
  | array items => items.mapM read
  | _ => none

theorem Text.ofString_inj {s t : String} :
    Text.ofString s = Text.ofString t ↔ s = t := by
  refine ⟨fun h => Option.some.inj ?_, congrArg Text.ofString⟩
  rw [← Text.toString?_ofString, h, Text.toString?_ofString]

@[simp]
theorem member?_record (name : String) (fields : List (String × Json)) :
    member? name (.record fields)
      = (fields.find? fun field => field.1 = name).map Prod.snd := by
  simp only [record, member?, List.find?_map, Option.map_map,
    Function.comp_def, Text.ofString_inj]

@[simp]
theorem nat?_nat (n : Nat) : nat? (.nat n) = some n := by
  have hdigits : (Nat.toDigits 10 n).all isDigit = true :=
    List.all_eq_true.2 fun c => isDigit_of_mem_toDigits
  simp [nat?, nat, hdigits, Nat.ofDigitChars_ten_toDigits]

/-- **A list is read item by item.** -/
theorem list?_array_map {α β : Type} {read : Json → Option β}
    {write : α → Json} {f : α → β} (h : ∀ a, read (write a) = some (f a))
    (l : List α) : list? read (.array (l.map write)) = some (l.map f) := by
  unfold list?
  induction l with
  | nil => rfl
  | cons a l ih => simp [h, ih]

end Json

/-! ## The contents of a report -/

/-- A set of names from its names in order. -/
def NameSet.ofNames? (names : List String) : Option NameSet :=
  if h : names.Pairwise (· < ·) then some ⟨names, h⟩ else none

@[simp]
theorem NameSet.ofNames?_names (s : NameSet) : ofNames? s.names = some s :=
  dif_pos s.ascending

/-- The layout with a customary name. -/
def Architecture.ofLabel? (label : String) : Option Architecture :=
  if label = pe32.label then some pe32
  else if label = pe32Plus.label then some pe32Plus
  else none

@[simp]
theorem Architecture.ofLabel?_label (a : Architecture) :
    ofLabel? a.label = some a := by
  cases a <;> decide

/-- **What a report tells of a driver with findings.** -/
structure Finding where
  path : String
  architecture : Architecture
  matched : NameSet
  deriving DecidableEq

/-- **What a report as JSON tells.** -/
structure ReportContents where
  generatedAt : String
  totalCandidates : Nat
  scanned : Nat
  clean : Nat
  errored : Nat
  targets : NameSet
  flagged : List Finding
  failures : List FailedScan
  deriving DecidableEq

/-- What is told of a result. -/
def ScanResult.finding (f : ScanResult) : Finding :=
  ⟨f.path, f.architecture, f.matched⟩

/-- **The contents of a report** on some targets at some time. -/
def BatchReport.toContents (r : BatchReport) (targets : NameSet)
    (time : String) : ReportContents where
  generatedAt := time
  totalCandidates := r.totalCandidates
  scanned := r.scanned
  clean := r.clean
  errored := r.failures.length
  targets := targets
  flagged := r.flagged.map ScanResult.finding
  failures := r.failures

/-! ## Reading -/

/-- A set of names in a document. -/
def NameSet.read? (j : Json) : Option NameSet :=
  (Settings.readStrings j).bind ofNames?

/-- A layout in a document. -/
def Architecture.read? (j : Json) : Option Architecture :=
  (Settings.readString j).bind ofLabel?

/-- A driver with findings in a document. -/
def Finding.read? (j : Json) : Option Finding := do
  return {
    path := ← j.field? "path" Settings.readString
    architecture := ← j.field? "architecture" Architecture.read?
    matched := ← j.field? "matched" NameSet.read? }

/-- A failure in a document. -/
def FailedScan.read? (j : Json) : Option FailedScan := do
  return {
    path := ← j.field? "path" Settings.readString
    reason := ← j.field? "reason" Settings.readString }

/-- **The contents of a report, as a document tells them.** -/
def ReportContents.read? (j : Json) : Option ReportContents := do
  return {
    generatedAt := ← j.field? "generated_at" Settings.readString
    totalCandidates := ← j.field? "total_candidates" Json.nat?
    scanned := ← j.field? "scanned" Json.nat?
    clean := ← j.field? "clean" Json.nat?
    errored := ← j.field? "errored" Json.nat?
    targets := ← j.field? "targets" NameSet.read?
    flagged := ← j.field? "flagged" (Json.list? Finding.read?)
    failures := ← j.field? "failures" (Json.list? FailedScan.read?) }

@[simp]
theorem NameSet.read?_strs (s : NameSet) :
    NameSet.read? (.strs s.names) = some s := by
  simp [read?]

@[simp]
theorem Architecture.read?_str_label (a : Architecture) :
    Architecture.read? (.str a.label) = some a := by
  simp [read?]

theorem Finding.read?_document (f : ScanResult) :
    Finding.read? f.document = some f.finding := by
  simp [read?, Json.field?, ScanResult.document, ScanResult.finding]

theorem FailedScan.read?_document (f : FailedScan) :
    FailedScan.read? f.document = some f := by
  simp [read?, Json.field?, FailedScan.document]

/-- **The document of a report tells its contents.** -/
theorem ReportContents.read?_document (r : BatchReport) (targets : NameSet)
    (time : String) :
    ReportContents.read? (r.document targets time)
      = some (r.toContents targets time) := by
  have hflagged := Json.list?_array_map Finding.read?_document r.flagged
  have hfailures := Json.list?_array_map FailedScan.read?_document r.failures
  simp [read?, Json.field?, BatchReport.document, BatchReport.toContents,
    hflagged, hfailures]

/-! ## The text -/

theorem ScanResult.writable_document (f : ScanResult) :
    f.document.Writable := by
  simp [document]

theorem FailedScan.writable_document (f : FailedScan) :
    f.document.Writable := by
  simp [document]

/-- **The document of a report can be written.** -/
theorem BatchReport.writable_document (r : BatchReport) (targets : NameSet)
    (time : String) : (r.document targets time).Writable := by
  have hflagged : (Json.array (r.flagged.map ScanResult.document)).Writable :=
    Json.writable_array
      (List.forall_mem_map.2 fun f _ => f.writable_document)
  have hfailures : (Json.array (r.failures.map FailedScan.document)).Writable :=
    Json.writable_array
      (List.forall_mem_map.2 fun f _ => f.writable_document)
  simp [document, hflagged, hfailures]

/-- **The text of a report is read as its document.** -/
theorem BatchReport.parse_renderJson (r : BatchReport) (targets : NameSet)
    (time : String) :
    Json.parse (r.renderJson targets time)
      = some (r.document targets time) :=
  Json.parse_render (r.writable_document targets time) 0

/-- **Texts between quotes** end where they end. -/
theorem Json.eq_of_quoted_append_eq {s s' : String} {rest rest' : List Char}
    (h : (Text.ofString s).quoted.toList ++ rest
      = (Text.ofString s').quoted.toList ++ rest') : s = s' ∧ rest = rest' := by
  have hread : firstToken ((Text.ofString s).quoted.toList ++ rest)
      = some (.string (.ofString s), rest) :=
    firstToken_of_spelled (spelled_quoted s) trivial
  have hread' : firstToken ((Text.ofString s').quoted.toList ++ rest')
      = some (.string (.ofString s'), rest') :=
    firstToken_of_spelled (spelled_quoted s') trivial
  rw [h, hread'] at hread
  obtain ⟨htext, hrest⟩ := Prod.mk.inj (Option.some.inj hread)
  exact ⟨(Text.ofString_inj.1 (Token.string.inj htext)).symm, hrest.symm⟩

/-- The start of every report as JSON, up to the time. -/
def BatchReport.lead : String := "\x7b\n  \"generated_at\": "

/-- **Two reports as JSON that agree but for the time**, which is the value of
their first member. -/
def AgreeButForTime (text text' : String) : Prop :=
  ∃ time time' behind : String,
    text = BatchReport.lead ++ (Json.Text.ofString time).quoted ++ behind
      ∧ text' = BatchReport.lead ++ (Json.Text.ofString time').quoted ++ behind

/-- **What stands behind the time** does not depend on it. -/
theorem BatchReport.exists_renderJson_eq (r : BatchReport)
    (targets : NameSet) :
    ∃ behind, ∀ time, r.renderJson targets time
      = lead ++ (Json.Text.ofString time).quoted ++ behind := by
  have hlead : lead = "\x7b" ++ Json.newline 1
      ++ (Json.Text.ofString "generated_at").quoted ++ ": " := by decide
  rw [hlead]
  exact ⟨_, fun time => Json.render_record_cons 0 "generated_at" time _⟩

section Agreement

variable {r r' : BatchReport} {targets targets' : NameSet}
  {time time' : String}

/-- Had they been made at one time, reports that agree but for the time would
be the same text. -/
theorem AgreeButForTime.renderJson_eq
    (h : AgreeButForTime (r.renderJson targets time)
      (r'.renderJson targets' time')) (now : String) :
    r.renderJson targets now = r'.renderJson targets' now := by
  obtain ⟨behind, hr⟩ := r.exists_renderJson_eq targets
  obtain ⟨behind', hr'⟩ := r'.exists_renderJson_eq targets'
  obtain ⟨s, s', back, hs, hs'⟩ := h
  have hback : ∀ {t s behind : String},
      BatchReport.lead ++ (Json.Text.ofString t).quoted ++ behind
        = BatchReport.lead ++ (Json.Text.ofString s).quoted ++ back
      → behind = back := by
    intro t s behind heq
    have hlists := congrArg String.toList heq
    simp only [String.toList_append, List.append_assoc] at hlists
    exact String.toList_inj.1
      (Json.eq_of_quoted_append_eq (List.append_cancel_left hlists)).2
  rw [hr, hr', hback ((hr time).symm.trans hs),
    hback ((hr' time').symm.trans hs')]

/-- **What is told determines the document**, but for its time. -/
theorem document_eq_of_contents_eq
    (h : r.toContents targets time = r'.toContents targets' time) (now : String) :
    r.document targets now = r'.document targets' now := by
  simp only [BatchReport.toContents, ReportContents.mk.injEq] at h
  obtain ⟨-, htotal, hscanned, hclean, -, htargets, hflagged, hfailures⟩ := h
  have hdocuments : r.flagged.map ScanResult.document
      = r'.flagged.map ScanResult.document := by
    have hmap := congrArg (List.map fun f : Finding => Json.record
      [("path", .str f.path), ("architecture", .str f.architecture.label),
       ("matched", .strs f.matched.names)]) hflagged
    rwa [List.map_map, List.map_map] at hmap
  unfold BatchReport.document
  rw [htotal, hscanned, hclean, htargets, hdocuments, hfailures]

/-- **Reports agree but for the time exactly when they tell the same.** -/
theorem agreeButForTime_iff_contents_eq (now : String) :
    AgreeButForTime (r.renderJson targets time) (r'.renderJson targets' time')
      ↔ r.toContents targets now = r'.toContents targets' now := by
  constructor
  · intro h
    have hparse := congrArg Json.parse (h.renderJson_eq now)
    rw [BatchReport.parse_renderJson, BatchReport.parse_renderJson] at hparse
    have hread := congrArg ReportContents.read? (Option.some.inj hparse)
    rw [ReportContents.read?_document, ReportContents.read?_document] at hread
    exact Option.some.inj hread
  · intro h
    obtain ⟨behind, hr⟩ := r'.exists_renderJson_eq targets'
    have htext : r.renderJson targets time = r'.renderJson targets' time :=
      congrArg (Json.render 0) (document_eq_of_contents_eq h time)
    exact ⟨time, time', behind, htext.trans (hr time), hr time'⟩

end Agreement

/-- **A report as JSON loses nothing.** Every report has a text. Whatever the
texts in it are made of, the text of the report is read as its document, and
the document tells the numbers, the targets, the findings and the failures as
they were and in their order, and how many failures there are.

So two reports agree but for their time exactly when they have the same
numbers, the same failures, the same findings and the same targets. -/
theorem renderJson_lossless :
    (∀ (r : BatchReport) targets time,
      Json.parse (r.renderJson targets time) = some (r.document targets time)
        ∧ ReportContents.read? (r.document targets time)
          = some (r.toContents targets time))
    ∧ ∀ (r r' : BatchReport) targets targets' time time',
      AgreeButForTime (r.renderJson targets time)
          (r'.renderJson targets' time')
        ↔ r.totalCandidates = r'.totalCandidates ∧ r.scanned = r'.scanned
          ∧ r.clean = r'.clean ∧ r.failures = r'.failures
          ∧ r.flagged.map ScanResult.finding
            = r'.flagged.map ScanResult.finding
          ∧ targets = targets' := by
  refine ⟨fun r targets time => ⟨r.parse_renderJson targets time,
    ReportContents.read?_document r targets time⟩, ?_⟩
  intro r r' targets targets' time time'
  rw [agreeButForTime_iff_contents_eq "", BatchReport.toContents,
    BatchReport.toContents, ReportContents.mk.injEq]
  constructor
  · rintro ⟨-, htotal, hscanned, hclean, -, htargets, hflagged, hfailures⟩
    exact ⟨htotal, hscanned, hclean, hfailures, hflagged, htargets⟩
  · rintro ⟨htotal, hscanned, hclean, hfailures, hflagged, htargets⟩
    exact ⟨rfl, htotal, hscanned, hclean, congrArg List.length hfailures,
      htargets, hflagged, hfailures⟩

/-- A report whose texts hold quotes, backslashes and control characters. -/
def BatchReport.quotedSample : BatchReport where
  totalCandidates := 2
  scanned := 1
  clean := 0
  failures := [⟨"C:\\\"\x7d],", "line\none\x01"⟩]
  flagged := [⟨"/d/\"a\".sys", .pe32, .i386, 4, ⟨["\", \""], by decide⟩⟩]

/-- The sample is read back, and its text does not agree with that of a report
that has the wrong path of a failure. -/
theorem renderJson_lossless_sample :
    ((Json.parse (BatchReport.quotedSample.renderJson ⟨[], by decide⟩
          "2024-01-01T00:00:00Z")).bind ReportContents.read?).isSome = true
      ∧ ¬ AgreeButForTime
        (BatchReport.quotedSample.renderJson ⟨[], by decide⟩ "now")
        (BatchReport.renderJson { BatchReport.quotedSample with
          failures := [⟨"C:\"\x7d],", "line\none\x01"⟩] } ⟨[], by decide⟩
          "then") := by
  obtain ⟨hread, hagree⟩ := renderJson_lossless
  refine ⟨?_, fun h => ?_⟩
  · obtain ⟨hparse, hcontents⟩ := hread BatchReport.quotedSample
      ⟨[], by decide⟩ "2024-01-01T00:00:00Z"
    rw [hparse, Option.bind_some, hcontents]
    rfl
  · exact absurd ((hagree _ _ _ _ _ _).1 h).2.2.2.1 (by decide)

end DriverAudit
