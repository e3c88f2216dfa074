import DriverAudit.Proofs.Json.Compact
import DriverAudit.Proofs.Settings.Records

/-!
# Settings override exactly what they name

A file of settings names some settings, at every level, and says nothing of
the others. No two settings share a name, so a set of names says at once which
members of the document and which members of its records are written.

`Documents` says which documents write the named ones of some settings, and
`overridden` which settings they stand for: the defaults, but for what is
named. The main statement is that every text that writes such a document is
read as these settings, whatever the order of the members, the members nobody
knows, the form of each record, the blanks and the escapes; only an empty list
of routines to look for is refused (`parse_of_documents`). In particular, what
is written for settings is read back as these settings.
-/

namespace DriverAudit.Settings

/-! ## Single values -/

/-- The value of plain digits is the one that the standard library knows. -/
theorem digitsValue_eq (cs : List Char) :
    digitsValue cs = Nat.ofDigitChars 10 cs 0 :=
  (Nat.ofDigitChars_eq_foldl ..).symm

/-- **A number that fits into 64 bits is read from its digits.** -/
theorem readNat_nat {n : Nat} (hn : n < UInt64.size) :
    readNat (.nat n) = some n := by
  have hdigits : (Nat.toDigits 10 n).all Json.isDigit = true :=
    List.all_eq_true.2 fun c => Json.isDigit_of_mem_toDigits
  have hvalue : digitsValue (Nat.toDigits 10 n) = n := by
    rw [digitsValue_eq, Nat.ofDigitChars_ten_toDigits]
  simp [readNat, Json.nat, hdigits, hvalue, hn]

@[simp]
theorem readBool_bool (b : Bool) : readBool (.bool b) = some b := rfl

@[simp]
theorem readString_str (s : String) : readString (.str s) = some s :=
  Json.Text.toString?_ofString s

@[simp]
theorem readStrings_strs (l : List String) :
    readStrings (.strs l) = some l := by
  unfold Json.strs readStrings
  induction l with
  | nil => rfl
  | cons s l ih => simp [ih]

/-- **The two ways to write the form of a report**: its name, or an object
whose one member has that name and no value. -/
def WritesFormat (f : ReportFormat) (j : Json) : Prop :=
  j = .str f.keyword ∨ j = .record [(f.keyword, .null)]

theorem readFormat_of_writes {f : ReportFormat} {j : Json}
    (h : WritesFormat f j) : readFormat j = some f := by
  rcases h with rfl | rfl
  · simp [readFormat, Json.str]
  · simp [readFormat, Json.record]

/-! ## The records of settings -/

/-- The field of the record of limits on files. -/
def fileLimitFields (maxFileSize : Nat) : List Field :=
  [⟨"max_file_size", (· = .nat maxFileSize)⟩]

/-- The fields of the record of limits on a walk. -/
def parseLimitFields (l : ParseLimits) : List Field :=
  [⟨"max_name_len", (· = .nat l.nameLength)⟩,
   ⟨"max_module_name_len", (· = .nat l.moduleNameLength)⟩,
   ⟨"max_imports", (· = .nat l.imports)⟩]

/-- The field of the record on candidates. -/
def candidateFields (extensions : List String) : List Field :=
  [⟨"extensions", (· = .strs extensions)⟩]

/-- The fields of the record on the report. -/
def reportFields (r : ReportTarget) : List Field :=
  [⟨"output", (· = .str r.output)⟩, ⟨"format", WritesFormat r.format⟩]

section Records

variable (named : String → Bool)

/-- The fields of all settings. -/
def fields (c : Settings) : List Field :=
  [⟨"io", IsRecord named (fileLimitFields c.maxFileSize)⟩,
   ⟨"parse", IsRecord named (parseLimitFields c.limits)⟩,
   ⟨"targets", (· = .strs c.targets)⟩,
   ⟨"candidates", IsRecord named (candidateFields c.extensions)⟩,
   ⟨"workers", (· = .nat c.workers)⟩,
   ⟨"report", IsRecord named (reportFields c.report)⟩,
   ⟨"log_json", (· = .bool c.logJson)⟩]

/-- **The documents that write the named ones of some settings.** -/
def Documents (c : Settings) (j : Json) : Prop :=
  IsRecord named (fields named c) j

/-- A setting that is named, or else its default. -/
def pick {α : Type} (name : String) (value default : α) : α :=
  if named name then value else default

/-- The limits that a record stands for. -/
def overriddenLimits (l : ParseLimits) : ParseLimits where
  nameLength := pick named "max_name_len" l.nameLength
    ParseLimits.default.nameLength
  moduleNameLength := pick named "max_module_name_len" l.moduleNameLength
    ParseLimits.default.moduleNameLength
  imports := pick named "max_imports" l.imports ParseLimits.default.imports

/-- The target of the report that a record stands for. -/
def overriddenReport (r : ReportTarget) : ReportTarget where
  output := pick named "output" r.output ReportTarget.default.output
  format := pick named "format" r.format ReportTarget.default.format

/-- **The defaults, overridden by the named ones of some settings.** A setting
inside a record is named if both it and its record are. -/
def overridden (c : Settings) : Settings where
  maxFileSize := pick named "io"
    (pick named "max_file_size" c.maxFileSize default.maxFileSize)
    default.maxFileSize
  limits := pick named "parse" (overriddenLimits named c.limits) default.limits
  targets := pick named "targets" c.targets default.targets
  extensions := pick named "candidates"
    (pick named "extensions" c.extensions default.extensions)
    default.extensions
  workers := pick named "workers" c.workers default.workers
  report := pick named "report" (overriddenReport named c.report)
    default.report
  logJson := pick named "log_json" c.logJson default.logJson

end Records

/-- **Settings whose numbers fit into 64 bits.** -/
structure InRange (c : Settings) : Prop where
  maxFileSize : c.maxFileSize < UInt64.size
  nameLength : c.limits.nameLength < UInt64.size
  moduleNameLength : c.limits.moduleNameLength < UInt64.size
  imports : c.limits.imports < UInt64.size
  workers : c.workers < UInt64.size

section Reading

variable {named : String → Bool} {j : Json}

/-- **A field is read as its value if it is named, and as its default
otherwise.** -/
theorem orDefault_of_gives {α : Type} {name : String} {writes : Json → Prop}
    {value : Option Json} {read : Json → Option α} {a : α} (d : α)
    (h : Gives named ⟨name, writes⟩ value)
    (hread : ∀ v, writes v → read v = some a) :
    orDefault d read value = some (pick named name a d) := by
  unfold pick
  cases h with
  | value hname h => rw [if_pos hname]; exact hread _ h
  | nothing hname => rw [if_neg (by rw [hname]; decide)]; rfl

theorem readFileLimits_of_isRecord {n : Nat} (hn : n < UInt64.size)
    (h : IsRecord named (fileLimitFields n) j) :
    readFileLimits j
      = some (pick named "max_file_size" n default.maxFileSize) := by
  have hnames : (fileLimitFields n).map Field.name = ["max_file_size"] := rfl
  obtain ⟨values, hfields, hgives⟩ :=
    fieldsOf_of_isRecord hnames (by decide) h
  obtain _ | ⟨hsize, _ | _⟩ := hgives
  rw [readFileLimits, hfields]
  exact orDefault_of_gives _ hsize fun v hv => hv ▸ readNat_nat hn

theorem readParseLimits_of_isRecord {l : ParseLimits}
    (hname : l.nameLength < UInt64.size)
    (hmodule : l.moduleNameLength < UInt64.size)
    (himports : l.imports < UInt64.size)
    (h : IsRecord named (parseLimitFields l) j) :
    readParseLimits j = some (overriddenLimits named l) := by
  have hnames : (parseLimitFields l).map Field.name
      = ["max_name_len", "max_module_name_len", "max_imports"] := rfl
  obtain ⟨values, hfields, hgives⟩ :=
    fieldsOf_of_isRecord hnames (by decide) h
  obtain _ | ⟨hfirst, _ | ⟨hsecond, _ | ⟨hthird, _ | _⟩⟩⟩ := hgives
  have hreadFirst := orDefault_of_gives ParseLimits.default.nameLength hfirst
    fun v hv => hv ▸ readNat_nat hname
  have hreadSecond := orDefault_of_gives ParseLimits.default.moduleNameLength
    hsecond fun v hv => hv ▸ readNat_nat hmodule
  have hreadThird := orDefault_of_gives ParseLimits.default.imports hthird
    fun v hv => hv ▸ readNat_nat himports
  simp only [readParseLimits, hfields, hreadFirst, hreadSecond, hreadThird,
    Option.bind_eq_bind, Option.bind_some, Option.pure_def]
  rfl

theorem readCandidates_of_isRecord {l : List String}
    (h : IsRecord named (candidateFields l) j) :
    readCandidates j
      = some (pick named "extensions" l default.extensions) := by
  have hnames : (candidateFields l).map Field.name = ["extensions"] := rfl
  obtain ⟨values, hfields, hgives⟩ :=
    fieldsOf_of_isRecord hnames (by decide) h
  obtain _ | ⟨hextensions, _ | _⟩ := hgives
  rw [readCandidates, hfields]
  exact orDefault_of_gives _ hextensions fun v hv => hv ▸ readStrings_strs l

theorem readReport_of_isRecord {r : ReportTarget}
    (h : IsRecord named (reportFields r) j) :
    readReport j = some (overriddenReport named r) := by
  have hnames : (reportFields r).map Field.name = ["output", "format"] := rfl
  obtain ⟨values, hfields, hgives⟩ :=
    fieldsOf_of_isRecord hnames (by decide) h
  obtain _ | ⟨houtput, _ | ⟨hformat, _ | _⟩⟩ := hgives
  have hreadOutput := orDefault_of_gives ReportTarget.default.output houtput
    fun v hv => hv ▸ readString_str r.output
  have hreadFormat := orDefault_of_gives ReportTarget.default.format hformat
    fun v hv => readFormat_of_writes hv
  simp only [readReport, hfields, hreadOutput, hreadFormat,
    Option.bind_eq_bind, Option.bind_some, Option.pure_def]
  rfl

/-- **A document that writes the named ones of some settings is read as the
defaults overridden by them.** -/
theorem ofJson?_of_documents {c : Settings} (hc : c.InRange)
    (h : Documents named c j) : ofJson? j = some (overridden named c) := by
  have hnames : (fields named c).map Field.name = fieldNames := rfl
  obtain ⟨values, hfields, hgives⟩ :=
    fieldsOf_of_isRecord hnames (by decide) h
  obtain _ | ⟨hio, _ | ⟨hparse, _ | ⟨htargets, _ | ⟨hcandidates,
    _ | ⟨hworkers, _ | ⟨hreport, _ | ⟨hlog, _ | _⟩⟩⟩⟩⟩⟩⟩ := hgives
  have hreadIo := orDefault_of_gives default.maxFileSize hio
    fun v hv => readFileLimits_of_isRecord hc.maxFileSize hv
  have hreadParse := orDefault_of_gives default.limits hparse fun v hv =>
    readParseLimits_of_isRecord hc.nameLength hc.moduleNameLength hc.imports hv
  have hreadTargets := orDefault_of_gives default.targets htargets
    fun v hv => hv ▸ readStrings_strs c.targets
  have hreadCandidates := orDefault_of_gives default.extensions hcandidates
    fun v hv => readCandidates_of_isRecord hv
  have hreadWorkers := orDefault_of_gives default.workers hworkers
    fun v hv => hv ▸ readNat_nat hc.workers
  have hreadReport := orDefault_of_gives default.report hreport
    fun v hv => readReport_of_isRecord hv
  have hreadLog := orDefault_of_gives default.logJson hlog
    fun v hv => hv ▸ readBool_bool c.logJson
  simp only [ofJson?, hfields, hreadIo, hreadParse, hreadTargets,
    hreadCandidates, hreadWorkers, hreadReport, hreadLog,
    Option.bind_eq_bind, Option.bind_some, Option.pure_def]
  rfl

end Reading

/-! ## Texts -/

/-- A text that writes a document is read as the document stands for. -/
theorem parse_document {c : Settings} (hc : c.InRange)
    {named : String → Bool} {j : Json} {text : String}
    (h : Documents named c j) (hwritten : Json.Written j text) :
    parse text
      = if named "targets" ∧ c.targets = [] then
          .error (.invalidInput "target list must name at least one import")
        else .ok (overridden named c) := by
  have hread : (Json.parse text).bind ofJson? = some (overridden named c) := by
    rw [Json.parse_of_written hwritten, Option.bind_some,
      ofJson?_of_documents hc h]
  have htargets : (overridden named c).targets
      = if named "targets" then c.targets else dangerousRoutines := rfl
  simp only [parse, hread, htargets]
  by_cases hname : named "targets" = true
  · simp [hname]
  · simp [hname, dangerousRoutines]

/-- The document of settings names all of them. -/
theorem documents_toJson (c : Settings) :
    Documents (fun _ => true) c c.toJson := by
  have hio := isRecord_of_forall₂ (fileLimitFields c.maxFileSize)
    (.cons rfl .nil)
  have hparse := isRecord_of_forall₂ (parseLimitFields c.limits)
    (.cons rfl (.cons rfl (.cons rfl .nil)))
  have hcandidates := isRecord_of_forall₂ (candidateFields c.extensions)
    (.cons rfl .nil)
  have hreport := isRecord_of_forall₂ (reportFields c.report)
    (.cons rfl (.cons (.inl rfl) .nil))
  exact isRecord_of_forall₂ _ (.cons hio (.cons hparse (.cons rfl
    (.cons hcandidates (.cons rfl (.cons hreport (.cons rfl .nil)))))))

/-- The document of settings can be written. -/
theorem writable_toJson (c : Settings) : c.toJson.Writable := by
  simp [toJson]

/-- **Settings override exactly what they name.** Every text that writes the
named ones of some settings is read as the defaults overridden by them, unless
it names an empty list of routines, which is refused. In particular, settings
that look for something are read back from what is written for them. -/
theorem parse_of_documents {c : Settings} (hc : c.InRange) :
    (∀ named j text, Documents named c j → Json.Written j text →
        parse text
          = if named "targets" ∧ c.targets = [] then
              .error (.invalidInput "target list must name at least one import")
            else .ok (overridden named c))
      ∧ (c.targets ≠ [] → parse (Json.compact c.toJson) = .ok c) := by
  refine ⟨fun named j text h hwritten => parse_document hc h hwritten,
    fun htargets => ?_⟩
  have hwritten := Json.written_compact (writable_toJson c)
  rw [parse_document hc (documents_toJson c) hwritten,
    if_neg fun h => htargets h.2]
  rfl

/-- Settings that differ from the defaults everywhere. -/
def sample : Settings where
  maxFileSize := 18446744073709551615
  limits := ⟨1, 2, 3⟩
  targets := ["Zw\"Open\"\n"]
  extensions := []
  workers := 4
  report := ⟨"r.json", .json⟩
  logJson := true

/-- The settings of the sample that its document names. -/
def sampleNames (name : String) : Bool :=
  name ∈ ["io", "max_file_size", "targets", "report", "output"]

/-- The record of the sample's document on files. -/
def sampleFileLimits : Json :=
  .record [("max_file_size", .nat sample.maxFileSize)]

/-- The record of the sample's document on the report, as a list that stops
early. -/
def sampleReport : Json := .array [.str sample.report.output]

/-- A document that names some settings of the sample, out of order, and a
member that nobody knows. -/
def sampleDocument : Json :=
  .record
    [("report", sampleReport), ("note", .array [.nat 1, .bool true]),
     ("targets", .strs sample.targets), ("io", sampleFileLimits)]

theorem documents_sample : Documents sampleNames sample sampleDocument := by
  have hio : IsRecord sampleNames (fileLimitFields sample.maxFileSize)
      sampleFileLimits := .object (.cons (.value rfl rfl) .nil) .rfl
  have hreport : IsRecord sampleNames (reportFields sample.report)
      sampleReport :=
    @IsRecord.array _ _ [.str sample.report.output] 1
      (.cons (.value rfl rfl) (.cons (.nothing rfl) .nil))
  have hgives : List.Forall₂ (Gives sampleNames) (fields sampleNames sample)
      [some sampleFileLimits, none, some (.strs sample.targets), none, none,
        some sampleReport, none] :=
    .cons (.value rfl hio) (.cons (.nothing rfl) (.cons (.value rfl rfl)
      (.cons (.nothing rfl) (.cons (.nothing rfl) (.cons (.value rfl hreport)
        (.cons (.nothing rfl) .nil))))))
  exact .object hgives (List.reverse_perm
    [("io", sampleFileLimits), ("targets", Json.strs sample.targets),
      ("report", sampleReport)])

theorem parse_of_documents_sample :
    sample.InRange
      ∧ Documents sampleNames sample sampleDocument
      ∧ Json.Written sampleDocument sampleDocument.compact
      ∧ parse sampleDocument.compact
        = .ok { default with
            maxFileSize := sample.maxFileSize
            targets := sample.targets
            report := ⟨sample.report.output, .text⟩ }
      ∧ parse (Json.compact sample.toJson) = .ok sample := by
  have hrange : sample.InRange :=
    ⟨by decide, by decide, by decide, by decide, by decide⟩
  have hwritten : Json.Written sampleDocument sampleDocument.compact :=
    Json.written_compact
      (by simp [sampleDocument, sampleReport, sampleFileLimits])
  obtain ⟨hread, hback⟩ := parse_of_documents hrange
  exact ⟨hrange, documents_sample, hwritten,
    hread sampleNames sampleDocument _ documents_sample hwritten,
    hback (by decide)⟩

end DriverAudit.Settings
