import DriverAudit.Image.Architecture
import DriverAudit.Report.Format
import DriverAudit.Scan.Failure
import DriverAudit.Text.Quoted

/-!
# What a run has to say about itself

A scan goes on past damage, so its result alone does not tell what was passed
over. Whatever happens on the way is an *event*. Computations that say
something return their value together with the events, in order
(`Traced`); nothing is printed on the way, and whoever runs the computation
decides what becomes of them.

Each event has a level, a fixed message and named fields. A field is a number
or a text; errors, layouts and sets appear by their text.
-/

namespace DriverAudit

/-! ## Events -/

/-- How much attention an event asks for. A span marks the start of an
activity. -/
inductive Level where
  | trace
  | debug
  | info
  | warn
  | span
  deriving DecidableEq, Repr

/-- The value of a field. -/
inductive FieldValue where
  | number (n : Nat)
  | text (s : String)
  deriving DecidableEq, Repr

/-- **Something that happened during a run.** -/
inductive Event where
  /-- The headers of an image were accepted. -/
  | headersParsed (architecture : Architecture) (sections : Nat)
      (importAddress : UInt32)
  /-- An import descriptor was passed over. -/
  | descriptorSkipped (offset : Nat) (nameAddress thunkAddress : UInt32)
      (error : ImageError)
  /-- The lookup table of a module ran out of the file. -/
  | thunksCutOff (module : String) (offset : Nat) (error : ImageError)
  /-- An import of a module was passed over. -/
  | thunkSkipped (module : String) (offset : Nat) (thunk : UInt64)
      (error : ImageError)
  /-- The limit on imports left part of a table unread. -/
  | importLimitReached (limit limitedModules resolved : Nat)
  /-- The import table of a candidate was read. -/
  | importsWalked (path : String)
      (imports skippedModules skippedEntries limitedModules : Nat)
  /-- A candidate imports routines that were looked for. -/
  | targetsMatched (path : String) (matched : NameSet)
  /-- A candidate file was found. -/
  | fileOpened (path : String) (size limit : Nat)
  /-- A candidate file is above the size limit. -/
  | fileTooLarge (path : String) (size limit : Nat)
  /-- The scan of a list of candidates started. -/
  | batchStarted (candidates workers : Nat)
  /-- A candidate has no result. -/
  | scanFailed (path : String) (cause : ScanCause)
  /-- There are more or fewer outcomes than candidates. -/
  | outcomesMissing (expected scanned failed : Nat)
  /-- The scan of a list of candidates ended. -/
  | batchComplete (total scanned failed flagged : Nat)
  /-- A report was written. -/
  | reportWritten (path : String) (format : ReportFormat)
  /-- The list of candidates was read. -/
  | candidatesLoaded (index : String) (listed candidates : Nat)
  deriving DecidableEq

namespace Event

/-- How much attention an event asks for. -/
def level : Event → Level
  | headersParsed .. => .trace
  | descriptorSkipped .. => .warn
  | thunksCutOff .. => .debug
  | thunkSkipped .. => .debug
  | importLimitReached .. => .warn
  | importsWalked .. => .trace
  | targetsMatched .. => .debug
  | fileOpened .. => .debug
  | fileTooLarge .. => .warn
  | batchStarted .. => .span
  | scanFailed .. => .warn
  | outcomesMissing .. => .warn
  | batchComplete .. => .info
  | reportWritten .. => .debug
  | candidatesLoaded .. => .debug

/-- The message of an event. -/
def message : Event → String
  | headersParsed .. => "Parsed PE headers"
  | descriptorSkipped .. => "Skipping unreadable import descriptor"
  | thunksCutOff .. => "Thunk array ends without terminator"
  | thunkSkipped .. => "Skipping unresolvable import thunk"
  | importLimitReached .. => "Import limit reached, remaining thunks not walked"
  | importsWalked .. => "Walked import table"
  | targetsMatched .. => "Driver imports target routines"
  | fileOpened .. => "Opening file for safe reading"
  | fileTooLarge .. => "File is too large"
  | batchStarted .. => "scan_batch"
  | scanFailed .. => "Scan failed"
  | outcomesMissing .. => "Outcome count differs from candidate count"
  | batchComplete .. => "Batch complete"
  | reportWritten .. => "Report written"
  | candidatesLoaded .. => "Loaded candidate list"

/-- The fields of an event. -/
def fields : Event → List (String × FieldValue)
  | headersParsed architecture sections importAddress =>
    [("architecture", .text architecture.label),
     ("sections", .number sections),
     ("import_rva", .number importAddress.toNat)]
  | descriptorSkipped offset nameAddress thunkAddress error =>
    [("descriptor_offset", .number offset),
     ("name_rva", .number nameAddress.toNat),
     ("thunk_rva", .number thunkAddress.toNat),
     ("error", .text error.message)]
  | thunksCutOff module offset error =>
    [("dll", .text module),
     ("thunk_offset", .number offset),
     ("error", .text error.message)]
  | thunkSkipped module offset thunk error =>
    [("dll", .text module),
     ("thunk_offset", .number offset),
     ("thunk", .number thunk.toNat),
     ("error", .text error.message)]
  | importLimitReached limit limitedModules resolved =>
    [("max_imports", .number limit),
     ("limited_modules", .number limitedModules),
     ("resolved", .number resolved)]
  | importsWalked path imports skippedModules skippedEntries limitedModules =>
    [("path", .text path),
     ("imports", .number imports),
     ("skipped_modules", .number skippedModules),
     ("skipped_entries", .number skippedEntries),
     ("limited_modules", .number limitedModules)]
  | targetsMatched path matched =>
    [("path", .text path), ("matched", .text (Quoted.set matched))]
  | fileOpened path size limit =>
    [("path", .text path),
     ("size", .number size),
     ("limits.max_file_size", .number limit)]
  | fileTooLarge path size limit =>
    [("path", .text path), ("size", .number size), ("limit", .number limit)]
  | batchStarted candidates workers =>
    [("candidates", .number candidates), ("workers", .number workers)]
  | scanFailed path cause =>
    [("path", .text path), ("error", .text cause.message)]
  | outcomesMissing expected scanned failed =>
    [("expected", .number expected),
     ("scanned", .number scanned),
     ("failed", .number failed)]
  | batchComplete total scanned failed flagged =>
    [("total", .number total),
     ("scanned", .number scanned),
     ("failed", .number failed),
     ("flagged", .number flagged)]
  | reportWritten path format =>
    [("path", .text path), ("format", .text format.label)]
  | candidatesLoaded index listed candidates =>
    [("index", .text index),
     ("listed", .number listed),
     ("candidates", .number candidates)]

end Event

/-! ## Values with events -/

/-- **A value together with the events on the way to it**, in order. -/
structure Traced (α : Type) where
  value : α
  events : List Event

namespace Traced

variable {α β γ : Type}

/-- A value reached in silence. -/
protected def pure (value : α) : Traced α := ⟨value, []⟩

/-- First one computation, then another that may use its value. -/
protected def bind (x : Traced α) (f : α → Traced β) : Traced β :=
  ⟨(f x.value).value, x.events ++ (f x.value).events⟩

instance : Monad Traced where
  pure := Traced.pure
  bind := Traced.bind

/-- Say one thing. -/
def emit (e : Event) : Traced Unit := ⟨(), [e]⟩

/-- Say one thing, or nothing. -/
def emitIf (condition : Bool) (e : Event) : Traced Unit :=
  ⟨(), if condition then [e] else []⟩

@[simp] theorem value_pure (a : α) : (pure a : Traced α).value = a := rfl

@[simp] theorem events_pure (a : α) : (pure a : Traced α).events = [] := rfl

@[simp] theorem value_bind (x : Traced α) (f : α → Traced β) :
    (x >>= f).value = (f x.value).value := rfl

@[simp] theorem events_bind (x : Traced α) (f : α → Traced β) :
    (x >>= f).events = x.events ++ (f x.value).events := rfl

@[simp] theorem events_emit (e : Event) : (emit e).events = [e] := rfl

@[simp] theorem events_emitIf (c : Bool) (e : Event) :
    (emitIf c e).events = if c then [e] else [] := rfl

@[ext] protected theorem ext {x y : Traced α} (hv : x.value = y.value)
    (he : x.events = y.events) : x = y := by
  cases x; cases y; cases hv; cases he; rfl

/-- Nothing is said by doing nothing, and grouping does not change what is
said. -/
instance : LawfulMonad Traced :=
  LawfulMonad.mk' Traced
    (fun x => Traced.ext rfl (List.append_nil x.events))
    (fun _ _ => rfl)
    (fun x _ _ => Traced.ext rfl (List.append_assoc x.events _ _))

end Traced

end DriverAudit
