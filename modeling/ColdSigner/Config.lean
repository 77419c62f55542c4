import ColdSigner.Session.Basic
import ColdSigner.Text.Numeral
import ColdSigner.Toml.Document

/-! The configuration file.

Every setting has a default. Settings stand in sections; a section is a table, or an
array of its values in order. Keys that name no setting are ignored, and a setting may be
made once. -/
namespace ColdSigner

inductive LogLevel where
  | off
  | error
  | warn
  | info
  | debug
  | trace
  deriving DecidableEq, Repr

namespace LogLevel

def all : List LogLevel := [.off, .error, .warn, .info, .debug, .trace]

def name : LogLevel → String
  | .off => "OFF"
  | .error => "ERROR"
  | .warn => "WARN"
  | .info => "INFO"
  | .debug => "DEBUG"
  | .trace => "TRACE"

/-- A level by its name, in any case. -/
def ofName? (s : String) : Option LogLevel :=
  all.find? fun l => l.name.toList == s.toList.map Char.toUpper

end LogLevel

structure Config where
  logLevel : LogLevel := .info
  session : SessionSettings := {}
  deriving DecidableEq, Repr

namespace Config

open Toml (Value Fault)

abbrev Read (α : Type) := Value → Except Fault α

/-- A value that is none of the expected ones. -/
def mismatch {α : Type} (expected : String) (v : Value) : Except Fault α :=
  .error { cause := .invalidType v.found expected, offset := v.start? }

/-- The same reader, whose faults are placed at the value. -/
def placed {α : Type} (read : Read α) : Read α := fun v =>
  match v.start? with
  | some o => (read v).mapError (·.orAt o)
  | none => read v

/-- A number from 0 to `limit`, of a type called `expected`. -/
def readNat (expected : String) (limit : Nat) : Read Nat
  | .integer start v =>
    if 0 ≤ v ∧ v ≤ limit then .ok v.toNat
    else .error { cause := .invalidValue (.integer v) expected, offset := some start }
  | v => mismatch expected v

def readText : Read String
  | .text _ s => .ok s
  | v => mismatch "a string" v

def readTexts : Read (List String)
  | .array _ items | .sections items => items.mapM readText
  | v => mismatch "a sequence" v

def levelOf (name : String) : Except Fault LogLevel :=
  match LogLevel.ofName? name with
  | some l => .ok l
  | none => .error { cause := .unknownVariant name (LogLevel.all.map LogLevel.name) }

/-- A level is a text, or the key of an empty table. Where a section tells it, that is the
only table of the document, it is empty, and the last key of its header is the level. -/
def readLevel (onlyTable : Option Toml.TableBlock) : Read LogLevel
  | .text _ s => levelOf s
  | .table start false entries =>
    match entries with
    | [(name, v)] => do
      let level ← levelOf name
      match v with
      | .table _ _ [] => return level
      | .table .. => .error { cause := .tableNotEmpty, offset := v.start? }
      | _ => .error { cause := .wanted "table" v.name, offset := v.start? }
    | [] => .error { cause := .wanted "exactly 1 element" "zero elements", offset := some start }
    | _ =>
      .error { cause := .wanted "exactly 1 element" "more than 1 element", offset := some start }
  | .section _ | .sections _ =>
    match onlyTable.map fun b => (b.header.getLast?, b.entries) with
    | some (some name, entries) => do
      let level ← levelOf name
      if entries.isEmpty then return level
      else .error { cause := .tableNotEmpty, offset := some 0 }
    | _ => .error { cause := .manyTables, offset := some 0 }
  | v => .error { cause := .wanted "string or table" v.name, offset := v.start? }

/-- A setting: its key, and how a value of it changes what was read so far. -/
structure Setting (σ : Type) where
  key : String
  set : Value → σ → Except Fault σ

def Setting.of {σ α : Type} (key : String) (read : Read α) (store : α → σ → σ) : Setting σ :=
  ⟨key, fun v s => (read v).map (store · s)⟩

/-- Entries in order; `inSection` tells whether their keys lead to their faults. -/
def readEntries {σ : Type} (settings : List (Setting σ)) (inSection : Bool) (seen : List String)
    (s : σ) : List (String × Value) → Except Fault σ
  | [] => .ok s
  | (k, v) :: rest =>
    match settings.find? (·.key == k) with
    | none => readEntries settings inSection seen s rest
    | some setting =>
      if seen.contains k then .error { cause := .duplicateField k }
      else
        match setting.set v s with
        | .ok s => readEntries settings inSection (k :: seen) s rest
        | .error f => .error (if inSection then f.under k else f)

/-- Values of the settings in their order. -/
def readInOrder {σ : Type} (all : Nat) (s : σ) : List (Setting σ) → List Value → Except Fault σ
  | _, [] => .ok s
  | [], v :: rest =>
    let expected := toString all ++ (if all = 1 then " element" else " elements") ++ " in sequence"
    .error { cause := .invalidLength (all + (v :: rest).length) expected }
  | setting :: settings, v :: rest => do readInOrder all (← setting.set v s) settings rest

/-- A section over what was read so far. A date is a table without settings. -/
def readSection {σ : Type} (name : String) (settings : List (Setting σ)) :
    Value → σ → Except Fault σ := fun v s =>
  placed (fun
    | .table _ _ entries => readEntries settings false [] s entries
    | .section entries => readEntries settings true [] s entries
    | .array _ items | .sections items => readInOrder settings.length s settings items
    | .date _ => .ok s
    | v => mismatch ("struct " ++ name) v) v

/-- Settings of limits within those of sessions. -/
def limitSettings : List (Setting SessionSettings) :=
  [.of "max_depth" (readNat "u32" Text.max32) fun n s =>
      { s with limits := { s.limits with maxDepth := n } },
    .of "max_sequence_len" (readNat "u64" Text.max64) fun n s =>
      { s with limits := { s.limits with maxSequenceLength := n } }]

/-- The sections with the settings of sessions. -/
def sections : List (Setting SessionSettings) :=
  [⟨"qr", readSection "QrConfig" [.of "frame_capacity" (readNat "usize" Text.max64) fun n s =>
      { s with frameCapacity := n }]⟩,
    ⟨"decoder", readSection "DecoderConfig" limitSettings⟩,
    ⟨"vault", readSection "VaultConfig" [.of "default_derivations" readTexts fun paths s =>
      { s with defaultDerivations := paths }]⟩]

def settings (onlyTable : Option Toml.TableBlock) : List (Setting Config) :=
  .of "log_level" (readLevel onlyTable) (fun l c => { c with logLevel := l }) ::
    sections.map fun x =>
      ⟨x.key, fun v c => (x.set v c.session).map fun s => { c with session := s }⟩

/-- The configuration that a file tells. -/
def parse (s : String) : Except Fault Config := do
  let d ← Toml.Document.parse s
  (readEntries (settings d.onlyTable) true [] {} d.entries).mapError fun f =>
    match d.lastTable with
    | some o => f.orAt o
    | none => f

end Config

end ColdSigner
