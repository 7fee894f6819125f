import KiraVm.NumberModel
import Mathlib.Data.List.Dedup

/-!
# Recorded profiles

A profile is samples, the stacks they carry, and the frames those stacks index.  A
trace of profiles is written as lines of words, and read back record by record.
-/

namespace KiraVm.Profiling

open Decimal (isWhitespace)

/-! ## Names -/

/-- A handle to an interned name. -/
abbrev Symbol := UInt32

/-- The reserved name, where a name could not be read. -/
def Symbol.error : Symbol := 0

def errorText : String := "<error>"

/-- Names in the order they were interned; the reserved one is the first. -/
structure Interner where
  strings : List String
  reserved : strings.head? = some errorText
  nodup : strings.Nodup
  fits : strings.length ≤ 2 ^ 32

namespace Interner

def new : Interner :=
  ⟨[errorText], rfl, List.nodup_singleton _, by decide⟩

/-- The handle of a name, which is refused when every handle is taken. -/
def intern (interner : Interner) (text : String) : Option (Symbol × Interner) :=
  if known : text ∈ interner.strings then
    some (UInt32.ofNat (interner.strings.idxOf text), interner)
  else if room : interner.strings.length < 2 ^ 32 then
    some (UInt32.ofNat interner.strings.length,
      { strings := interner.strings ++ [text]
        reserved := by
          rw [List.head?_append, interner.reserved]
          rfl
        nodup := interner.nodup.append (List.nodup_singleton _) (by simpa using known)
        fits := by
          rw [List.length_append, List.length_singleton]
          exact room })
  else none

def resolve (interner : Interner) (symbol : Symbol) : String :=
  (interner.strings[symbol.toNat]?).getD errorText

end Interner

/-! ## Frames -/

inductive FrameKind
  | kira | runtime | native | foreign | system | unknown
  deriving DecidableEq, Repr

def FrameKind.label : FrameKind → String
  | .kira => "kira"
  | .runtime => "runtime"
  | .native => "native"
  | .foreign => "foreign"
  | .system => "system"
  | .unknown => "unknown"

def FrameKind.parse (label : String) : Option FrameKind :=
  match label with
  | "kira" => some .kira
  | "runtime" => some .runtime
  | "native" => some .native
  | "foreign" => some .foreign
  | "system" => some .system
  | "unknown" => some .unknown
  | _ => none

/-- One place a stack can name. -/
structure Frame where
  symbol : Symbol
  kind : FrameKind
  object : Symbol
  function : Option UInt32
  offset : Option UInt32
  file : Option Symbol
  line : Option UInt32
  deriving DecidableEq, Repr

/-- The position of a frame in its table. -/
abbrev FrameId := UInt32

/-- The names and the frames of one profile; no frame is there twice. -/
structure FrameTable where
  names : Interner
  frames : List Frame
  distinct : frames.Nodup

namespace FrameTable

def new : FrameTable :=
  ⟨.new, [], List.nodup_nil⟩

def name (table : FrameTable) (text : String) : Symbol × FrameTable :=
  match table.names.intern text with
  | some (symbol, names) => (symbol, { table with names := names })
  | none => (Symbol.error, table)

def text (table : FrameTable) (symbol : Symbol) : String :=
  table.names.resolve symbol

def insert (table : FrameTable) (frame : Frame) : FrameId × FrameTable :=
  if known : frame ∈ table.frames then
    (UInt32.ofNat (table.frames.idxOf frame), table)
  else
    (UInt32.ofNat table.frames.length,
      { table with
        frames := table.frames ++ [frame]
        distinct := table.distinct.append (List.nodup_singleton _) (by simpa using known) })

def id (table : FrameTable) (raw : UInt32) : Option FrameId :=
  if raw.toNat < table.frames.length then some raw else none

end FrameTable

/-! ## Profiles -/

structure ThreadRecord where
  id : UInt32
  name : String
  deriving DecidableEq, Repr

/-- A stack, the moment it was taken and the weight it accounts for. -/
structure Sample where
  thread : UInt32
  time : UInt64
  weight : UInt64
  stack : List FrameId
  deriving DecidableEq, Repr

inductive View
  | kira | machine
  deriving DecidableEq, Repr

def View.label : View → String
  | .kira => "kira"
  | .machine => "machine"

def View.parse (label : String) : Option View :=
  match label with
  | "kira" => some .kira
  | "machine" => some .machine
  | _ => none

/-- What a weight counts. -/
inductive Unit
  | nanoseconds | cycles | instructions
  deriving DecidableEq, Repr

def Unit.label : Unit → String
  | .nanoseconds => "nanoseconds"
  | .cycles => "cycles"
  | .instructions => "instructions"

def Unit.parse (label : String) : Option Unit :=
  match label with
  | "nanoseconds" => some .nanoseconds
  | "cycles" => some .cycles
  | "instructions" => some .instructions
  | _ => none

structure Profile where
  view : View
  event : String
  unit : Unit
  collector : String
  frequency : UInt32
  threads : List ThreadRecord
  frames : FrameTable
  samples : List Sample
  lost : UInt64

def Profile.new (view : View) (event collector : String) : Profile where
  view := view
  event := event
  unit := .nanoseconds
  collector := collector
  frequency := 0
  threads := []
  frames := .new
  samples := []
  lost := 0

inductive Backend
  | vm | hybrid | llvm
  deriving DecidableEq, Repr

def Backend.label : Backend → String
  | .vm => "vm"
  | .hybrid => "hybrid"
  | .llvm => "llvm"

def parseBackend (label : String) : Option Backend :=
  [Backend.vm, .hybrid, .llvm].find? fun backend => backend.label == label

/-- What was recorded.  A path is its text. -/
structure TraceMeta where
  command : String
  arguments : List String
  backend : Backend
  source : Option String
  startedUnixMs : UInt64
  duration : UInt64
  exitCode : Int32
  deriving DecidableEq, Repr

structure Trace where
  metadata : TraceMeta
  profiles : List Profile

/-! ## Words -/

/-- How a quoted character is written. -/
def escape : Char → List Char
  | '"' => ['\\', '"']
  | '\\' => ['\\', '\\']
  | '\n' => ['\\', 'n']
  | other => [other]

def bareChar (character : Char) : Bool :=
  !isWhitespace character && character != '"' && character != '\\'

/-- One word that stands for a text, in quotes unless it is a word already. -/
def quote (text : String) : List Char :=
  if !text.isEmpty && text.toList.all bareChar then text.toList
  else '"' :: (text.toList.flatMap escape ++ ['"'])

/-- What splitting a line has come to. -/
structure Splitter where
  words : List String
  current : List Char
  quoted : Bool
  escaped : Bool
  started : Bool

def Splitter.fresh : Splitter :=
  ⟨[], [], false, false, false⟩

def Splitter.step (splitter : Splitter) (character : Char) : Splitter :=
  if splitter.escaped then
    { splitter with
      current := splitter.current ++ [if character = 'n' then '\n' else character]
      escaped := false }
  else if character = '\\' ∧ splitter.quoted then
    { splitter with escaped := true }
  else if character = '"' then
    { splitter with quoted := !splitter.quoted, started := true }
  else if isWhitespace character ∧ ¬ splitter.quoted then
    if splitter.started ∨ splitter.current ≠ [] then
      { splitter with
        words := splitter.words ++ [String.ofList splitter.current]
        current := []
        started := false }
    else splitter
  else
    { splitter with current := splitter.current ++ [character], started := true }

def Splitter.finish (splitter : Splitter) : List String :=
  if splitter.started ∨ splitter.current ≠ [] then
    splitter.words ++ [String.ofList splitter.current]
  else splitter.words

def words (line : List Char) : List String :=
  (line.foldl Splitter.step .fresh).finish

/-- A field and its value, parted at the first sign of equality. -/
def field (word : String) : Option (String × String) :=
  if '=' ∈ word.toList then
    some (String.ofList (word.toList.takeWhile (· ≠ '=')),
      String.ofList ((word.toList.dropWhile (· ≠ '=')).drop 1))
  else none

/-! ## Numbers -/

def decimal (number : Nat) : List Char :=
  Nat.toDigits 10 number

/-- The number that digits spell. -/
def parseDigits (digits : List Char) : Option Nat :=
  if digits ≠ [] ∧ digits.all Char.isDigit then some (Nat.ofDigitChars 10 digits 0) else none

def unsigned (text : String) : Option Nat :=
  match text.toList with
  | '+' :: digits => parseDigits digits
  | digits => parseDigits digits

def parseU64 (text : String) : Option UInt64 :=
  match unsigned text with
  | some number => if number < 2 ^ 64 then some (UInt64.ofNat number) else none
  | none => none

def parseU32 (text : String) : Option UInt32 :=
  match unsigned text with
  | some number => if number < 2 ^ 32 then some (UInt32.ofNat number) else none
  | none => none

def parseI32 (text : String) : Option Int32 :=
  match text.toList with
  | '-' :: digits =>
    match parseDigits digits with
    | some number => if number ≤ 2 ^ 31 then some (Int32.ofInt (-number)) else none
    | none => none
  | _ =>
    match unsigned text with
    | some number => if number < 2 ^ 31 then some (Int32.ofInt number) else none
    | none => none

/-! ## Writing -/

def record (words : List (List Char)) : List Char :=
  [' '].intercalate words

def named (key : String) (value : List Char) : List Char :=
  key.toList ++ '=' :: value

def commas (numbers : List (List Char)) : List Char :=
  [','].intercalate numbers

def signed (number : Int) : List Char :=
  if number < 0 then '-' :: decimal number.natAbs else decimal number.natAbs

def FrameTable.writeFrame (table : FrameTable) (index : Nat) (frame : Frame) : List Char :=
  record
    (["frame".toList, decimal index, named "kind" frame.kind.label.toList,
        named "name" (quote (table.text frame.symbol)),
        named "object" (quote (table.text frame.object))] ++
      (frame.function.toList.map fun function => named "function" (decimal function.toNat)) ++
      (frame.offset.toList.map fun offset => named "offset" (decimal offset.toNat)) ++
      (frame.file.toList.map fun file => named "file" (quote (table.text file))) ++
      frame.line.toList.map fun line => named "line" (decimal line.toNat))

def Sample.write (sample : Sample) : List Char :=
  record ["sample".toList, named "thread" (decimal sample.thread.toNat),
    named "time" (decimal sample.time.toNat), named "weight" (decimal sample.weight.toNat),
    named "stack" (commas (sample.stack.map fun frame => decimal frame.toNat))]

def ThreadRecord.write (thread : ThreadRecord) : List Char :=
  record ["thread".toList, decimal thread.id.toNat, named "name" (quote thread.name)]

def writeProfile (profile : Profile) : List (List Char) :=
  record ["profile".toList, profile.view.label.toList, named "event" (quote profile.event),
      named "unit" profile.unit.label.toList, named "collector" (quote profile.collector),
      named "frequency" (decimal profile.frequency.toNat),
      named "lost" (decimal profile.lost.toNat)] ::
    (profile.threads.map ThreadRecord.write ++
      (profile.frames.frames.zipIdx.map fun entry =>
        profile.frames.writeFrame entry.2 entry.1) ++
      profile.samples.map Sample.write)

def metaLine (key : String) (value : List Char) : List Char :=
  record ["meta".toList, key.toList, value]

def TraceMeta.write (metadata : TraceMeta) : List (List Char) :=
  metaLine "command" (quote metadata.command) ::
    (metadata.arguments.map fun argument => metaLine "argument" (quote argument)) ++
    metaLine "backend" metadata.backend.label.toList ::
    (metadata.source.toList.map fun source => metaLine "source" (quote source)) ++
    [metaLine "started-unix-ms" (decimal metadata.startedUnixMs.toNat),
      metaLine "duration" (decimal metadata.duration.toNat),
      metaLine "exit-code" (signed metadata.exitCode.toInt)]

/-- Lines, each ended by a line feed. -/
def unlines (lines : List (List Char)) : List Char :=
  lines.flatMap (· ++ ['\n'])

def magic : String := "kira-profile"

def version : UInt32 := 1

def Trace.write (trace : Trace) : List Char :=
  unlines (record [magic.toList, decimal version.toNat] :: trace.metadata.write ++
    trace.profiles.flatMap writeProfile)

/-! ## Reading -/

inductive TraceError
  | notATrace
  | version (found : UInt32)
  | malformed (line : Nat) (problem : String)
  deriving DecidableEq, Repr

/-- The lines of a text, without the line feed, or carriage return and line feed, that
ends each. -/
def linesFrom (current : List Char) : List Char → List (List Char)
  | [] => if current = [] then [] else [current]
  | character :: rest =>
    if character = '\n' then
      (if current.getLast? = some '\r' then current.dropLast else current) :: linesFrom [] rest
    else linesFrom (current ++ [character]) rest

def lines (text : List Char) : List (List Char) :=
  linesFrom [] text

def number (line : Nat) (value : String) : Except TraceError UInt64 :=
  match parseU64 value with
  | some number => .ok number
  | none => .error (.malformed line s!"`{value}` is not a number")

/-- A trace that is being read. -/
structure Reader where
  metadata : TraceMeta
  profiles : List Profile

def Reader.new : Reader where
  metadata := ⟨"", [], .vm, none, 0, 0, 0⟩
  profiles := []

def Reader.metaRecord (reader : Reader) (line : Nat) (words : List String) :
    Except TraceError Reader :=
  let value := (words[2]?).getD ""
  match (words[1]?).getD "" with
  | "command" => .ok { reader with metadata := { reader.metadata with command := value } }
  | "argument" =>
    .ok { reader with
      metadata := { reader.metadata with arguments := reader.metadata.arguments ++ [value] } }
  | "backend" =>
    match parseBackend value with
    | some backend => .ok { reader with metadata := { reader.metadata with backend := backend } }
    | none => .error (.malformed line s!"unknown backend `{value}`")
  | "source" => .ok { reader with metadata := { reader.metadata with source := some value } }
  | "started-unix-ms" => do
    let started ← number line value
    return { reader with metadata := { reader.metadata with startedUnixMs := started } }
  | "duration" => do
    let duration ← number line value
    return { reader with metadata := { reader.metadata with duration := duration } }
  | "exit-code" =>
    match parseI32 value with
    | some code => .ok { reader with metadata := { reader.metadata with exitCode := code } }
    | none => .error (.malformed line s!"`{value}` is not an exit code")
  | other => .error (.malformed line s!"unknown meta key `{other}`")

def Profile.readField (line : Nat) (profile : Profile) (word : String) :
    Except TraceError Profile :=
  match field word with
  | some ("event", value) => .ok { profile with event := value }
  | some ("unit", value) =>
    match Unit.parse value with
    | some unit => .ok { profile with unit := unit }
    | none => .error (.malformed line s!"unknown weight unit `{value}`")
  | some ("collector", value) => .ok { profile with collector := value }
  | some ("frequency", value) => do
    return { profile with frequency := (← number line value).toUInt32 }
  | some ("lost", value) => do
    return { profile with lost := ← number line value }
  | _ => .error (.malformed line s!"unknown profile field `{word}`")

def Reader.profileRecord (reader : Reader) (line : Nat) (words : List String) :
    Except TraceError Reader :=
  let label := (words[1]?).getD ""
  match View.parse label with
  | none => .error (.malformed line s!"unknown view `{label}`")
  | some view => do
    let profile ← (words.drop 2).foldlM (Profile.readField line) (.new view "" "")
    return { reader with profiles := reader.profiles ++ [profile] }

def Reader.current (reader : Reader) (line : Nat) (change : Profile → Except TraceError Profile) :
    Except TraceError Reader :=
  match reader.profiles.getLast? with
  | none => .error (.malformed line "this record comes before any `profile` line")
  | some profile => do
    let changed ← change profile
    return { reader with profiles := reader.profiles.dropLast ++ [changed] }

def threadName (words : List String) : String :=
  words.foldl (fun name word =>
    match field word with
    | some ("name", value) => value
    | _ => name) ""

def Reader.threadRecord (reader : Reader) (line : Nat) (words : List String) :
    Except TraceError Reader := do
  let id ← number line ((words[1]?).getD "")
  reader.current line fun profile =>
    .ok { profile with
      threads := profile.threads ++ [⟨id.toUInt32, threadName (words.drop 2)⟩] }

/-- A frame that is being read, and the table its names go to. -/
structure FrameDraft where
  table : FrameTable
  kind : FrameKind
  symbol : Option Symbol
  object : Option Symbol
  function : Option UInt32
  offset : Option UInt32
  file : Option Symbol
  line : Option UInt32

def FrameDraft.new (table : FrameTable) : FrameDraft :=
  ⟨table, .unknown, none, none, none, none, none, none⟩

def FrameDraft.readField (line : Nat) (draft : FrameDraft) (word : String) :
    Except TraceError FrameDraft :=
  match field word with
  | some ("kind", value) =>
    match FrameKind.parse value with
    | some kind => .ok { draft with kind := kind }
    | none => .error (.malformed line s!"unknown frame kind `{value}`")
  | some ("name", value) =>
    let (symbol, table) := draft.table.name value
    .ok { draft with table := table, symbol := some symbol }
  | some ("object", value) =>
    let (object, table) := draft.table.name value
    .ok { draft with table := table, object := some object }
  | some ("function", value) => do
    return { draft with function := some (← number line value).toUInt32 }
  | some ("offset", value) => do
    return { draft with offset := some (← number line value).toUInt32 }
  | some ("file", value) =>
    let (file, table) := draft.table.name value
    .ok { draft with table := table, file := some file }
  | some ("line", value) => do
    return { draft with line := some (← number line value).toUInt32 }
  | _ => .error (.malformed line s!"unknown frame field `{word}`")

/-- Put the frame in the table; a name it lacks is the empty one. -/
def FrameDraft.finish (draft : FrameDraft) : FrameTable :=
  let (empty, table) := draft.table.name ""
  (table.insert ⟨draft.symbol.getD empty, draft.kind, draft.object.getD empty, draft.function,
    draft.offset, draft.file, draft.line⟩).2

def Reader.frameRecord (reader : Reader) (line : Nat) (words : List String) :
    Except TraceError Reader :=
  reader.current line fun profile => do
    let draft ← (words.drop 2).foldlM (FrameDraft.readField line) (.new profile.frames)
    return { profile with frames := draft.finish }

def entries (value : String) : List String :=
  ((value.toList.splitOn ',').filter (· ≠ [])).map String.ofList

def Sample.readField (line : Nat) (frames : FrameTable) (sample : Sample) (word : String) :
    Except TraceError Sample :=
  match field word with
  | some ("thread", value) => do
    return { sample with thread := (← number line value).toUInt32 }
  | some ("time", value) => do
    return { sample with time := ← number line value }
  | some ("weight", value) => do
    return { sample with weight := ← number line value }
  | some ("stack", value) =>
    (entries value).foldlM (fun sample entry => do
      let raw := (← number line entry).toUInt32
      match frames.id raw with
      | some id => return { sample with stack := sample.stack ++ [id] }
      | none => .error (.malformed line s!"frame {raw} is not in this profile")) sample
  | _ => .error (.malformed line s!"unknown sample field `{word}`")

def Reader.sampleRecord (reader : Reader) (line : Nat) (words : List String) :
    Except TraceError Reader :=
  reader.current line fun profile => do
    let sample ← (words.drop 1).foldlM (Sample.readField line profile.frames) ⟨0, 0, 0, []⟩
    return { profile with samples := profile.samples ++ [sample] }

def Reader.record (reader : Reader) (line : Nat) (words : List String) :
    Except TraceError Reader :=
  match words.head? with
  | none => .ok reader
  | some "meta" => reader.metaRecord line words
  | some "profile" => reader.profileRecord line words
  | some "thread" => reader.threadRecord line words
  | some "frame" => reader.frameRecord line words
  | some "sample" => reader.sampleRecord line words
  | some other => .error (.malformed line s!"unknown record `{other}`")

def Reader.line (reader : Reader) (line : Nat) (text : List Char) : Except TraceError Reader :=
  reader.record line (words text)

def Reader.lines (reader : Reader) (line : Nat) : List (List Char) → Except TraceError Reader
  | [] => .ok reader
  | text :: rest => do
    let reader ← reader.line line text
    reader.lines (line + 1) rest

def Trace.parse (text : List Char) : Except TraceError Trace :=
  match lines text with
  | [] => .error .notATrace
  | header :: rest =>
    match words header with
    | first :: second :: _ =>
      if first = magic then
        match parseU32 second with
        | none => .error (.version 0)
        | some found =>
          if found = version then do
            let reader ← Reader.new.lines 2 rest
            return ⟨reader.metadata, reader.profiles⟩
          else .error (.version found)
      else .error .notATrace
    | _ => .error .notATrace

end KiraVm.Profiling
