import Mathlib.Data.List.Basic
import Mathlib.Tactic.Basic
import Mathlib.Tactic.IntervalCases

/-!
# Line-oriented TOML

The part of TOML 1.0 that a program writes line by line: bare keys, basic strings with the
two escapes that end one, small integers, arrays of strings, tables and arrays of tables.  A
text outside of this part, and one that TOML refuses, is read as nothing.
-/

namespace TomlText

inductive Value
  | text (text : String)
  | integer (number : Nat)
  | texts (texts : List String)
  deriving DecidableEq, Repr

inductive Header
  | top
  | table (key : String)
  | element (key : String)
  deriving DecidableEq, Repr

structure Section where
  header : Header
  entries : List (String × Value)
  deriving DecidableEq, Repr

abbrev Document : Type := List Section

inductive Line
  | blank
  | header (header : Header)
  | entry (key : String) (value : Value)
  deriving DecidableEq, Repr

/-! ## Reading a line -/

/-- A control character that no basic string holds unescaped. -/
def forbidden (char : Char) : Bool :=
  char.toNat < 0x20 && char != '\t' || char.toNat == 0x7f

/-- The rest of a basic string, behind its opening quote, and what follows it. -/
def readText : List Char → Option (List Char × List Char)
  | [] => none
  | '"' :: rest => some ([], rest)
  | '\\' :: '"' :: rest => (readText rest).map fun read => ('"' :: read.1, read.2)
  | '\\' :: '\\' :: rest => (readText rest).map fun read => ('\\' :: read.1, read.2)
  | '\\' :: _ => none
  | char :: rest =>
    if forbidden char then none
    else (readText rest).map fun read => (char :: read.1, read.2)

def readTexts : Nat → List Char → Option (List String)
  | _, [']'] => some []
  | fuel + 1, ',' :: ' ' :: '"' :: rest => do
    let (text, rest) ← readText rest
    let texts ← readTexts fuel rest
    some (String.ofList text :: texts)
  | _, _ => none

def digit (char : Char) : Option Nat :=
  if char.isDigit then some (char.toNat - '0'.toNat) else none

def readValue : List Char → Option Value
  | '"' :: rest =>
    match readText rest with
    | some (text, []) => some (.text (String.ofList text))
    | _ => none
  | ['[', ']'] => some (.texts [])
  | '[' :: '"' :: rest => do
    let (text, rest) ← readText rest
    let texts ← readTexts rest.length rest
    some (.texts (String.ofList text :: texts))
  | [char] => (digit char).map .integer
  | _ => none

def bare (char : Char) : Bool :=
  char.isAlphanum || char == '_' || char == '-'

/-- A bare key and what follows it. -/
def readKey (line : List Char) : Option (String × List Char) :=
  match line.takeWhile bare with
  | [] => none
  | key => some (String.ofList key, line.dropWhile bare)

def readLine : List Char → Option Line
  | [] => some .blank
  | '[' :: '[' :: rest => do
    let (key, rest) ← readKey rest
    if rest = [']', ']'] then some (.header (.element key)) else none
  | '[' :: rest => do
    let (key, rest) ← readKey rest
    if rest = [']'] then some (.header (.table key)) else none
  | line => do
    let (key, rest) ← readKey line
    match rest with
    | ' ' :: '=' :: ' ' :: value => (readValue value).map (.entry key)
    | _ => none

/-! ## Reading a document -/

def splitLines : List Char → List (List Char)
  | [] => [[]]
  | char :: rest =>
    if char = '\n' then [] :: splitLines rest
    else
      match splitLines rest with
      | [] => [[char]]
      | line :: lines => (char :: line) :: lines

/-- The section that lines continue, and the sections behind it. -/
def gather (header : Header) (entries : List (String × Value)) : List Line → Document
  | [] => [⟨header, entries⟩]
  | .blank :: rest => gather header entries rest
  | .header next :: rest => ⟨header, entries⟩ :: gather next [] rest
  | .entry key value :: rest => gather header (entries ++ [(key, value)]) rest

def tableKeys (document : Document) : List String :=
  document.filterMap fun part =>
    match part.header with
    | .table key => some key
    | _ => none

def elementKeys (document : Document) : List String :=
  document.filterMap fun part =>
    match part.header with
    | .element key => some key
    | _ => none

def topKeys (document : Document) : List String :=
  (document.filter fun part => part.header = .top).flatMap fun part => part.entries.map Prod.fst

/-- No key is defined twice, in a section or as a table. -/
structure Valid (document : Document) : Prop where
  entries : ∀ part ∈ document, (part.entries.map Prod.fst).Nodup
  tables : (topKeys document ++ tableKeys document).Nodup
  elements : ∀ key ∈ elementKeys document, key ∉ topKeys document ++ tableKeys document

instance (document : Document) : Decidable (Valid document) :=
  decidable_of_iff ((∀ part ∈ document, (part.entries.map Prod.fst).Nodup) ∧
      (topKeys document ++ tableKeys document).Nodup ∧
      ∀ key ∈ elementKeys document, key ∉ topKeys document ++ tableKeys document)
    ⟨fun ⟨entries, tables, elements⟩ => ⟨entries, tables, elements⟩,
      fun valid => ⟨valid.entries, valid.tables, valid.elements⟩⟩

def parse (text : String) : Option Document := do
  let lines ← (splitLines text.toList).mapM readLine
  let document := gather .top [] lines
  if Valid document then some document else none

/-! ## Writing -/

def escapeChar (char : Char) : List Char :=
  if char = '\\' then ['\\', '\\']
  else if char = '"' then ['\\', '"']
  else [char]

/-- A basic string. -/
def quoted (text : List Char) : List Char :=
  '"' :: (text.flatMap escapeChar ++ ['"'])

def writeValue : Value → List Char
  | .text text => quoted text.toList
  | .integer number => [Char.ofNat (number + '0'.toNat)]
  | .texts [] => ['[', ']']
  | .texts (text :: texts) =>
    '[' :: (quoted text.toList ++
      (texts.flatMap (fun text => ',' :: ' ' :: quoted text.toList) ++ [']']))

def writeLine : Line → List Char
  | .blank => []
  | .header .top => []
  | .header (.table key) => '[' :: (key.toList ++ [']'])
  | .header (.element key) => '[' :: '[' :: (key.toList ++ [']', ']'])
  | .entry key value => key.toList ++ (' ' :: '=' :: ' ' :: writeValue value)

def Plain (text : String) : Prop :=
  ∀ char ∈ text.toList, forbidden char = false

instance : DecidablePred Plain := fun text =>
  List.decidableBAll _ text.toList

def Key (key : String) : Prop :=
  key.toList ≠ [] ∧ ∀ char ∈ key.toList, bare char = true

instance : DecidablePred Key := fun key =>
  @instDecidableAnd _ _ inferInstance (List.decidableBAll _ key.toList)

def Value.Written : Value → Prop
  | .text held => Plain held
  | .integer number => number < 10
  | .texts held => ∀ text ∈ held, Plain text

def Line.Written : Line → Prop
  | .blank => True
  | .header .top => False
  | .header (.table key) => Key key
  | .header (.element key) => Key key
  | .entry key value => Key key ∧ value.Written

/-! ## Reading what was written -/

theorem readText_escaped {text : List Char} (plain : ∀ char ∈ text, forbidden char = false)
    (rest : List Char) : readText (text.flatMap escapeChar ++ '"' :: rest) = some (text, rest) := by
  induction text with
  | nil => rfl
  | cons char text ih =>
    have later := ih fun other member => plain other (List.mem_cons_of_mem _ member)
    have here := plain char List.mem_cons_self
    rw [List.flatMap_cons, List.append_assoc]
    by_cases slash : char = '\\'
    · rw [slash]
      change (readText (text.flatMap escapeChar ++ '"' :: rest)).map _ = _
      rw [later]
      rfl
    · by_cases quote : char = '"'
      · rw [quote]
        change (readText (text.flatMap escapeChar ++ '"' :: rest)).map _ = _
        rw [later]
        rfl
      · rw [escapeChar, if_neg slash, if_neg quote, List.singleton_append, readText.eq_6]
        · rw [here, later]
          rfl
        · exact quote
        · intro _ same
          exact absurd same slash
        · intro _ same
          exact absurd same slash
        · intro same
          exact absurd same slash

theorem readText_quoted {text : String} (plain : Plain text) (rest : List Char) :
    readText (text.toList.flatMap escapeChar ++ ['"'] ++ rest) = some (text.toList, rest) := by
  rw [List.append_assoc]
  exact readText_escaped plain rest

theorem readTexts_written {texts : List String} {fuel : Nat}
    (plain : ∀ text ∈ texts, Plain text) (enough : texts.length ≤ fuel) :
    readTexts fuel (texts.flatMap (fun text => ',' :: ' ' :: quoted text.toList) ++ [']']) =
      some texts := by
  induction texts generalizing fuel with
  | nil => cases fuel <;> rfl
  | cons text texts ih =>
    cases fuel with
    | zero => cases enough
    | succ fuel =>
      have later := ih (fun other member => plain other (List.mem_cons_of_mem _ member))
        (Nat.le_of_succ_le_succ enough)
      have here := readText_quoted (plain text List.mem_cons_self)
        (texts.flatMap (fun text => ',' :: ' ' :: quoted text.toList) ++ [']'])
      rw [List.flatMap_cons, List.append_assoc]
      change (do
        let (text, rest) ← readText (text.toList.flatMap escapeChar ++ ['"'] ++ _)
        let texts ← readTexts fuel rest
        some (String.ofList text :: texts)) = _
      rw [here]
      change (do
        let texts ← readTexts fuel _
        some (String.ofList text.toList :: texts)) = _
      rw [later, String.ofList_toList]
      rfl

theorem readValue_written {value : Value} (written : value.Written) :
    readValue (writeValue value) = some value := by
  cases value with
  | text text =>
    have read := readText_quoted written []
    rw [List.append_nil] at read
    change (match readText (text.toList.flatMap escapeChar ++ ['"']) with
      | some (text, []) => some (Value.text (String.ofList text))
      | _ => none) = _
    rw [read]
    change some (Value.text (String.ofList text.toList)) = _
    rw [String.ofList_toList]
  | integer number =>
    have small : number < 10 := written
    interval_cases number <;> rfl
  | texts texts =>
    cases texts with
    | nil => rfl
    | cons text texts =>
      have here := readText_quoted (written text List.mem_cons_self)
        (texts.flatMap (fun text => ',' :: ' ' :: quoted text.toList) ++ [']'])
      change (do
        let (text, rest) ← readText (text.toList.flatMap escapeChar ++ ['"'] ++ _)
        let texts ← readTexts rest.length rest
        some (Value.texts (String.ofList text :: texts))) = _
      rw [here]
      change (do
        let texts ← readTexts _ _
        some (Value.texts (String.ofList text.toList :: texts))) = _
      rw [readTexts_written (fun other member => written other (List.mem_cons_of_mem _ member)),
        String.ofList_toList]
      · rfl
      · rw [List.length_append]
        apply Nat.le_add_right_of_le
        clear here written
        induction texts with
        | nil => exact Nat.le_refl 0
        | cons other texts ih =>
          rw [List.flatMap_cons, List.length_append, List.length_cons, List.length_cons]
          omega

theorem readKey_written {key : String} (named : Key key) {stop : Char}
    (ends : bare stop = false) (rest : List Char) :
    readKey (key.toList ++ stop :: rest) = some (key, stop :: rest) := by
  have taken : (key.toList ++ stop :: rest).takeWhile bare = key.toList := by
    rw [List.takeWhile_append_of_pos named.2, List.takeWhile_cons, ends]
    simp
  have dropped : (key.toList ++ stop :: rest).dropWhile bare = stop :: rest := by
    rw [List.dropWhile_append_of_pos named.2, List.dropWhile_cons, ends]
    simp
  unfold readKey
  rw [taken, dropped]
  cases chars : key.toList with
  | nil => exact absurd chars named.1
  | cons char chars =>
    dsimp only
    rw [← chars, String.ofList_toList]

theorem key_not_bracket {key : String} (named : Key key) {rest more : List Char} :
    key.toList ++ rest ≠ '[' :: more := by
  intro same
  cases chars : key.toList with
  | nil => exact named.1 chars
  | cons char chars' =>
    have first := named.2 char (by rw [chars]; exact List.mem_cons_self)
    rw [chars] at same
    cases same
    cases first

theorem readLine_written {line : Line} (written : line.Written) :
    readLine (writeLine line) = some line := by
  cases line with
  | blank => rfl
  | header header =>
    cases header with
    | top => cases written
    | table key =>
      have named : Key key := written
      change readLine ('[' :: (key.toList ++ [']'])) = _
      rw [readLine.eq_3 _ fun rest same => key_not_bracket named same,
        readKey_written named rfl]
      rfl
    | element key =>
      have named : Key key := written
      change readLine ('[' :: '[' :: (key.toList ++ [']', ']'])) = _
      rw [readLine.eq_2, readKey_written named rfl]
      rfl
  | entry key value =>
    have named : Key key := written.1
    change readLine (key.toList ++ (' ' :: '=' :: ' ' :: writeValue value)) = _
    rw [readLine.eq_4, readKey_written named rfl]
    · change (readValue (writeValue value)).map (Line.entry key) = _
      rw [readValue_written written.2]
      rfl
    · intro empty
      exact named.1 (List.append_eq_nil_iff.mp empty).1
    · exact fun rest same => key_not_bracket named same
    · exact fun rest same => key_not_bracket named same

/-! ## Lines of a text -/

theorem splitLines_line {line : List Char} (single : '\n' ∉ line) (rest : List Char) :
    splitLines (line ++ '\n' :: rest) = line :: splitLines rest := by
  induction line with
  | nil => rfl
  | cons char line ih =>
    have other : char ≠ '\n' := fun same => single (by rw [same]; exact List.mem_cons_self)
    have later := ih fun member => single (List.mem_cons_of_mem _ member)
    rw [List.cons_append, splitLines, if_neg other, later]

theorem newline_forbidden {text : List Char} (plain : ∀ char ∈ text, forbidden char = false) :
    '\n' ∉ text.flatMap escapeChar := by
  intro member
  rcases List.mem_flatMap.mp member with ⟨char, listed, escaped⟩
  unfold escapeChar at escaped
  split at escaped
  · simp at escaped
  · split at escaped
    · simp at escaped
    · rw [← List.mem_singleton.mp escaped] at listed
      cases plain _ listed

theorem quoted_single {text : String} (plain : Plain text) : '\n' ∉ quoted text.toList := by
  have inner := newline_forbidden plain
  simp [quoted, inner]

theorem key_single {key : String} (named : Key key) : '\n' ∉ key.toList := by
  intro member
  cases named.2 _ member

theorem writeValue_single {value : Value} (written : value.Written) : '\n' ∉ writeValue value := by
  cases value with
  | text text => exact quoted_single written
  | integer number =>
    have small : number < 10 := written
    interval_cases number <;> decide
  | texts texts =>
    cases texts with
    | nil => decide
    | cons text texts =>
      have first := quoted_single (written text List.mem_cons_self)
      have others : '\n' ∉ texts.flatMap fun text => ',' :: ' ' :: quoted text.toList := by
        intro member
        rcases List.mem_flatMap.mp member with ⟨other, listed, inside⟩
        have apart := quoted_single (written other (List.mem_cons_of_mem _ listed))
        simp [apart] at inside
      simp [writeValue, first, others]

theorem writeLine_single {line : Line} (written : line.Written) : '\n' ∉ writeLine line := by
  cases line with
  | blank => exact List.not_mem_nil
  | header header =>
    cases header with
    | top => exact List.not_mem_nil
    | table key => simp [writeLine, @key_single key written]
    | element key => simp [writeLine, @key_single key written]
  | entry key value =>
    simp [writeLine, key_single written.1, writeValue_single written.2]

def writeLines (lines : List Line) : List Char :=
  lines.flatMap fun line => writeLine line ++ ['\n']

theorem splitLines_written {lines : List Line} (written : ∀ line ∈ lines, line.Written) :
    splitLines (writeLines lines) = lines.map writeLine ++ [[]] := by
  induction lines with
  | nil => rfl
  | cons line lines ih =>
    have later := ih fun other member => written other (List.mem_cons_of_mem _ member)
    rw [writeLines, List.flatMap_cons, List.append_assoc, List.singleton_append,
      splitLines_line (writeLine_single (written line List.mem_cons_self))]
    rw [writeLines] at later
    rw [later]
    rfl

theorem readLines_written {lines : List Line} (written : ∀ line ∈ lines, line.Written) :
    (lines.map writeLine ++ [[]]).mapM readLine = some (lines ++ [.blank]) := by
  induction lines with
  | nil => rfl
  | cons line lines ih =>
    have later := ih fun other member => written other (List.mem_cons_of_mem _ member)
    rw [List.map_cons, List.cons_append, List.mapM_cons,
      readLine_written (written line List.mem_cons_self), later]
    rfl

theorem gather_blank (header : Header) (entries : List (String × Value)) (lines : List Line) :
    gather header entries (lines ++ [.blank]) = gather header entries lines := by
  induction lines generalizing header entries with
  | nil => rfl
  | cons line lines ih =>
    cases line with
    | blank => exact ih _ _
    | header next => exact congrArg (List.cons ⟨header, entries⟩) (ih _ _)
    | entry key value => exact ih _ _

/-! ## Whole documents -/

def entryLine (entry : String × Value) : Line :=
  .entry entry.1 entry.2

def sectionLines (part : Section) : List Line :=
  .blank :: .header part.header :: part.entries.map entryLine

def documentLines (entries : List (String × Value)) (sections : List Section) : List Line :=
  entries.map entryLine ++ sections.flatMap sectionLines

theorem gather_entries (header : Header) (before entries : List (String × Value))
    (lines : List Line) :
    gather header before (entries.map entryLine ++ lines) = gather header (before ++ entries) lines := by
  induction entries generalizing before with
  | nil => rw [List.append_nil]; rfl
  | cons entry entries ih =>
    change gather header (before ++ [(entry.1, entry.2)]) (entries.map entryLine ++ lines) = _
    rw [ih, List.append_assoc]
    rfl

theorem gather_sections (header : Header) (entries : List (String × Value))
    (sections : List Section) :
    gather header entries (sections.flatMap sectionLines) = ⟨header, entries⟩ :: sections := by
  induction sections generalizing header entries with
  | nil => rfl
  | cons part sections ih =>
    rw [List.flatMap_cons]
    change ⟨header, entries⟩ :: gather part.header []
      (part.entries.map entryLine ++ sections.flatMap sectionLines) = _
    rw [gather_entries, List.nil_append, ih]

/-- A section that can be written. -/
structure Section.Written (part : Section) : Prop where
  header : (Line.header part.header).Written
  entries : ∀ entry ∈ part.entries, Key entry.1 ∧ entry.2.Written

theorem parse_documentLines {entries : List (String × Value)} {sections : List Section}
    (top : ∀ entry ∈ entries, Key entry.1 ∧ entry.2.Written)
    (written : ∀ part ∈ sections, part.Written) (valid : Valid (⟨.top, entries⟩ :: sections)) :
    parse (String.ofList (writeLines (documentLines entries sections))) =
      some (⟨.top, entries⟩ :: sections) := by
  have lines : ∀ line ∈ documentLines entries sections, line.Written := by
    intro line listed
    rcases List.mem_append.mp listed with above | below
    · rcases List.mem_map.mp above with ⟨entry, member, rfl⟩
      exact top entry member
    · rcases List.mem_flatMap.mp below with ⟨part, member, inside⟩
      rcases List.mem_cons.mp inside with rfl | inside
      · trivial
      · rcases List.mem_cons.mp inside with rfl | inside
        · exact (written part member).header
        · rcases List.mem_map.mp inside with ⟨entry, held, rfl⟩
          exact (written part member).entries entry held
  have gathered : gather .top [] (documentLines entries sections) = ⟨.top, entries⟩ :: sections := by
    rw [documentLines, gather_entries, gather_sections]
    rfl
  unfold parse
  rw [String.toList_ofList, splitLines_written lines, readLines_written lines]
  change (if Valid (gather .top [] (documentLines entries sections ++ [.blank])) then _ else none) = _
  rw [gather_blank, gathered, if_pos valid]

end TomlText
