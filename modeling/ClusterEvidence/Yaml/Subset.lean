import ClusterEvidence.Yaml.Reader

/-!
# A reader for a part of YAML

The part of YAML that manifests and configurations are mostly written in : documents separated
by `---` lines, block maps (also with `?` keys) and block sequences by indentation, flow
maps and sequences over any number of lines, plain and quoted scalars on one line, and
`#` comments. Every text that is JSON is covered. Block scalars, anchors and aliases, tags,
directives, plain scalars over several lines, line breaks other than a line feed, and anything
behind a `---` are not : such a text is read as malformed, or differently.

A `Cursor` is what is left of a text and the place where that starts. `block` reads the
node at a cursor whose column is at least a given one, `flow` a node between brackets.
Reading stops after as many steps as the text could need, so a budget computed from its
length never runs out. `Yaml.documents?` reads all documents of a text and
`Yaml.document?` the first one, which is null where a text holds none. They make the
`Yaml.Reader` that the program runs with.
-/

namespace ClusterEvidence

namespace Yaml

/-! ## The cursor -/

/-- What is left of a text, and where it starts. -/
structure Cursor where
  rest : Bytes
  column : Nat := 0
  line : Nat := 0

namespace Cursor

/-- Move over `n` bytes of the current line. -/
def advance (n : Nat) (c : Cursor) : Cursor :=
  { c with rest := c.rest.drop n, column := c.column + n }

/-- The end of the text, a line break or a blank comes next. -/
def isAtBlank (s : Bytes) : Bool :=
  match s with
  | [] => true
  | b :: _ => b == 0x0a || b == 0x20

/-- Skip blanks and a comment, but not the line break. -/
def skipBlanks (c : Cursor) : Cursor :=
  let blanks := (c.rest.takeWhile (· == 0x20)).length
  let c := c.advance blanks
  match c.rest with
  | b :: _ =>
    if b = 0x23 then c.advance (c.rest.takeWhile (· != 0x0a)).length else c
  | [] => c

/-- Skip blanks, comments and line breaks. `inComment` holds behind a comment sign. -/
def skipFrom (inComment : Bool) : Bytes → Nat → Nat → Cursor
  | [], column, line => ⟨[], column, line⟩
  | b :: rest, column, line =>
    if b = 0x0a then skipFrom false rest 0 (line + 1)
    else if inComment then skipFrom true rest (column + 1) line
    else if b = 0x20 then skipFrom false rest (column + 1) line
    else if b = 0x23 then skipFrom true rest (column + 1) line
    else ⟨b :: rest, column, line⟩

/-- The next place where there is something to read. -/
def skip (c : Cursor) : Cursor := skipFrom false c.rest c.column c.line

end Cursor

/-! ## Scalars -/

/-- The byte that a letter behind a backslash stands for. -/
def escaped? (b : UInt8) : Option UInt8 :=
  if b = 0x6e then some 0x0a
  else if b = 0x74 then some 0x09
  else if b = 0x72 then some 0x0d
  else if b = 0x62 then some 0x08
  else if b = 0x66 then some 0x0c
  else if b = 0x22 ∨ b = 0x5c ∨ b = 0x2f then some b
  else none

/-- The code point that four hexadecimal digits give; surrogates are no characters. -/
def codePoint? (p q r s : UInt8) : Option Nat :=
  (Bytes.hexWord? p q r s).filter fun n => !(0xd800 ≤ n && n < 0xe000)

/-- The text up to the closing double quote, and how many bytes that took. -/
def doubleQuoted : Bytes → Option (Bytes × Nat)
  | [] => none
  | b :: rest =>
    if b = 0x22 then some ([], 1)
    else if b = 0x0a then none
    else if b = 0x5c then
      match rest with
      | e :: rest =>
        match escaped? e with
        | some x => (doubleQuoted rest).map fun (s, n) => (x :: s, n + 2)
        | none =>
          if e = 0x75 then
            match rest with
            | p :: q :: r :: t :: rest =>
              match codePoint? p q r t with
              | some x => (doubleQuoted rest).map fun (s, n) => (Bytes.utf8 x ++ s, n + 6)
              | none => none
            | _ => none
          else none
      | [] => none
    else (doubleQuoted rest).map fun (s, n) => (b :: s, n + 1)

/-- The text up to the closing single quote, and how many bytes that took. Two quotes
stand for one. -/
def singleQuoted : Bytes → Option (Bytes × Nat)
  | [] => none
  | b :: rest =>
    if b = 0x0a then none
    else if b = 0x27 then
      match rest with
      | c :: rest' =>
        if c = 0x27 then (singleQuoted rest').map fun (s, n) => (0x27 :: s, n + 2)
        else some ([], 1)
      | [] => some ([], 1)
    else (singleQuoted rest).map fun (s, n) => (b :: s, n + 1)

/-- The brackets and the comma of flow collections. -/
def isFlowSign (b : UInt8) : Bool :=
  b == 0x2c || b == 0x5b || b == 0x5d || b == 0x7b || b == 0x7d

/-- The end of a text, a blank, or in flow a bracket or comma. -/
def endsKey (inFlow : Bool) (s : Bytes) : Bool :=
  match s with
  | [] => true
  | b :: _ => b == 0x0a || b == 0x20 || (inFlow && isFlowSign b)

/-- How far a plain scalar goes : up to a colon before a blank, a comment sign behind
one, the end of the line, and in flow also up to a bracket or comma. -/
def plainLength (inFlow : Bool) (afterBlank : Bool) : Bytes → Nat
  | [] => 0
  | b :: rest =>
    if b = 0x0a then 0
    else if b = 0x3a ∧ endsKey inFlow rest then 0
    else if b = 0x23 ∧ afterBlank then 0
    else if inFlow ∧ isFlowSign b then 0
    else plainLength inFlow (b == 0x20) rest + 1

/-- A text without the blanks at its end. -/
def trimEnd (s : Bytes) : Bytes := (s.reverse.dropWhile (· == 0x20)).reverse

/-- A plain scalar; some spellings stand for null. -/
def ofPlain (s : Bytes) : Yaml :=
  if s = [] ∨ s = "~" ∨ s = "null" ∨ s = "Null" ∨ s = "NULL" then null else scalar s

/-- The scalar at a cursor and what follows it. -/
def scalarAt (inFlow : Bool) (c : Cursor) : Option (Yaml × Cursor) :=
  match c.rest with
  | 0x22 :: rest => (doubleQuoted rest).map fun (s, n) => (scalar s, c.advance (n + 1))
  | 0x27 :: rest => (singleQuoted rest).map fun (s, n) => (scalar s, c.advance (n + 1))
  | _ =>
    let n := plainLength inFlow false c.rest
    some (ofPlain (trimEnd (c.rest.take n)), c.advance n)

/-! ## Flow collections -/

/-- What a bracketed collection goes on with : its end, or another element. -/
inductive Next
  | close
  | element

/-- Behind an element : the closing bracket, or a comma. -/
def separator? (bracket : UInt8) (c : Cursor) : Option (Next × Cursor) :=
  match c.rest with
  | b :: _ =>
    if b = bracket then some (.close, c.advance 1)
    else if b = 0x2c then some (.element, c.advance 1)
    else none
  | [] => none

mutual

/-- The node at a cursor between brackets. -/
def flow : Nat → Cursor → Option (Yaml × Cursor)
  | 0, _ => none
  | n + 1, c =>
    match c.rest with
    | [] => none
    | 0x5b :: _ => do
      let (items, c) ← flowItems n (c.advance 1)
      some (seq items, c)
    | 0x7b :: _ => do
      let (entries, c) ← flowEntries n (c.advance 1)
      some (map entries, c)
    | _ => scalarAt true c

/-- The items up to the closing bracket. -/
def flowItems : Nat → Cursor → Option (List Yaml × Cursor)
  | 0, _ => none
  | n + 1, c => do
    let c := c.skip
    match c.rest with
    | 0x5d :: _ => some ([], c.advance 1)
    | _ =>
      let (item, c) ← flow n c
      let (next, c) ← separator? 0x5d c.skip
      match next with
      | .close => some ([item], c)
      | .element =>
        let (items, c) ← flowItems n c
        some (item :: items, c)

/-- The entries up to the closing brace. A key without a colon has no value. -/
def flowEntries : Nat → Cursor → Option (List (Yaml × Yaml) × Cursor)
  | 0, _ => none
  | n + 1, c => do
    let c := c.skip
    match c.rest with
    | 0x7d :: _ => some ([], c.advance 1)
    | _ =>
      let (key, c) ← flow n c
      let (value, c) ← flowValue n c.skip
      let (next, c) ← separator? 0x7d c.skip
      match next with
      | .close => some ([(key, value)], c)
      | .element =>
        let (entries, c) ← flowEntries n c
        some ((key, value) :: entries, c)

/-- The value behind a key, null where there is none. -/
def flowValue : Nat → Cursor → Option (Yaml × Cursor)
  | 0, _ => none
  | n + 1, c =>
    match c.rest with
    | 0x3a :: _ =>
      let c := (c.advance 1).skip
      match c.rest with
      | 0x2c :: _ => some (null, c)
      | 0x7d :: _ => some (null, c)
      | _ => flow n c
    | _ => some (null, c)

end

/-! ## Block collections -/

/-- A dash that starts an item. -/
def isDash (s : Bytes) : Bool :=
  match s with
  | 0x2d :: rest => Cursor.isAtBlank rest
  | _ => false

/-- A question mark that starts a key. -/
def isQuestion (s : Bytes) : Bool :=
  match s with
  | 0x3f :: rest => Cursor.isAtBlank rest
  | _ => false

/-- A colon that ends a key. -/
def isColon (s : Bytes) : Bool :=
  match s with
  | 0x3a :: rest => Cursor.isAtBlank rest
  | _ => false

/-- A bracket that opens a flow collection. -/
def isOpening (s : Bytes) : Bool :=
  match s with
  | 0x5b :: _ => true
  | 0x7b :: _ => true
  | _ => false

mutual

/-- The node that starts at a column of at least `least`; null where the text goes on
before that. A node on the line of its key (`inline`) cannot be a block collection. -/
def block : Nat → Nat → Bool → Cursor → Option (Yaml × Cursor)
  | 0, _, _, _ => none
  | n + 1, least, inline, c =>
    let c := c.skip
    if c.rest.isEmpty ∨ c.column < least then some (null, c)
    else if isOpening c.rest then do
      let (d, c) ← flow n c
      if isColon c.skipBlanks.rest then none else some (d, c)
    else if isDash c.rest then
      if inline then none else do
        let (items, c') ← blockItems n c.column c
        some (seq items, c')
    else if isQuestion c.rest then
      if inline then none else do
        let (entries, c') ← blockEntries n c.column c
        some (map entries, c')
    else do
      let (d, c') ← scalarAt false c
      if isColon c'.skipBlanks.rest then
        if inline then none else do
          let (entries, c') ← blockEntries n c.column c
          some (map entries, c')
      else some (d, c')

/-- The items whose dashes stand at `column`, from one of them on. -/
def blockItems : Nat → Nat → Cursor → Option (List Yaml × Cursor)
  | 0, _, _ => none
  | n + 1, column, c => do
    let (item, c) ← block n (column + 1) false (c.advance 1)
    let c := c.skip
    if !c.rest.isEmpty && c.column == column && isDash c.rest then
      let (items, c) ← blockItems n column c
      some (item :: items, c)
    else some ([item], c)

/-- The entries whose keys start at `column`, from one of them on. -/
def blockEntries : Nat → Nat → Cursor → Option (List (Yaml × Yaml) × Cursor)
  | 0, _, _ => none
  | n + 1, column, c => do
    let (entry, c) ← blockEntry n column c
    let c := c.skip
    if c.rest.isEmpty || c.column < column then some ([entry], c)
    else if c.column == column && !isDash c.rest then
      let (entries, c) ← blockEntries n column c
      some (entry :: entries, c)
    else if c.column == column then some ([entry], c)
    else none

/-- A key and its value. -/
def blockEntry : Nat → Nat → Cursor → Option ((Yaml × Yaml) × Cursor)
  | 0, _, _ => none
  | n + 1, column, c =>
    if isQuestion c.rest then do
      let (key, c) ← block n (column + 1) false (c.advance 1)
      let c := c.skip
      if !c.rest.isEmpty && c.column == column && isColon c.rest then
        let (value, c) ← block n (column + 1) false (c.advance 1)
        some ((key, value), c)
      else some ((key, null), c)
    else do
      let (key, c) ← scalarAt false c
      let c := c.skipBlanks
      if isColon c.rest then
        let (value, c) ← blockValue n column (c.advance 1)
        some ((key, value), c)
      else none

/-- The value behind the colon of a key at `column` : on the same line, deeper on the
next lines, or a sequence whose dashes stand below the key. -/
def blockValue : Nat → Nat → Cursor → Option (Yaml × Cursor)
  | 0, _, _ => none
  | n + 1, column, c =>
    let here := c.skip
    if here.line == c.line then block n 0 true c
    else if here.column == column && isDash here.rest then block n column false c
    else block n (column + 1) false c

end

/-! ## Documents -/

/-- The lines of a text. -/
def lines (s : Bytes) : List Bytes := Bytes.pieces 0x0a s

/-- The line that separates documents. -/
def isSeparator (l : Bytes) : Bool := trimEnd l == "---"

/-- The lines between the separators. -/
def sections : List Bytes → List (List Bytes)
  | [] => [[]]
  | l :: ls =>
    if isSeparator l then [] :: sections ls
    else match sections ls with
      | [] => [[l]]
      | s :: ss => (l :: s) :: ss

/-- Nothing but blanks and comments. -/
def isBare (s : Bytes) : Bool := (Cursor.skip ⟨s, 0, 0⟩).rest.isEmpty

/-- The one document of a section, null where it holds nothing. -/
def section? (s : Bytes) : Option Yaml := do
  let (d, c) ← block (4 * s.length + 8) 0 false ⟨s, 0, 0⟩
  if c.skip.rest.isEmpty then some d else none

/-- The sections of a text that are documents. What stands before the first separator is
one only if it holds something. -/
def sectionsOf (s : Bytes) : List Bytes :=
  match (sections (lines s)).map (Bytes.join [0x0a]) with
  | [] => []
  | first :: rest => if isBare first then rest else first :: rest

/-- All documents of a text. -/
def documents? (s : Bytes) : Option (List Yaml) := (sectionsOf s).mapM section?

/-- The first document of a text, null where there is none. -/
def document? (s : Bytes) : Option Yaml :=
  match sectionsOf s with
  | [] => some null
  | first :: _ => section? first

instance : Reader where
  documents? := documents?
  document? := document?

end Yaml

end ClusterEvidence
