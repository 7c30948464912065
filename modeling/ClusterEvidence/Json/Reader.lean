import ClusterEvidence.Json.Basic

/-!
# Reading JSON

`Json.read?` is the tree of a JSON text whose numbers are integers : blanks may stand
around every value and sign, strings hold any bytes but the quote, the backslash and those
below 0x20, and everything that JSON can escape is understood. A text that is not JSON, or
that has a number with a fraction or an exponent, has no tree.

`value`, `items` and `members` read one thing each and answer with it and with what
follows it. Each of them gets as many steps as the text could need, so the budget that
`Json.read?` computes from the length of its text never runs out.
-/

namespace ClusterEvidence

namespace Json

namespace Reader

/-! ## Scalars -/

/-- The bytes that may stand around values and signs. -/
def isBlank (b : UInt8) : Bool := b == 0x20 || b == 0x09 || b == 0x0a || b == 0x0d

/-- What is left behind the blanks. -/
def skipBlanks (s : Bytes) : Bytes := s.dropWhile isBlank

/-- What is left behind a word, if the text starts with it. -/
def after? (word s : Bytes) : Option Bytes :=
  if word.isPrefixOf s then some (s.drop word.length) else none

/-- The byte that a letter behind a backslash stands for. -/
def escaped? (b : UInt8) : Option UInt8 :=
  if b = 0x22 ∨ b = 0x5c ∨ b = 0x2f then some b
  else if b = 0x62 then some 0x08
  else if b = 0x66 then some 0x0c
  else if b = 0x6e then some 0x0a
  else if b = 0x72 then some 0x0d
  else if b = 0x74 then some 0x09
  else none

/-- A code unit that has to be followed by one of the second half. -/
def isHighSurrogate (n : Nat) : Bool := 0xd800 ≤ n && n < 0xdc00

/-- A code unit of the second half of a pair. -/
def isLowSurrogate (n : Nat) : Bool := 0xdc00 ≤ n && n < 0xe000

/-- The code point of a pair of surrogates. -/
def ofSurrogates (high low : Nat) : Nat := 0x10000 + (high - 0xd800) * 0x400 + (low - 0xdc00)

/-- The string up to its closing quote, and what follows. -/
def string? : Bytes → Option (Bytes × Bytes)
  | [] => none
  | b :: rest =>
    if b = 0x22 then some ([], rest)
    else if b < 0x20 then none
    else if b = 0x5c then
      match rest with
      | [] => none
      | e :: rest =>
        match escaped? e with
        | some x => (string? rest).map fun (s, rest) => (x :: s, rest)
        | none =>
          if e = 0x75 then
            match rest with
            | p :: q :: r :: t :: rest =>
              match Bytes.hexWord? p q r t with
              | none => none
              | some n =>
                if isLowSurrogate n then none
                else if isHighSurrogate n then
                  match rest with
                  | 0x5c :: 0x75 :: p :: q :: r :: t :: rest =>
                    match (Bytes.hexWord? p q r t).filter isLowSurrogate with
                    | none => none
                    | some m =>
                      (string? rest).map fun (s, rest) => (Bytes.utf8 (ofSurrogates n m) ++ s, rest)
                  | _ => none
                else (string? rest).map fun (s, rest) => (Bytes.utf8 n ++ s, rest)
            | _ => none
          else none
    else (string? rest).map fun (s, rest) => (b :: s, rest)

/-- A fraction or an exponent follows. -/
def isFractional : Bytes → Bool
  | [] => false
  | b :: _ => b == 0x2e || b == 0x65 || b == 0x45

/-- The natural number at the start of a text, without needless zeros in front, and what
follows. -/
def natural? (s : Bytes) : Option (Nat × Bytes) :=
  let digits := s.takeWhile Bytes.isDigit
  let rest := s.dropWhile Bytes.isDigit
  if (digits.head? = some 0x30 ∧ digits ≠ [0x30]) ∨ isFractional rest then none
  else (Bytes.natural? digits).map fun n => (n, rest)

/-- The integer at the start of a text, and what follows. -/
def integer? : Bytes → Option (Int × Bytes)
  | [] => none
  | b :: rest =>
    if b = 0x2d then (natural? rest).map fun (n, rest) => (-(n : Int), rest)
    else (natural? (b :: rest)).map fun (n, rest) => ((n : Int), rest)

/-! ## Values -/

mutual

/-- The value at the start of a text, and what follows. -/
def value : Nat → Bytes → Option (Json × Bytes)
  | 0, _ => none
  | n + 1, s =>
    match skipBlanks s with
    | [] => none
    | b :: rest =>
      if b = 0x22 then (string? rest).map fun (t, rest) => (str t, rest)
      else if b = 0x5b then (array n rest).map fun (l, rest) => (arr l, rest)
      else if b = 0x7b then (object n rest).map fun (l, rest) => (obj l, rest)
      else if b = 0x6e then (after? "ull" rest).map fun rest => (null, rest)
      else if b = 0x74 then (after? "rue" rest).map fun rest => (bool true, rest)
      else if b = 0x66 then (after? "alse" rest).map fun rest => (bool false, rest)
      else (integer? (b :: rest)).map fun (i, rest) => (num i, rest)

/-- The items behind an opening bracket up to the closing one, and what follows. -/
def array : Nat → Bytes → Option (List Json × Bytes)
  | 0, _ => none
  | n + 1, s =>
    match skipBlanks s with
    | 0x5d :: rest => some ([], rest)
    | _ => items n s

/-- At least one item up to the closing bracket, and what follows. -/
def items : Nat → Bytes → Option (List Json × Bytes)
  | 0, _ => none
  | n + 1, s => do
    let (j, rest) ← value n s
    match skipBlanks rest with
    | 0x5d :: rest => some ([j], rest)
    | 0x2c :: rest =>
      let (js, rest) ← items n rest
      some (j :: js, rest)
    | _ => none

/-- The members behind an opening brace up to the closing one, and what follows. -/
def object : Nat → Bytes → Option (List (Bytes × Json) × Bytes)
  | 0, _ => none
  | n + 1, s =>
    match skipBlanks s with
    | 0x7d :: rest => some ([], rest)
    | _ => members n s

/-- At least one member up to the closing brace, and what follows. -/
def members : Nat → Bytes → Option (List (Bytes × Json) × Bytes)
  | 0, _ => none
  | n + 1, s => do
    let (m, rest) ← pair n s
    match skipBlanks rest with
    | 0x7d :: rest => some ([m], rest)
    | 0x2c :: rest =>
      let (ms, rest) ← members n rest
      some (m :: ms, rest)
    | _ => none

/-- A key, a colon and a value, and what follows. -/
def pair : Nat → Bytes → Option ((Bytes × Json) × Bytes)
  | 0, _ => none
  | n + 1, s =>
    match skipBlanks s with
    | 0x22 :: rest => do
      let (k, rest) ← string? rest
      match skipBlanks rest with
      | 0x3a :: rest =>
        let (j, rest) ← value n rest
        some ((k, j), rest)
      | _ => none
    | _ => none

end

end Reader

/-- The tree of a JSON text. -/
def read? (s : Bytes) : Option Json :=
  match Reader.value (4 * s.length + 1) s with
  | some (j, rest) => if (Reader.skipBlanks rest).isEmpty then some j else none
  | none => none

end Json

end ClusterEvidence
