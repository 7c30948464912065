/-!
# Byte strings

Names, manifests and records are byte strings : every length, order, mask and digest
of the library is taken over bytes, and nothing asks whether they form valid UTF-8.

`Bytes.pieces` cuts at a separator and `Bytes.join` puts the pieces back. `Bytes.lower`
folds ASCII letters and leaves every other byte. `Bytes.decimal` writes an integer,
`Bytes.hex` a byte and `Bytes.utf8` a code point. The order is the one of `List UInt8`,
lexicographic by byte; `Bytes.sorted` sorts by it and `Bytes.dropRepeats` keeps one of each
run of equal neighbours.
-/

namespace ClusterEvidence

/-- A string of bytes. -/
abbrev Bytes := List UInt8

namespace Bytes

/-- The UTF-8 bytes of a text. -/
def ofString (s : String) : Bytes := s.toUTF8.data.toList

instance : Coe String Bytes := ⟨ofString⟩

/-! ## Cutting and joining -/

/-- The parts between the occurrences of `sep`, one more than there are occurrences. -/
def pieces (sep : UInt8) : Bytes → List Bytes
  | [] => [[]]
  | b :: bs =>
    if b = sep then [] :: pieces sep bs
    else match pieces sep bs with
      | [] => [[b]]
      | p :: ps => (b :: p) :: ps

/-- The parts in order with `sep` between neighbours. -/
def join (sep : Bytes) : List Bytes → Bytes
  | [] => []
  | [p] => p
  | p :: q :: ps => p ++ sep ++ join sep (q :: ps)

/-- `word` starts the text. -/
def startsWith (word : Bytes) (s : Bytes) : Bool := word.isPrefixOf s

/-- `word` ends the text. -/
def endsWith (word : Bytes) (s : Bytes) : Bool := word.isSuffixOf s

/-- `word` occurs somewhere in the text. -/
def includes (word : Bytes) : Bytes → Bool
  | [] => word.isEmpty
  | b :: bs => word.isPrefixOf (b :: bs) || includes word bs

/-! ## Letters -/

/-- An ASCII capital becomes its small letter, any other byte stays. -/
def lowerByte (b : UInt8) : UInt8 := if 0x41 ≤ b ∧ b ≤ 0x5a then b + 0x20 else b

/-- Every ASCII capital replaced by its small letter. -/
def lower (s : Bytes) : Bytes := s.map lowerByte

/-- The ASCII digits. -/
def isDigit (b : UInt8) : Bool := 0x30 ≤ b && b ≤ 0x39

/-! ## Numbers -/

/-- The decimal digits of a natural number, without leading zeros. -/
def digits (n : Nat) : Bytes := (Nat.toDigits 10 n).map Char.toUInt8

/-- An integer in decimal, with `-` in front of a negative one. -/
def decimal : Int → Bytes
  | .ofNat n => digits n
  | .negSucc n => 0x2d :: digits (n + 1)

/-- The value of a string of decimal digits; none for the empty string and for any other byte. -/
def natural? (s : Bytes) : Option Nat :=
  if s.isEmpty || !s.all isDigit then none
  else some (s.foldl (fun n b => 10 * n + (b.toNat - 0x30)) 0)

/-- The lowercase hexadecimal digit of a number below sixteen. -/
def hexDigit (n : UInt8) : UInt8 := if n < 10 then 0x30 + n else 0x57 + n

/-- The two hexadecimal digits of a byte. -/
def hex (b : UInt8) : Bytes := [hexDigit (b >>> 4), hexDigit (b &&& 0xf)]

/-- The value of a digit, letters of either case counting from ten; no digit has the
value sixteen. -/
def digitValue (b : UInt8) : Nat :=
  if 0x30 ≤ b ∧ b ≤ 0x39 then b.toNat - 0x30
  else if 0x61 ≤ b ∧ b ≤ 0x66 then b.toNat - 0x57
  else if 0x41 ≤ b ∧ b ≤ 0x46 then b.toNat - 0x37
  else 16

/-- The value of four hexadecimal digits. -/
def hexWord? (p q r s : UInt8) : Option Nat :=
  if digitValue p < 16 ∧ digitValue q < 16 ∧ digitValue r < 16 ∧ digitValue s < 16 then
    some (((digitValue p * 16 + digitValue q) * 16 + digitValue r) * 16 + digitValue s)
  else none

/-- The UTF-8 bytes of a code point. -/
def utf8 (n : Nat) : Bytes :=
  if n < 0x80 then [UInt8.ofNat n]
  else if n < 0x800 then [UInt8.ofNat (0xc0 + n / 64), UInt8.ofNat (0x80 + n % 64)]
  else if n < 0x10000 then
    [UInt8.ofNat (0xe0 + n / 4096), UInt8.ofNat (0x80 + n / 64 % 64), UInt8.ofNat (0x80 + n % 64)]
  else
    [UInt8.ofNat (0xf0 + n / 262144), UInt8.ofNat (0x80 + n / 4096 % 64),
     UInt8.ofNat (0x80 + n / 64 % 64), UInt8.ofNat (0x80 + n % 64)]

/-! ## Order -/

/-- Sorted by bytes; equal strings stay in their order. -/
def sorted (l : List Bytes) : List Bytes := l.mergeSort fun a b => decide (a ≤ b)

/-- One of each run of equal neighbours. On a sorted list every string is kept once. -/
def dropRepeats : List Bytes → List Bytes
  | [] => []
  | [a] => [a]
  | a :: b :: l => if a = b then dropRepeats (b :: l) else a :: dropRepeats (b :: l)

end Bytes

end ClusterEvidence
