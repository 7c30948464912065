import ClusterEvidence.Config.Basic
import ClusterEvidence.Digest.Sha256

/-!
# Anonymization of strings

A text is a sequence of words and separators : a word is a longest run of ASCII letters,
digits and bytes from 0x80 on, so text outside ASCII joins the word around it, and every
other byte is a separator. `segments` splits a text that way. `Anonymizer.url` keeps the
separators and the words of the vocabulary and puts a digest in place of every other
word; `digestAddress` digests a whole value, so that the parts of an address cannot
be looked up one by one; `mask` keeps a length and nothing else.
-/

namespace ClusterEvidence

/-! ## Words -/

/-- The bytes that words are made of. -/
def isWordByte (b : UInt8) : Bool :=
  0x80 ≤ b || (0x30 ≤ b && b ≤ 0x39) || (0x41 ≤ b && b ≤ 0x5a) || (0x61 ≤ b && b ≤ 0x7a)

/-- A part of a text. -/
inductive Segment
  | word (w : Bytes)
  | separator (b : UInt8)
deriving DecidableEq

/-- Put a byte in front of a segmented text. -/
def Segment.cons (b : UInt8) (l : List Segment) : List Segment :=
  if isWordByte b then
    match l with
    | .word w :: rest => .word (b :: w) :: rest
    | rest => .word [b] :: rest
  else .separator b :: l

/-- The words and separators of a text, in order. -/
def segments (s : Bytes) : List Segment := s.foldr Segment.cons []

/-! ## The transforms -/

/-- The digits of a digest that stand for a value. -/
def digestLength : Nat := 8

/-- The first hexadecimal digits of the SHA-256 digest of a value. -/
def digestOf (s : Bytes) : Bytes := ((Sha256.digest s).flatMap Bytes.hex).take digestLength

/-- A network address as one value; nothing for nothing. -/
def digestAddress (s : Bytes) : Bytes := if s.isEmpty then [] else digestOf s

/-- As many `x` as the value has bytes. -/
def mask (s : Bytes) : Bytes := List.replicate s.length 0x78

/-- What may be shown. `words` are in small letters. -/
structure Anonymizer where
  words : List Bytes
  trustedKeyDomains : List Bytes

namespace Anonymizer

/-- Words compare in small letters, and an empty entry allows nothing. -/
def ofVocabulary (v : Vocabulary) : Anonymizer where
  words := (v.allowedWords.filter fun w => !w.isEmpty).map Bytes.lower
  trustedKeyDomains := v.trustedKeyDomains

variable (a : Anonymizer)

/-- The word may be shown as it is. -/
def allows (w : Bytes) : Bool := a.words.contains (Bytes.lower w)

/-- A word of the vocabulary or the digest of another; a separator. -/
def segment : Segment → Bytes
  | .word w => if a.allows w then w else digestOf w
  | .separator b => [b]

/-- A URL, host name or identifier with every unknown word replaced. -/
def url (s : Bytes) : Bytes := (segments s).flatMap a.segment

/-- A comma separated list, element by element. -/
def csv (s : Bytes) : Bytes := Bytes.join [0x2c] ((Bytes.pieces 0x2c s).map a.url)

/-- A list, element by element. -/
def list (l : List Bytes) : List Bytes := l.map a.url

/-- A label or annotation key that belongs to a trusted domain. -/
def trustsKey (k : Bytes) : Bool :=
  a.trustedKeyDomains.any fun d => !d.isEmpty && Bytes.includes d k

end Anonymizer

end ClusterEvidence
