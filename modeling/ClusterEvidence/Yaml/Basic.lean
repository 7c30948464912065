import ClusterEvidence.Json.Basic

/-!
# YAML trees

`Yaml` is a document as a finite tree : null, a scalar that is still text, a sequence, or a
map whose keys are trees themselves and keep their order. No node stands in two places, so
there are no aliases in it. Keys are looked up by the text of a scalar (`Yaml.get?`).

`Yaml.child` looks further into something that may be missing. Where there is no map to
look into it answers with a null, so that only a key that is missing from a map counts
as missing.

`Yaml.text?`, `Yaml.integer?` and `Yaml.boolean?` read scalars. An integer may have a
sign and is hexadecimal after `0x`, octal after `0` and decimal otherwise.

`Yaml.ofJson` is a JSON tree as a document.
-/

namespace ClusterEvidence

/-- A document. -/
inductive Yaml
  | null
  | scalar (text : Bytes)
  | seq (items : List Yaml)
  | map (entries : List (Yaml × Yaml))

namespace Yaml

/-- Nothing is there. -/
def isNull : Yaml → Bool
  | null => true
  | _ => false

/-- There are keys to look up. -/
def isMap : Yaml → Bool
  | map _ => true
  | _ => false

/-! ## Looking up -/

/-- The key of an entry is the scalar `k`. -/
def keyIs (k : Bytes) : Yaml → Bool
  | scalar t => t == k
  | _ => false

/-- The value of the first entry with the scalar `k` as key. -/
def lookup (k : Bytes) (l : List (Yaml × Yaml)) : Option Yaml :=
  (l.find? fun e => keyIs k e.1).map Prod.snd

/-- The value under a key; none in anything that is not a map. -/
def get? (k : Bytes) : Yaml → Option Yaml
  | map l => lookup k l
  | _ => none

/-- The value under a key of something that may be missing itself. -/
def child (k : Bytes) : Option Yaml → Option Yaml
  | some (map l) => lookup k l
  | _ => some null

/-! ## Changing maps -/

/-- Replace the value of the entry with the scalar `k` as key, or add one at the end. -/
def setEntry (k : Bytes) (v : Yaml) : List (Yaml × Yaml) → List (Yaml × Yaml)
  | [] => [(scalar k, v)]
  | e :: rest => if keyIs k e.1 then (e.1, v) :: rest else e :: setEntry k v rest

/-- A map with one entry replaced or added; anything else stays. -/
def set (k : Bytes) (v : Yaml) : Yaml → Yaml
  | map l => map (setEntry k v l)
  | d => d

/-- A map without the entries under a key; anything else stays. -/
def erase (k : Bytes) : Yaml → Yaml
  | map l => map (l.filter fun e => !keyIs k e.1)
  | d => d

/-! ## Scalars -/

/-- The text of a scalar. -/
def text? : Yaml → Option Bytes
  | scalar t => some t
  | _ => none

/-- The bytes that may follow a number. -/
def isBlank (b : UInt8) : Bool := b == 0x20 || (0x09 ≤ b && b ≤ 0x0d)

/-- The number that the digits at the start of a text make, when only blanks follow. -/
def magnitude? (base : Nat) (s : Bytes) : Option Nat :=
  let ds := s.takeWhile fun b => decide (Bytes.digitValue b < base)
  if (s.drop ds.length).all isBlank then
    some (ds.foldl (fun n b => base * n + Bytes.digitValue b) 0)
  else none

/-- A number without its sign. The base is taken from how it starts. -/
def unsigned? : Bytes → Option Nat
  | [] => none
  | b :: rest =>
    if b = 0x30 then
      match rest with
      | x :: c :: more =>
        if (x = 0x78 ∨ x = 0x58) then
          if Bytes.digitValue c < 16 then magnitude? 16 (c :: more) else none
        else magnitude? 8 rest
      | [x] => if (x = 0x78 ∨ x = 0x58) then none else magnitude? 8 rest
      | [] => some 0
    else if Bytes.digitValue b < 10 then magnitude? 10 (b :: rest)
    else none

/-- A number with its sign. -/
def signed? : Bytes → Option Int
  | [] => none
  | b :: rest =>
    if b = 0x2d then (unsigned? rest).map fun n => -(n : Int)
    else if b = 0x2b then (unsigned? rest).map fun n => (n : Int)
    else (unsigned? (b :: rest)).map fun n => (n : Int)

/-- The integer a scalar stands for, when it is not below `least` nor above `most`. -/
def integer? (least most : Int) (d : Yaml) : Option Int := do
  let s ← d.text?
  let n ← signed? s
  if least ≤ n ∧ n ≤ most then some n else none

/-- All small letters, all capitals, or small letters after a capital. -/
def isPlainCase (s : Bytes) : Bool :=
  let small : Bytes → Bool := fun l => l.all fun b => decide (0x61 ≤ b ∧ b ≤ 0x7a)
  let large : Bytes → Bool := fun l => l.all fun b => decide (0x41 ≤ b ∧ b ≤ 0x5a)
  small s || (large (s.take 1) && (small (s.drop 1) || large (s.drop 1)))

/-- The truth value a scalar stands for. -/
def boolean? (d : Yaml) : Option Bool := do
  let s ← d.text?
  let l := Bytes.lower s
  if !isPlainCase s then none
  else if l = "y" ∨ l = "yes" ∨ l = "true" ∨ l = "on" then some true
  else if l = "n" ∨ l = "no" ∨ l = "false" ∨ l = "off" then some false
  else none

/-! ## JSON as a document -/

mutual

/-- Objects as maps, arrays as sequences, and every other value but null as the scalar of
its text. -/
def ofJson : Json → Yaml
  | .null => null
  | .bool true => scalar "true"
  | .bool false => scalar "false"
  | .num n => scalar (Bytes.decimal n)
  | .str s => scalar s
  | .arr items => seq (ofJsonItems items)
  | .obj members => map (ofJsonMembers members)

/-- The items of an array in order. -/
def ofJsonItems : List Json → List Yaml
  | [] => []
  | j :: js => ofJson j :: ofJsonItems js

/-- The members of an object in order. -/
def ofJsonMembers : List (Bytes × Json) → List (Yaml × Yaml)
  | [] => []
  | (k, j) :: ms => (scalar k, ofJson j) :: ofJsonMembers ms

end

end Yaml

end ClusterEvidence
