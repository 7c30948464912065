import ClusterEvidence.Yaml.Basic

/-!
# Taking values out of documents

A `Decoded α` is a value taken out of a document or the first `Mismatch` met on the way.
A field that is missing or null keeps its default, and so does every field looked up in
something that is not a map (`Yaml.fieldOr`); a field that is there must convert. Lists
and maps of strings are empty where they are missing or null.
-/

namespace ClusterEvidence

namespace Yaml

/-- A part of a document that has not the shape asked for. -/
inductive Mismatch
  | badConversion
  | notStrings
  | notStringMap
  | notList
deriving DecidableEq

/-- What is wrong with the shape. Where in the text the value stands, by line and column, is left
out of the message of a conversion. -/
def Mismatch.message : Mismatch → Bytes
  | badConversion => "bad conversion"
  | notStrings => "expected a sequence of strings"
  | notStringMap => "expected a map of strings"
  | notList => "expected a sequence"

/-- A value, or the first part of the document with a wrong shape. -/
abbrev Decoded (α : Type) := Except Mismatch α

/-- A conversion that may fail, as a decoder. -/
def convert {α : Type} : Option α → Decoded α
  | some a => .ok a
  | none => .error .badConversion

/-- The text of a scalar. -/
def toText (d : Yaml) : Decoded Bytes := convert d.text?

/-- A 32-bit integer. -/
def toInt32 (d : Yaml) : Decoded Int32 :=
  (convert (d.integer? Int32.minValue.toInt Int32.maxValue.toInt)).map Int32.ofInt

/-- A 64-bit integer. -/
def toInt64 (d : Yaml) : Decoded Int64 :=
  (convert (d.integer? Int64.minValue.toInt Int64.maxValue.toInt)).map Int64.ofInt

/-- A truth value. -/
def toBool (d : Yaml) : Decoded Bool := convert d.boolean?

variable {α : Type}

/-- The converted value, or the default of nothing and null. -/
def valueOr (conv : Yaml → Decoded α) (default : α) : Option Yaml → Decoded α
  | none => .ok default
  | some null => .ok default
  | some v => conv v

/-- The converted value of a field, or its default where there is nothing to convert. -/
def fieldOr (conv : Yaml → Decoded α) (default : α) (k : Bytes) (d : Option Yaml) : Decoded α :=
  valueOr conv default (child k d)

/-- A text field; empty by default. -/
def textField (k : Bytes) (d : Option Yaml) : Decoded Bytes := fieldOr toText [] k d

/-- The items of a sequence, each decoded. `wrong` tells what else than a sequence is. -/
def itemsOr (wrong : Mismatch) (item : Yaml → Decoded α) (d : Option Yaml) : Decoded (List α) :=
  match d with
  | none => .ok []
  | some null => .ok []
  | some (seq l) => l.mapM item
  | some _ => .error wrong

/-- A list of objects. -/
def objects (item : Option Yaml → Decoded α) (d : Option Yaml) : Decoded (List α) :=
  itemsOr .notList (fun v => item (some v)) d

/-- A list of strings. -/
def texts (d : Option Yaml) : Decoded (List Bytes) := itemsOr .notStrings toText d

/-- A key and its value in a map of strings; a value may be missing. -/
def labelEntry (e : Yaml × Yaml) : Decoded (Bytes × Bytes) := do
  let v ← match e.2 with
    | null => pure []
    | v => toText v
  let k ← toText e.1
  pure (k, v)

end Yaml

end ClusterEvidence
