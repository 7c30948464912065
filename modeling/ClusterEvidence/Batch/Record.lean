import ClusterEvidence.Resource.Anonymize
import ClusterEvidence.Resource.Encode
import ClusterEvidence.Surroundings

/-!
# Records

A `Record` is one named unit of gathered output. Its `Content` is turned into bytes only
when a recorder asks for them (`Content.marshal`) : raw bytes, the report of a batch, a
JSON tree as it is, or a resource that is anonymized on the way, so the gathered resource
is never shown and never changed. `Content.custom` stands for any other content; its
marshalling may fail and may move the surroundings, for instance raise the cancellation
flag.
-/

namespace ClusterEvidence

/-- How one routine of a batch went : how long it took, how many records it produced and
the messages of its errors. -/
structure ReportEntry where
  name : Bytes := []
  elapsed : Nanoseconds := 0
  records : Int32 := 0
  errors : List Bytes := []
deriving DecidableEq

namespace ReportEntry

/-- An entry as a JSON object. -/
def toJson (e : ReportEntry) : Json :=
  .obj
    [Json.field "name" e.name,
     Json.fieldNumber "elapsed" e.elapsed.toInt,
     Json.fieldNumber "report" e.records.toInt,
     Json.member "errors" (Json.strings e.errors)]

end ReportEntry

/-- A report as JSON text, one object for each routine. -/
def reportText (l : List ReportEntry) : Bytes := (Json.arr (l.map ReportEntry.toJson)).render

/-- What a record holds, before it is bytes. -/
inductive Content (ε : Type)
  | raw (bytes : Bytes)
  | report (entries : List ReportEntry)
  | json (tree : Json)
  | anonymized (kind : Kind) (object : kind.Object) (anonymizer : Option Anonymizer)
  | custom (ext : Bytes) (marshal : StateM ε (Fetched Bytes))

namespace Content

variable {ε : Type}

/-- The extension of the file that the bytes belong in; none for raw bytes. -/
def ext : Content ε → Bytes
  | raw _ => []
  | custom e _ => e
  | _ => "json"

/-- An anonymizing content without an anonymizer shows nothing. -/
def noAnonymizer : Status := ⟨.internal, "encoder has no anonymizer"⟩

/-- The bytes of the content, or why there are none. -/
def marshal : Content ε → StateM ε (Fetched Bytes)
  | raw s => pure (.ok s)
  | report l => pure (.ok (reportText l))
  | json j => pure (.ok j.render)
  | anonymized k o (some a) => pure (.ok (encodeText k (anonymize a k o)))
  | anonymized _ _ none => pure (.error noAnonymizer)
  | custom _ m => m

end Content

/-- One named unit of output. `fingerprint` may be empty, and a record without an item
has nothing to write. -/
structure Record (ε : Type) where
  name : Bytes
  captured : Nanoseconds := 0
  fingerprint : Bytes := []
  item : Option (Content ε)

namespace Record

variable {σ ε : Type}

/-- A record of the present moment. -/
def now (env : Surroundings σ) (name : Bytes) (item : Content ε) : StateM σ (Record ε) := do
  let t ← env.wallClock
  pure { name := name, captured := t, item := some item }

end Record

end ClusterEvidence
