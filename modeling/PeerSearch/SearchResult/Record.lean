import PeerSearch.Json.Reader
import PeerSearch.SearchResult

/-!
# PeerSearch.SearchResult.Record -- results as JSON records

A record is an object with a member for each field, or an array of the fields in their order. Name
and size are required and every other field has a default. Members of other names are skipped, a
field may not be given twice, and the first fault in the order of the text is the one reported. Of
the faults only a bad content hash has a description.
-/

namespace PeerSearch

namespace SearchResult

/-- What is wrong with a record. -/
inductive RecordError where
  | malformed
  | invalidHash (value : String) (flaw : ContentHash.Flaw)
  deriving DecidableEq, Repr

/-- The description of the fault, if it has one. -/
def RecordError.message? : RecordError → Option String
  | .malformed => none
  | .invalidHash value flaw => some (flaw.message value)

/-! ## Parts of a record -/

/-- The value of a field, or a malformed record. -/
def require {α : Type} : Option α → Except RecordError α
  | some a => .ok a
  | none => .error .malformed

/-- A field for which `null` means absence. -/
def optional {α : Type} (read : Json → Except RecordError α) : Json → Except RecordError (Option α)
  | .null => .ok none
  | j => (read j).map some

/-- The name of a variant: a string, or an object whose one member of that name is `null`. -/
def variantName? : Json → Option String
  | .string s => s
  | .object [(name, .null)] => name
  | _ => none

/-- A content hash as its text. -/
def readHash (j : Json) : Except RecordError ContentHash := do
  let value ← require j.text?
  match ContentHash.read value with
  | .ok hash => return hash
  | .error flaw => throw (.invalidHash value flaw)

/-- Pairs the items of an array with the names of the fields they stand for. -/
def named (names : List String) (items : List Json) : List (Option String × Json) :=
  (names.map some).zip items

/-- A member whose value is a text. -/
def textMember? : Option String × Json → Option (String × String)
  | (some name, .string (some text)) => some (name, text)
  | _ => none

/-- The fields of a document: names with texts, of which later ones replace earlier ones. -/
def readFields? (members : List (Option String × Json)) : Option (SortedMap String String) :=
  (members.mapM textMember?).map SortedMap.ofList

/-- The names of a document's members. -/
def documentNames : List String := ["schema", "fields"]

/-- The members of a document that are known, none of them given twice. -/
def documentOf? (members : List (Option String × Json)) : Option Document := do
  let names ← members.mapM (·.1)
  let known := names.filter documentNames.contains
  let schema ← (← members.lookup (some "schema")).text?
  let fields ← match members.lookup (some "fields") with
    | none => some ∅
    | some (.object fields) => readFields? fields
    | some _ => none
  if known.Nodup then return ⟨schema, fields⟩ else none

/-- A metadata document. -/
def readDocument : Json → Except RecordError Document
  | .object members => require (documentOf? members)
  | .array items =>
    if items.length ≤ documentNames.length then require (documentOf? (named documentNames items))
    else .error .malformed
  | _ => .error .malformed

/-! ## Fields -/

/-- The names of the fields, in order. -/
def fieldNames : List String :=
  ["file_name", "size", "hash", "speed", "measured_speed", "quality", "kind", "secure", "vendor",
    "spam_score", "created_at", "source", "document"]

/-- The fields that have no default. -/
def requiredNames : List String := ["file_name", "size"]

/-- The result with the named field read from a value; `score` reads spam scores. -/
def setField (score : Json → Option Binary32) (r : SearchResult) (name : String) (j : Json) :
    Except RecordError SearchResult := do
  match name with
  | "file_name" => return { r with fileName := ← require j.text? }
  | "size" => return { r with size := ← require j.nat64? }
  | "hash" => return { r with hash := ← optional readHash j }
  | "speed" => return { r with speed := ← require j.nat32? }
  | "measured_speed" => return { r with measuredSpeed := ← require j.bool? }
  | "quality" => return { r with quality := ← require ((variantName? j).bind Quality.ofName?) }
  | "kind" => return { r with kind := ← require ((variantName? j).bind ResultKind.ofName?) }
  | "secure" => return { r with secure := ← require j.bool? }
  | "vendor" => return { r with vendor := ← require j.text? }
  | "spam_score" => return { r with spamScore := ← require (score j) }
  | "created_at" => return { r with createdAt := ← optional (fun j => require j.int64?) j }
  | "source" => return { r with source := ← optional (fun j => require j.text?) j }
  | "document" => return { r with document := ← optional readDocument j }
  | _ => return r

/-- Reads members into a result of which the fields `seen` have been given. -/
def readMembers (score : Json → Option Binary32) (r : SearchResult) (seen : List String) :
    List (Option String × Json) → Except RecordError (SearchResult × List String)
  | [] => .ok (r, seen)
  | (none, _) :: _ => .error .malformed
  | (some name, value) :: rest =>
    if fieldNames.contains name then
      if seen.contains name then .error .malformed
      else
        match r.setField score name value with
        | .ok r => readMembers score r (name :: seen) rest
        | .error e => .error e
    else readMembers score r seen rest

/-- A result that has nothing but defaults; its name and size are yet to be given. -/
def blank : SearchResult :=
  { fileName := "", size := 0 }

/-- The result with the given members; `whole` tells whether these are all there is. -/
def ofMembers (score : Json → Option Binary32) (whole : Bool)
    (members : List (Option String × Json)) : Except RecordError SearchResult := do
  let (r, seen) ← blank.readMembers score [] members
  if whole && requiredNames.all seen.contains then return r else throw .malformed

/-! ## Records -/

/-- The result that a value describes. -/
def ofJson (score : Json → Option Binary32) : Json → Except RecordError SearchResult
  | .object members => ofMembers score true members
  | .array items => ofMembers score (items.length ≤ fieldNames.length) (named fieldNames items)
  | _ => .error .malformed

/-- Whether nothing but white space follows; a text that broke off does not count. -/
def endsThere (rest : Option (List Char)) : Bool :=
  match rest with
  | some cs => (Json.skipGaps cs).isEmpty
  | none => false

/-- Reads a result from a line of text. What precedes a syntax error counts first. -/
def readLine (line : String) : Except RecordError SearchResult :=
  let cs := line.toList
  match Json.skipGaps cs with
  | '\x7b' :: rest =>
    let (members, rest) := Json.readMembers (Json.enoughFuel cs) rest
    ofMembers Json.single? (endsThere rest) members
  | '[' :: rest =>
    let (items, rest) := Json.readItems (Json.enoughFuel cs) rest
    ofMembers Json.single? (endsThere rest && items.length ≤ fieldNames.length)
      (named fieldNames items)
  | _ => .error .malformed

/-- The record of a document. -/
def documentJson (d : Document) : Json :=
  .ofMembers
    [("schema", .ofText d.schema),
      ("fields", .ofMembers (d.fields.entries.map fun (name, text) => (name, .ofText text)))]

/-- The record of a result; fields that are absent are left out, and `score` writes spam scores. -/
def toJson (score : Binary32 → Json) (r : SearchResult) : Json :=
  let given {α : Type} (name : String) (write : α → Json) (a : Option α) : List (String × Json) :=
    match a with
    | some a => [(name, write a)]
    | none => []
  .ofMembers
    ([("file_name", .ofText r.fileName), ("size", .ofNat r.size)] ++
      given "hash" (fun h => .ofText h.urn) r.hash ++
      [("speed", .ofNat r.speed), ("measured_speed", .bool r.measuredSpeed),
        ("quality", .ofText r.quality.name), ("kind", .ofText r.kind.name),
        ("secure", .bool r.secure), ("vendor", .ofText r.vendor),
        ("spam_score", score r.spamScore)] ++
      given "created_at" Json.ofInt r.createdAt ++
      given "source" Json.ofText r.source ++
      given "document" documentJson r.document)

end SearchResult

end PeerSearch
