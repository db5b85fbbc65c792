import PeerSearch.SortedMap
import PeerSearch.Text.Blank

/-!
# PeerSearch.Document -- metadata documents

A result may carry a document: the schema names its media family, and the fields map names such as
artist or album to texts.
-/

namespace PeerSearch

/-- Structured metadata of a result. -/
structure Document where
  schema : String
  fields : SortedMap String String := ∅
  deriving DecidableEq

namespace Document

/-- The document with a field set, in place of the value it had. -/
def withField (d : Document) (field value : String) : Document :=
  { d with fields := d.fields.insert field value }

/-- The text of a field. -/
def value? (d : Document) (field : String) : Option String :=
  d.fields.find? field

/-- A document whose fields are all blank carries nothing worth indexing. -/
def isEmpty (d : Document) : Bool :=
  d.fields.values.all Text.isBlankText

end Document

end PeerSearch
