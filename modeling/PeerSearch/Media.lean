import PeerSearch.KeyOrder
import PeerSearch.SortedMap
import PeerSearch.Text.Ascii
import PeerSearch.Text.Blank

/-!
# PeerSearch.Media -- media families and the registry of file extensions

A registry sends file extensions to media families without regard to ASCII case; what it does not
list belongs to no particular family. Metadata schemas name families too, under names of their own.
-/

namespace PeerSearch

/-! ## Families -/

/-- Broad media family of a shared file. -/
inductive MediaType where
  | audio
  | video
  | image
  | document
  | program
  | other
  deriving DecidableEq, Repr

namespace MediaType

/-- Every family, in order. -/
def all : List MediaType := [audio, video, image, document, program, other]

/-- The name of the family. -/
def name : MediaType → String
  | audio => "audio"
  | video => "video"
  | image => "image"
  | document => "document"
  | program => "program"
  | other => "other"

/-- The name that metadata documents use for the family. -/
def schema : MediaType → String
  | program => "application"
  | media => media.name

/-- The family of that name. -/
def ofName? (name : String) : Option MediaType :=
  all.find? fun media => media.name == name

/-- The family that a metadata schema names, in whatever ASCII case; unknown schemas belong to no
particular one. -/
def ofSchema (schema : String) : MediaType :=
  let wanted := Text.trim schema
  (all.find? fun media => Text.sameIgnoringAsciiCase media.schema wanted).getD .other

/-- Place of the family in the order. -/
def rank : MediaType → Nat
  | audio => 0
  | video => 1
  | image => 2
  | document => 3
  | program => 4
  | other => 5

instance : Ord MediaType where
  compare a b := compare a.rank b.rank

instance : Std.TransOrd MediaType :=
  transOrd_of_key compare rank fun _ _ => rfl

instance : Std.LawfulEqOrd MediaType :=
  lawfulEqOrd_of_key compare rank (fun _ _ => rfl) fun a b => by
    cases a <;> cases b <;> simp [rank]

end MediaType

/-! ## Registries -/

/-- Media families of file extensions. Two registries in use may list the same extensions and still
be told apart; `tag` says which one this is. -/
structure Registry where
  tag : Nat
  byExtension : SortedMap String MediaType
  deriving DecidableEq

namespace Registry

/-- The registry without extensions. -/
def empty : Registry :=
  ⟨0, ∅⟩

/-- The form in which an extension is registered: without white space around it, without leading
dots, in lower case. -/
def extensionKey (extension : String) : String :=
  Text.asciiLower (String.ofList
    ((Text.trimChars extension.toList).dropWhile (· == '.')))

/-- Registers an extension; an empty one is ignored. -/
def register (r : Registry) (extension : String) (media : MediaType) : Registry :=
  let key := extensionKey extension
  if key.isEmpty then r else { r with byExtension := r.byExtension.insert key media }

/-- The family of an extension. -/
def ofExtension (r : Registry) (extension : String) : MediaType :=
  (r.byExtension.find? (Text.asciiLower extension)).getD .other

/-- Extensions that are registered unless others are asked for. -/
def commonExtensions : List (MediaType × List String) :=
  [(.audio, ["mp3", "ogg", "flac", "wav", "wma", "m4a", "aac", "mid", "aif", "aiff"]),
   (.video, ["avi", "mpg", "mpeg", "mp4", "mkv", "mov", "wmv", "asf", "ogm", "webm"]),
   (.image, ["jpg", "jpeg", "png", "gif", "bmp", "tif", "tiff", "svg", "webp"]),
   (.document, ["txt", "pdf", "doc", "docx", "rtf", "html", "htm", "xml", "odt", "epub"]),
   (.program,
     ["exe", "msi", "zip", "rar", "7z", "gz", "tar", "dmg", "deb", "rpm", "jar"])]

/-- The registry of the common extensions. -/
def common : Registry :=
  commonExtensions.foldl (fun r (media, extensions) =>
    extensions.foldl (fun r extension => r.register extension media) r) empty

end Registry

end PeerSearch
