import PeerSearch.KeyOrder
import PeerSearch.Media
import PeerSearch.SpeedClass
import PeerSearch.Text.LowerCase

/-!
# PeerSearch.Facet.Axis -- axes of a facet chooser and the values on them

Groups can be browsed by media family, by the fields of metadata documents and by a few simple
properties. Texts that differ in case only are one value.
-/

namespace PeerSearch

/-! ## Axes -/

/-- Properties that every group has. -/
inductive Property where
  /-- File extension. -/
  | type
  | speed
  | vendor
  deriving DecidableEq, Repr

namespace Property

/-- Every property, in order. -/
def all : List Property := [type, speed, vendor]

def label : Property → String
  | type => "type"
  | speed => "speed"
  | vendor => "vendor"

/-- The property of that label. -/
def ofLabel? (label : String) : Option Property :=
  all.find? fun p => p.label == label

/-- Place of the property in the order. -/
def rank : Property → Nat
  | type => 0
  | speed => 1
  | vendor => 2

end Property

/-- What groups can be browsed by. -/
inductive Axis where
  /-- Media family of the group. -/
  | media
  /-- A field of metadata documents of one family. -/
  | field (media : MediaType) (name : String)
  | property (p : Property)
  deriving DecidableEq, Repr

namespace Axis

/-- The name of the axis that users see. -/
def text : Axis → String
  | media => "media"
  | field m name => m.schema ++ "." ++ name
  | property p => p.label

/-- Where the axis stands: the media axis first, then fields by family and name, then properties. -/
def key : Axis → Nat × String
  | media => (0, "")
  | field m name => (1 + m.rank, name)
  | property p => (7 + p.rank, "")

theorem key_injective (a b : Axis) (h : a.key = b.key) : a = b := by
  have bound (m : MediaType) : m.rank < 6 := by cases m <;> decide
  have ranks (m n : MediaType) : m.rank = n.rank → m = n := by
    cases m <;> cases n <;> simp [MediaType.rank]
  have places (p q : Property) : p.rank = q.rank → p = q := by
    cases p <;> cases q <;> simp [Property.rank]
  cases a <;> cases b <;> simp only [key, Prod.mk.injEq] at h
  case media.media => rfl
  case field.field m _ n _ =>
    rw [ranks m n (by omega), h.2]
  case property.property p q =>
    rw [places p q (by omega)]
  case field.property m _ _ => have := bound m; omega
  case property.field _ m _ => have := bound m; omega
  all_goals omega

instance : Ord Axis where
  compare a b := comparePairs a.key b.key

instance : Std.TransOrd Axis :=
  transOrd_of_key comparePairs key fun _ _ => rfl

instance : Std.LawfulEqOrd Axis :=
  lawfulEqOrd_of_key comparePairs key (fun _ _ => rfl) key_injective

end Axis

/-! ## Values -/

/-- A value on an axis. -/
inductive FacetValue where
  | media (m : MediaType)
  | speed (c : SpeedClass)
  | text (s : String)
  deriving DecidableEq, Repr

namespace FacetValue

/-- The value as users see it. -/
def display : FacetValue → String
  | media m => m.schema
  | speed c => c.label
  | text s => s

/-- The form under which equal values are counted together: texts are taken in lower case. -/
def folded : FacetValue → FacetValue
  | text s => text (Text.lower s)
  | v => v

/-- Where the value stands: families first, then speeds, then texts. -/
def key : FacetValue → Nat × String
  | media m => (m.rank, "")
  | speed c => (6 + c.rank, "")
  | text s => (10, s)

theorem key_injective (a b : FacetValue) (h : a.key = b.key) : a = b := by
  have families (m : MediaType) : m.rank < 6 := by cases m <;> decide
  have classes (c : SpeedClass) : c.rank < 4 := by cases c <;> decide
  have ranks (m n : MediaType) : m.rank = n.rank → m = n := by
    cases m <;> cases n <;> simp [MediaType.rank]
  have places (c d : SpeedClass) : c.rank = d.rank → c = d := by
    cases c <;> cases d <;> simp [SpeedClass.rank]
  cases a <;> cases b <;> simp only [key, Prod.mk.injEq] at h
  case media.media m n => rw [ranks m n h.1]
  case speed.speed c d => rw [places c d (by omega)]
  case text.text => rw [h.2]
  case media.speed m _ => have := families m; omega
  case speed.media _ m => have := families m; omega
  case media.text m _ => have := families m; omega
  case text.media _ m => have := families m; omega
  case speed.text c _ => have := classes c; omega
  case text.speed _ c => have := classes c; omega

instance : Ord FacetValue where
  compare a b := comparePairs a.key b.key

instance : Std.TransOrd FacetValue :=
  transOrd_of_key comparePairs key fun _ _ => rfl

instance : Std.LawfulEqOrd FacetValue :=
  lawfulEqOrd_of_key comparePairs key (fun _ _ => rfl) key_injective

end FacetValue

end PeerSearch
