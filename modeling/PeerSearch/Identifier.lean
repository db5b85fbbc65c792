import PeerSearch.KeyOrder

/-!
# PeerSearch.Identifier -- names for groups, results and searches

Groups, accepted results and open searches are named by numbers that their owner counts up and
never hands out twice. The text of an identifier is its number behind a letter.
-/

namespace PeerSearch

/-- Names a group of results within one table. -/
structure GroupId where
  val : Nat
  deriving DecidableEq, Repr

/-- Names an accepted result within one table. -/
structure ResultId where
  val : Nat
  deriving DecidableEq, Repr

/-- Names an open search. -/
structure SearchId where
  val : Nat
  deriving DecidableEq, Repr

namespace GroupId

def text (id : GroupId) : String := "g" ++ toString id.val

theorem eq_of_val {a b : GroupId} (h : a.val = b.val) : a = b :=
  congrArg GroupId.mk h

instance : Ord GroupId where
  compare a b := compare a.val b.val

instance : Std.TransOrd GroupId :=
  transOrd_of_key compare val fun _ _ => rfl

instance : Std.LawfulEqOrd GroupId :=
  lawfulEqOrd_of_key compare val (fun _ _ => rfl) fun _ _ h => congrArg GroupId.mk h

end GroupId

namespace ResultId

def text (id : ResultId) : String := "r" ++ toString id.val

instance : Ord ResultId where
  compare a b := compare a.val b.val

instance : Std.TransOrd ResultId :=
  transOrd_of_key compare val fun _ _ => rfl

instance : Std.LawfulEqOrd ResultId :=
  lawfulEqOrd_of_key compare val (fun _ _ => rfl) fun _ _ h => congrArg ResultId.mk h

end ResultId

def SearchId.text (id : SearchId) : String := "s" ++ toString id.val

end PeerSearch
