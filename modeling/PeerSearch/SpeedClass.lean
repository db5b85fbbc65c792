import PeerSearch.KeyOrder

/-!
# PeerSearch.SpeedClass -- coarse connection classes

Advertised speeds are shown and filtered by class only. The bounds of the classes are included in
the slower one.
-/

namespace PeerSearch

/-- Class of a connection, from slowest to fastest. -/
inductive SpeedClass where
  | modem
  | cable
  | t1
  | t3
  deriving DecidableEq, Repr

namespace SpeedClass

/-- The class of a speed in kbit/s. -/
def ofKbps (kbps : Nat) : SpeedClass :=
  if kbps ≤ 56 then modem
  else if kbps ≤ 350 then cable
  else if kbps ≤ 1000 then t1
  else t3

/-- The label that users see. -/
def label : SpeedClass → String
  | modem => "Modem"
  | cable => "Cable/DSL"
  | t1 => "T1"
  | t3 => "T3 or higher"

/-- The name of the class in data. -/
def name : SpeedClass → String
  | modem => "modem"
  | cable => "cable"
  | t1 => "t1"
  | t3 => "t3"

/-- The class of that name. -/
def ofName? (name : String) : Option SpeedClass :=
  [modem, cable, t1, t3].find? fun c => c.name == name

/-- Place of the class in the order. -/
def rank : SpeedClass → Nat
  | modem => 0
  | cable => 1
  | t1 => 2
  | t3 => 3

instance : Ord SpeedClass where
  compare a b := compare a.rank b.rank

instance : Std.TransOrd SpeedClass :=
  transOrd_of_key compare rank fun _ _ => rfl

instance : Std.LawfulEqOrd SpeedClass :=
  lawfulEqOrd_of_key compare rank (fun _ _ => rfl) fun a b => by
    cases a <;> cases b <;> simp [rank]

end SpeedClass

end PeerSearch
