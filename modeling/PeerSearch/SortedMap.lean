/-!
# PeerSearch.SortedMap -- finite maps and sets kept in key order

A map is the list of its entries with strictly increasing keys, so two maps with the same entries
are equal and listing a map shows it in key order. A set is a map to the unit type.
-/

namespace PeerSearch

/-! ## Maps -/

/-- A finite map: its entries, in strictly increasing order of their keys. -/
structure SortedMap (κ α : Type) [Ord κ] where
  entries : List (κ × α)
  increasing : entries.Pairwise fun a b => compare a.1 b.1 = .lt

namespace SortedMap

variable {κ α : Type} [Ord κ]

theorem eq_of_entries {m n : SortedMap κ α} (h : m.entries = n.entries) : m = n := by
  cases m
  cases n
  cases h
  rfl

instance [DecidableEq κ] [DecidableEq α] : DecidableEq (SortedMap κ α) := fun m n =>
  if h : m.entries = n.entries then isTrue (eq_of_entries h)
  else isFalse fun e => h (congrArg entries e)

/-- The map without entries. -/
def empty : SortedMap κ α :=
  ⟨[], .nil⟩

instance : EmptyCollection (SortedMap κ α) := ⟨empty⟩

instance : Inhabited (SortedMap κ α) := ⟨empty⟩

/-- The value recorded under a key. -/
def find? (m : SortedMap κ α) (k : κ) : Option α :=
  (m.entries.find? fun e => compare e.1 k == .eq).map (·.2)

/-- Whether something is recorded under a key. -/
def contains (m : SortedMap κ α) (k : κ) : Bool :=
  m.entries.any fun e => compare e.1 k == .eq

/-- The keys in increasing order. -/
def keys (m : SortedMap κ α) : List κ :=
  m.entries.map (·.1)

/-- The values in the order of their keys. -/
def values (m : SortedMap κ α) : List α :=
  m.entries.map (·.2)

/-- The number of entries. -/
def size (m : SortedMap κ α) : Nat :=
  m.entries.length

/-- Whether there is no entry. -/
def isEmpty (m : SortedMap κ α) : Bool :=
  m.entries.isEmpty

/-- The map without the entry of a key. -/
def erase (m : SortedMap κ α) (k : κ) : SortedMap κ α where
  entries := m.entries.filter fun e => compare e.1 k != .eq
  increasing := m.increasing.filter _

/-- The entries with `a` under the key `k`, in place of what stood there. -/
def insertEntry (k : κ) (a : α) : List (κ × α) → List (κ × α)
  | [] => [(k, a)]
  | e :: rest =>
    match compare k e.1 with
    | .lt => (k, a) :: e :: rest
    | .eq => (k, a) :: rest
    | .gt => e :: insertEntry k a rest

theorem mem_insertEntry {k : κ} {a : α} {e : κ × α} :
    ∀ {l : List (κ × α)}, e ∈ insertEntry k a l → e = (k, a) ∨ e ∈ l
  | [], h => .inl (List.mem_singleton.mp h)
  | e' :: rest, h => by
    unfold insertEntry at h
    split at h
    · simpa using h
    · rcases List.mem_cons.mp h with h | h
      · exact .inl h
      · exact .inr (List.mem_cons_of_mem _ h)
    · rcases List.mem_cons.mp h with h | h
      · exact .inr (h ▸ List.mem_cons_self)
      · exact (mem_insertEntry h).imp id (List.mem_cons_of_mem _)

variable [Std.TransOrd κ] [Std.LawfulEqOrd κ]

theorem insertEntry_increasing (k : κ) (a : α) :
    ∀ {l : List (κ × α)}, l.Pairwise (fun a b => compare a.1 b.1 = .lt) →
      (insertEntry k a l).Pairwise fun a b => compare a.1 b.1 = .lt
  | [], _ => List.pairwise_singleton _ _
  | e :: rest, h => by
    have ⟨first, others⟩ := List.pairwise_cons.mp h
    unfold insertEntry
    split
    · next lt =>
      refine List.pairwise_cons.mpr ⟨fun x hx => ?_, h⟩
      rcases List.mem_cons.mp hx with hx | hx
      · exact hx ▸ lt
      · exact Std.TransCmp.lt_trans lt (first x hx)
    · next eq =>
      have same : k = e.1 := Std.LawfulEqCmp.eq_of_compare eq
      exact List.pairwise_cons.mpr ⟨fun x hx => same ▸ first x hx, others⟩
    · next gt =>
      refine List.pairwise_cons.mpr ⟨fun x hx => ?_, insertEntry_increasing k a others⟩
      rcases mem_insertEntry hx with hx | hx
      · exact hx ▸ Std.OrientedCmp.lt_of_gt gt
      · exact first x hx

/-- The map with `a` recorded under the key `k`, in place of what was recorded there. -/
def insert (m : SortedMap κ α) (k : κ) (a : α) : SortedMap κ α where
  entries := insertEntry k a m.entries
  increasing := insertEntry_increasing k a m.increasing

/-- The map with `a` recorded under the key `k` unless something is recorded there already. -/
def insertIfNew (m : SortedMap κ α) (k : κ) (a : α) : SortedMap κ α :=
  if m.contains k then m else m.insert k a

/-- The map of a list of entries, of which later ones replace earlier ones. -/
def ofList (l : List (κ × α)) : SortedMap κ α :=
  l.foldl (fun m e => m.insert e.1 e.2) empty

end SortedMap

/-! ## Sets -/

/-- A finite set, kept in increasing order. -/
abbrev SortedSet (κ : Type) [Ord κ] := SortedMap κ Unit

namespace SortedSet

variable {κ : Type} [Ord κ]

/-- The members in increasing order. -/
def toList (s : SortedSet κ) : List κ :=
  s.keys

/-- The set with one member more. -/
def add [Std.TransOrd κ] [Std.LawfulEqOrd κ] (s : SortedSet κ) (k : κ) : SortedSet κ :=
  s.insert k ()

/-- Keeps the members that pass a test. -/
def keep (s : SortedSet κ) (p : κ → Bool) : SortedSet κ where
  entries := s.entries.filter fun e => p e.1
  increasing := s.increasing.filter _

end SortedSet

end PeerSearch
