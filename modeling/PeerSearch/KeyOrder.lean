/-!
# PeerSearch.KeyOrder -- orders through a key

Identifiers, properties and facet values are ordered through keys that are numbers, strings or
pairs of them. An order through a key is transitive when the order of the keys is, and tells apart
what the keys tell apart.
-/

namespace PeerSearch

/-- The order of pairs that looks at the first parts first. -/
def comparePairs {α β : Type} [Ord α] [Ord β] (a b : α × β) : Ordering :=
  (lexOrd : Ord (α × β)).compare a b

section

attribute [local instance] lexOrd

instance {α β : Type} [Ord α] [Ord β] [Std.TransOrd α] [Std.TransOrd β] :
    Std.TransCmp (comparePairs (α := α) (β := β)) :=
  inferInstanceAs (Std.TransOrd (α × β))

instance {α β : Type} [Ord α] [Ord β] [Std.LawfulEqOrd α] [Std.LawfulEqOrd β] :
    Std.LawfulEqCmp (comparePairs (α := α) (β := β)) :=
  inferInstanceAs (Std.LawfulEqOrd (α × β))

end

/-- An order through a key is transitive when that of the keys is. -/
theorem transOrd_of_key {α β : Type} [Ord α] (cmp : β → β → Ordering) [Std.TransCmp cmp]
    (key : α → β) (h : ∀ a b : α, compare a b = cmp (key a) (key b)) : Std.TransOrd α where
  eq_swap {a b} := by rw [h, h]; exact Std.OrientedCmp.eq_swap
  isLE_trans {a b c} hab hbc := by
    rw [h] at hab hbc ⊢
    exact Std.TransCmp.isLE_trans hab hbc

/-- An order through an injective key tells different things apart when that of the keys does. -/
theorem lawfulEqOrd_of_key {α β : Type} [Ord α] (cmp : β → β → Ordering) [Std.LawfulEqCmp cmp]
    (key : α → β) (h : ∀ a b : α, compare a b = cmp (key a) (key b))
    (injective : ∀ a b : α, key a = key b → a = b) : Std.LawfulEqOrd α where
  compare_self {a} := by rw [h]; exact Std.ReflCmp.compare_self
  eq_of_compare {a b} hab := by
    rw [h] at hab
    exact injective a b (Std.LawfulEqCmp.eq_of_compare hab)

end PeerSearch
