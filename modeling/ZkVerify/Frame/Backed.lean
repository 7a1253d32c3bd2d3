import ZkVerify.Frame.Collections

/-!
# Balances that stand for stored items

A deposit is a balance on hold for as long as an item is stored.  When an account pays for several
items under one hold reason, what it has on hold is a sum, and an item can only be paid back in full
if the sum is kept.  `Backed held rest items share` says that every account has on hold what its
shares of the items add up to, and the rest, which stands for something else.  There is one rule for
each way in which the items change: the hold has to change by the difference of the shares.
-/

namespace Frame

variable {A K V : Type} [DecidableEq K]

/-- What every account has on hold is the rest and its shares of the stored items. -/
def Backed (held rest : A → ℕ) (items : Finmap fun _ : K => V) (share : A → K → V → ℕ) : Prop :=
  ∀ y, held y = rest y + items.total (share y)

namespace Backed

variable {held held' rest : A → ℕ} {items : Finmap fun _ : K => V} {share : A → K → V → ℕ} {k : K}
  {v v' : V}

/-- The share of one item is on hold. -/
theorem share_le (h : Backed held rest items share) (hlookup : items.lookup k = some v) (y : A) :
    share y k v ≤ held y := by
  have htotal := Finmap.total_erase_of_lookup (f := share y) hlookup
  have hheld := h y
  omega

/-- An item and the hold for it change together. -/
theorem replace (h : Backed held rest items share) (hlookup : items.lookup k = some v)
    (hheld : ∀ y, held' y + share y k v = held y + share y k v') :
    Backed held' rest (items.insert k v') share := by
  intro y
  have htotal := Finmap.total_insert_of_lookup (f := share y) v' hlookup
  have hbefore := h y
  have hafter := hheld y
  omega

/-- An item is replaced by one with the same shares. -/
theorem replace_same (h : Backed held rest items share) (hlookup : items.lookup k = some v)
    (hshare : ∀ y, share y k v' = share y k v) (hheld : ∀ y, held' y = held y) :
    Backed held' rest (items.insert k v') share :=
  h.replace hlookup fun y => by rw [hheld, hshare]

/-- A new item is paid for. -/
theorem insert (h : Backed held rest items share) (hnone : k ∉ items)
    (hheld : ∀ y, held' y = held y + share y k v) :
    Backed held' rest (items.insert k v) share := by
  intro y
  rw [hheld, h y, Finmap.total_insert_of_notMem v hnone, Nat.add_assoc]

/-- An item is removed and paid back. -/
theorem erase (h : Backed held rest items share) (hlookup : items.lookup k = some v)
    (hheld : ∀ y, held' y + share y k v = held y) :
    Backed held' rest (items.erase k) share := by
  intro y
  have htotal := Finmap.total_erase_of_lookup (f := share y) hlookup
  have hbefore := h y
  have hafter := hheld y
  omega

/-- Nothing changes. -/
theorem congr (h : Backed held rest items share) (hheld : ∀ y, held' y = held y) :
    Backed held' rest items share :=
  fun y => by rw [hheld, h y]

end Backed

end Frame
