/-!
A cache of bounded size that forgets what was not used for longest.
-/
namespace RuleScan

/-- A cache with keys of type `κ` for values of type `α`. -/
structure Cache (κ : Type) (α : Type) where
  capacity : Nat
  /-- The entries, the most recently used first. -/
  entries : List (κ × α)
deriving DecidableEq, Repr

namespace Cache

variable {κ α : Type} [DecidableEq κ]

def empty (capacity : Nat) : Cache κ α := ⟨capacity, []⟩

def keys (c : Cache κ α) : List κ := c.entries.map (·.1)

def find? (c : Cache κ α) (k : κ) : Option α := (c.entries.find? (·.1 = k)).map (·.2)

/-- Moves or adds an entry to the front, and drops the entries beyond the capacity. -/
def use (c : Cache κ α) (k : κ) (a : α) : Cache κ α :=
  { c with entries := ((k, a) :: c.entries.filter (·.1 ≠ k)).take c.capacity }

def clear (c : Cache κ α) : Cache κ α := { c with entries := [] }

end Cache

end RuleScan
