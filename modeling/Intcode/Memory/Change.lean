/-!
# Changes between snapshots

Two snapshots are compared word by word; the shorter one counts as filled up with zeros.
-/

set_option autoImplicit false

namespace Intcode.Memory

/-- An address whose word differs between two snapshots. -/
structure Change where
  address : Nat
  before : Int
  after : Int
  deriving DecidableEq, Repr

/-- The changes from one snapshot to another, by ascending address. -/
def changes (before after : Array Int) : List Change :=
  (List.range (max before.size after.size)).filterMap fun address =>
    let old := before.getD address 0
    let new := after.getD address 0
    if old = new then none else some ⟨address, old, new⟩

end Intcode.Memory
