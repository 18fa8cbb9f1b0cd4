/-
# The ledger of a pass

What a pass has applied so far, by place in the graph.
-/

import ClusterKeeper.Cloud.State

namespace ClusterKeeper

/-- The states of the resources that a pass has applied, by their place in the graph. -/
abbrev Ledger := SortedMap Nat ResourceState

namespace Ledger

/-- Enters the state of the resource at a place. -/
def record (l : Ledger) (index : Nat) (state : ResourceState) : Ledger := l.insert index state

/-- The entries from the last place to the first. -/
def latestFirst (l : Ledger) : List (Nat × ResourceState) := l.entries.reverse

end Ledger

end ClusterKeeper
