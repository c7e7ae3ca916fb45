import Std.Data.HashMap.Basic
/-
  Graphs: an order in which every node comes after those it needs. Nodes are numbers below `n`, an edge `(a, b)` says
  that `b` needs `a`. Nodes that need nothing more are taken from a queue; what a cycle holds back is left over.
-/

namespace Sheetwork.Graph

def dependents (n : Nat) (edges : List (Nat × Nat)) : Array (List Nat) :=
  edges.foldr (fun (a, b) adj => adj.modify a (b :: ·)) (Array.replicate n [])

variable {α : Type}

/-- Changes what stands for each node as often as it is listed. -/
def change (f : α → α) (bs : List Nat) (xs : Array α) : Array α := bs.foldl (fun xs b => xs.modify b f) xs

def degrees (n : Nat) (edges : List (Nat × Nat)) : Array Nat := change Nat.succ (edges.map (·.2)) (Array.replicate n 0)

/-- Those of the listed nodes that need nothing more, each where it is listed last. -/
def ready (bs : List Nat) (deg : Array Nat) : List Nat := (bs.filter fun b => deg[b]? = some 0).foldr List.insert []

/-- Takes nodes from the queue, each at most once: `fuel` is the number of nodes. -/
def drain (adj : Array (List Nat)) : Nat → List Nat → Array Nat → List Nat
  | 0, _, _ => []
  | _ + 1, [], _ => []
  | fuel + 1, a :: queue, deg =>
    let bs := adj[a]?.getD []
    let deg := change Nat.pred bs deg
    a :: drain adj fuel (queue ++ ready bs deg) deg

def kahn (n : Nat) (edges : List (Nat × Nat)) : List Nat :=
  let deg := degrees n edges
  drain (dependents n edges) n ((List.range n).filter fun i => deg[i]? = some 0) deg

/-- The ordered nodes, then the ones that a cycle holds back, ascending. -/
def kahnAll (n : Nat) (edges : List (Nat × Nat)) : List Nat :=
  let order := kahn n edges
  let held := change (fun _ => false) order (Array.replicate n true)
  order ++ (List.range n).filter fun i => held[i]? = some true

/-- Where the elements of a list stand; of equal ones the last counts. -/
def positions [BEq α] [Hashable α] (l : List α) : Std.HashMap α Nat := l.zipIdx.foldl (fun m (a, i) => m.insert a i) ∅

variable (l : List α) (edges : List (Nat × Nat))

/-- The elements that can be ordered; the edges are between their positions. -/
def settled : List α :=
  let known := l.toArray
  (kahn l.length edges).filterMap (known[·]?)

/-- All elements, those that a cycle holds back last. -/
def ordered : List α := (kahnAll l.length edges).filterMap (l[·]?)

end Sheetwork.Graph
