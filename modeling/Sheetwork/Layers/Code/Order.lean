import Sheetwork.Graph.Components
import Sheetwork.Graph.Kahn
import Sheetwork.Value.Basic
/-
  Layers: the order of the parts of a script. A part is a group or a single cell; a cell of a group stands for its
  group once it has been added as one.
-/

namespace Sheetwork.Layers.Code

inductive Node where
  | group (id : Int)
  | cell (sheet address : String)
  deriving DecidableEq, Ord, Hashable

def Node.value : Node → Value
  | group id => .int id
  | cell sheet address => .tuple [sheet, address]

structure Edge where
  (dependent precedent : Node)
  deriving Ord

structure Schedule where
  added : List Node := []
  edges : List Edge := []
  groupOf : List ((String × String) × Int) := []

namespace Schedule

variable (s : Schedule)

def nodes : List Node := Ordered.ofList s.added

def addCell (sheet address : String) (group : Option Int) : Schedule :=
  match group with
  | some id =>
    if id = 0 then { s with added := .cell sheet address :: s.added }
    else { s with added := .group id :: s.added, groupOf := ((sheet, address), id) :: s.groupOf }
  | none => { s with added := .cell sheet address :: s.added }

def node (sheet address : String) : Node :=
  match s.groupOf.lookup (sheet, address) with
  | some id => .group id
  | none => .cell sheet address

def addNeed (dependent precedent : Node) : Schedule :=
  if dependent = precedent then s else { s with edges := ⟨dependent, precedent⟩ :: s.edges }

def addDependency (sheet address sheet' address' : String) : Schedule :=
  s.addNeed (s.node sheet address) (s.node sheet' address')

def allEdges : List Edge := Ordered.ofList s.edges

abbrev Adjacency := Std.HashMap Node (List Node)

def adjacency (pairs : List (Node × Node)) : Adjacency :=
  pairs.foldr (fun (a, b) m => m.insert a (b :: (m[a]?).getD [])) ∅

def precedents : Adjacency := adjacency (s.allEdges.map fun e => (e.dependent, e.precedent))

def dependents : Adjacency := adjacency (s.allEdges.map fun e => (e.precedent, e.dependent))

/-- Edges between positions of nodes; a node that needs what is no node waits for itself. -/
def numbered : List (Nat × Nat) :=
  let index := Graph.positions s.nodes
  s.allEdges.filterMap fun e => (index[e.dependent]?).map fun i => ((index[e.precedent]?).getD i, i)

/-- Nodes after what they need; those that can never be reached this way come last. What is no node but needs
one that is reached is a fault. -/
def sort : Outcome (List Node) :=
  let nodes := s.nodes
  let order := Graph.settled nodes s.numbered
  if s.allEdges.all fun e => nodes.contains e.dependent || !order.contains e.precedent then
    .ok (order ++ nodes.filter (!order.contains ·))
  else .error .missingKey

def findCycles : Outcome (List (List Node)) :=
  let next := s.dependents
  Graph.cycles (fun n => n.value.literal) (fun n => (next[n]?).getD []) (s.edges.length + s.added.length + 2) s.nodes

/-- One more than the highest level of what a node needs; `fuel` exceeds the number of nodes that
need something, so that it runs out only on a cycle. -/
def levelFrom (needs : Adjacency) : Nat → Node → Outcome Nat
  | 0, _ => .error ⟨.tooDeep, none⟩
  | fuel + 1, n => do
    let below ← ((needs[n]?).getD []).mapM (levelFrom needs fuel)
    pure ((below.map (· + 1)).max?.getD 0)

def level (n : Node) : Outcome Nat :=
  let needs := s.precedents
  levelFrom needs (needs.size + 2) n

def levels : Outcome (List (Nat × List Node)) := do
  let needs := s.precedents
  let placed ← s.nodes.mapM fun n => do pure (← levelFrom needs (needs.size + 2) n, n)
  let found := Ordered.ofList (placed.map (·.1))
  pure (found.map fun l => (l, (placed.filter (·.1 = l)).map (·.2)))

def isGroup : Node → Bool
  | .group _ => true
  | .cell .. => false

def counts : Outcome (List (String × Nat)) := do
  let nodes := s.nodes
  let groups := (nodes.filter isGroup).length
  let found ← s.findCycles
  let top ← s.levels
  pure [("total_nodes", nodes.length), ("group_nodes", groups), ("cell_nodes", nodes.length - groups),
      ("total_dependencies", s.allEdges.length), ("circular_cycles", found.length),
      ("max_calculation_level", (top.map (·.1)).foldl max 0)]

end Schedule

end Sheetwork.Layers.Code
