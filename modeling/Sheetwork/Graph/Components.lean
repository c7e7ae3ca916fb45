import Std.Data.HashSet.Basic
import Sheetwork.Fault
import Sheetwork.Reference.Basic
/-
  Graphs: strongly connected components. One depth-first search keeps the nodes whose component is still open on a
  stack; a node from which nothing below it on the stack is met closes a component, which is then the top of the stack
  down to this node.

  Another depth-first search looks for cycles. The first cycle ends the search from one start and leaves the nodes of
  its path open; a later start that runs into such a node has no cycle to report, which is a fault.
-/

namespace Sheetwork.Graph

structure Components.Walk (α : Type) where
  seen : List α := []
  /-- Nodes of open components, the latest first. -/
  stack : List α := []
  /-- Closed components, the latest first. -/
  closed : List (List α) := []

namespace Components

variable {α : Type} [DecidableEq α]

/-- How many nodes lie below a node of the stack. -/
def height (x : α) : List α → Nat
  | [] => 0
  | y :: r => if x = y then r.length else height x r

def Walk.enter (s : Walk α) (x : α) : Walk α := { s with seen := x :: s.seen, stack := x :: s.stack }

def Walk.close (s : Walk α) (h : Nat) : Walk α :=
  let n := s.stack.length - h
  { s with stack := s.stack.drop n, closed := s.stack.take n :: s.closed }

/-- Looks at a successor: the lowest height met so far, and the search. -/
def look (visit : Walk α → α → Nat × Walk α) (acc : Nat × Walk α) (w : α) : Nat × Walk α :=
  let (low, s) := acc
  if w ∈ s.stack then (min low (height w s.stack), s)
  else if w ∈ s.seen then (low, s)
  else
    let (l, s) := visit s w
    (min low l, s)

/-- Visits a new node and all that it leads to; `fuel` exceeds the number of new nodes. -/
def visit (next : α → List α) : Nat → Walk α → α → Nat × Walk α
  | 0, s, _ => (s.stack.length, s)
  | fuel + 1, s, x =>
    let h := s.stack.length
    let (low, s) := (next x).foldl (look (visit next fuel)) (h, s.enter x)
    if low = h then (h, s.close h) else (low, s)

end Components

open Components in
/-- The components, each after those that it leads to, from the nodes of a list. -/
def components {α : Type} [DecidableEq α] (next : α → List α) (fuel : Nat) (nodes : List α) : List (List α) :=
  let start := fun (s : Walk α) x => if x ∈ s.seen then s else (visit next fuel s x).2
  (nodes.foldl start {}).closed.reverse

/-- The components of a graph given by its edges; the targets of a node are taken
in ascending order. -/
def componentsOf {α : Type} [Ord α] [DecidableEq α] (nodes : List α) (edges : List (α × α)) : List (List α) :=
  let next := fun x => Ordered.ofList ((edges.filter (·.1 = x)).map (·.2))
  components next (nodes.length + edges.length + 1) nodes

variable {α : Type} [BEq α] [Hashable α]

/-- A search in progress: nodes seen, nodes still open, cycles found. -/
structure Search (α : Type) [BEq α] [Hashable α] where
  visited : Std.HashSet α := ∅
  open_ : Std.HashSet α := ∅
  cycles : List (List α) := []

/-- Looks at a successor of the last node of a path, unless a cycle was found. -/
def Search.look (name : α → String) (visit : Search α → α → Outcome (Bool × Search α)) (path : List α)
    (acc : Bool × Search α) (b : α) : Outcome (Bool × Search α) :=
  let (found, st) := acc
  if found then pure acc
  else if !st.visited.contains b then visit st b
  else if st.open_.contains b then
    match path.findIdx? (· == b) with
    | some i => pure (true, { st with cycles := st.cycles ++ [path.drop i] })
    | none => .error ⟨.notListed (name b), none⟩
  else pure acc

/-- Goes down from a node and says whether a cycle was found; `fuel` exceeds the number of nodes. -/
def descend (name : α → String) (next : α → List α) : Nat → List α → Search α → α → Outcome (Bool × Search α)
  | 0, _, st, _ => .ok (false, st)
  | fuel + 1, path, st, a => do
    let path := path ++ [a]
    let start := { st with visited := st.visited.insert a, open_ := st.open_.insert a }
    let (found, st) ← (next a).foldlM (Search.look name (descend name next fuel path) path) (false, start)
    if found then pure (true, st) else pure (false, { st with open_ := st.open_.erase a })

/-- The cycles that searches from all starts find, each without its first node at the end. -/
def cycles (name : α → String) (next : α → List α) (fuel : Nat) (starts : List α) : Outcome (List (List α)) := do
  let st ← starts.foldlM (fun (st : Search α) a =>
    if st.visited.contains a then pure st else (·.2) <$> descend name next fuel [] st a) {}
  pure st.cycles

end Sheetwork.Graph
