import JtagPlayer.Tap.State

/-!
# Canonical routes between stable states

`TapState.route? start target` is the word of TMS levels that moves a controller from one stable
state to another. It is found by a breadth-first search over `TapState.next` that tries a low level
before a high one, so it is a shortest such word and, among the shortest, the first in the order in
which low precedes high.

The words are tabulated once, in `RouteTable.canonical`, for every pair of stable states.
-/

namespace JtagPlayer

/-- The states a search has still to expand, in order, and those it has met. A queued state carries
the levels that lead to it, latest first. -/
structure Frontier where
  queue : List (TapState × List Bool)
  met : List TapState

namespace Frontier

/-- Queues the successor of a state under one level, unless it was met before. -/
def extend (frontier : Frontier) (state : TapState) (word : List Bool) (tms : Bool) : Frontier :=
  if frontier.met.contains (state.next tms) then frontier
  else
    { queue := frontier.queue ++ [(state.next tms, tms :: word)]
      met := state.next tms :: frontier.met }

/-- Takes at most `steps` states from the queue, until one of them is the target. -/
def search (target : TapState) : Nat → Frontier → Option (List Bool)
  | 0, _ => none
  | steps + 1, frontier =>
    match frontier.queue with
    | [] => none
    | (state, word) :: queue =>
      if state = target then some word.reverse
      else
        search target steps
          ((({ frontier with queue }).extend state word false).extend state word true)

end Frontier

namespace TapState

/-- The first word, in order of length and then low before high, that leads from one state to
another. Every state is queued at most once, so as many steps as there are states suffice. -/
def shortestWord? (start target : TapState) : Option (List Bool) :=
  Frontier.search target all.length { queue := [(start, [])], met := [start] }

end TapState

/-- Words of TMS levels for pairs of states. -/
structure RouteTable where
  entries : List ((TapState × TapState) × List Bool)

namespace RouteTable

/-- The shortest words between all pairs drawn from a list of states. -/
def ofStates (states : List TapState) : RouteTable where
  entries := states.flatMap fun start => states.filterMap fun target =>
    (start.shortestWord? target).map fun word => ((start, target), word)

/-- The table of canonical routes: one entry for each pair of stable states. -/
def canonical : RouteTable :=
  ofStates TapState.stable

/-- The word stored for a pair of states. -/
def route? (table : RouteTable) (start target : TapState) : Option (List Bool) :=
  table.entries.lookup (start, target)

/-- The number of pairs that have a word. -/
def size (table : RouteTable) : Nat :=
  table.entries.length

/-- Whether no pair has a word. -/
def isEmpty (table : RouteTable) : Bool :=
  table.entries.isEmpty

end RouteTable

/-- The canonical route between two stable states, and `none` if one of them is not stable. -/
def TapState.route? (start target : TapState) : Option (List Bool) :=
  RouteTable.canonical.route? start target

end JtagPlayer
