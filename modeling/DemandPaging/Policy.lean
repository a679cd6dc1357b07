import DemandPaging.Host
import DemandPaging.Policy.Kind
import DemandPaging.Random.Stream
import DemandPaging.Step

/-!
# Eviction policies

A policy holds the resident pages in an order of its own and chooses the page
that leaves. Ticks matter to the clock policy only: in one pass over its queue
it withdraws the rights of the pages that were used and moves them to the back.
A refused withdrawal ends the pass; what was not yet visited keeps its order.
-/

namespace DemandPaging

/-- The pages held by a policy. -/
inductive Policy where
  /-- The page loaded first stands first. -/
  | fifo (queue : List Page)
  /-- The page that has gone longest without demonstrating use stands first. -/
  | clock (queue : List Page)
  /-- The pages in the order in which draws count them. -/
  | random (held : List Page) (stream : Random.Stream)
  deriving DecidableEq, Repr

/-- What a policy sees of the pages that it holds: which were used, and how their rights are withdrawn. -/
structure Tracker (σ ε : Type) where
  /-- The page was used. -/
  accessed : σ → Page → Bool
  /-- Why the rights of a page cannot be withdrawn. -/
  refusal : σ → Page → Option ε
  /-- Withdraw the rights of a page and forget that it was used. -/
  revoke : σ → Page → σ

/-- A pass over a queue: the pages kept in place, the pages whose rights were withdrawn, both in order. -/
structure Sweep (σ ε : Type) where
  /-- Pages that keep their place. -/
  kept : List Page
  /-- Pages that move to the back. -/
  revoked : List Page
  /-- The state after the pass. -/
  state : σ
  /-- The refusal that ended the pass. -/
  refused : Option ε

/-- Visit the pages of a queue in order until one cannot be withdrawn. -/
def sweep {σ ε : Type} (t : Tracker σ ε) : List Page → σ → Sweep σ ε
  | [], s => ⟨[], [], s, none⟩
  | p :: queue, s =>
    if t.accessed s p then
      match t.refusal s p with
      | some e => ⟨p :: queue, [], s, some e⟩
      | none =>
        let rest := sweep t queue (t.revoke s p)
        { rest with revoked := p :: rest.revoked }
    else
      let rest := sweep t queue s
      { rest with kept := p :: rest.kept }

/-- What a tick does. -/
structure TickResult (σ ε : Type) where
  /-- The policy after the tick. -/
  policy : Policy
  /-- The pages whose rights were withdrawn, in order. -/
  revoked : List Page
  /-- The state after the tick. -/
  state : σ
  /-- The refusal that ended the tick early. -/
  refused : Option ε

/-- `l` without its element at position `i`, whose place the last element takes. -/
def swapRemove {α : Type} (l : List α) (i : Nat) : List α :=
  match l.getLast? with
  | some last => (l.set i last).dropLast
  | none => []

namespace Policy

/-- Bytes that a policy needs for the number of a page. -/
abbrev numberSize : Nat := 2

/-- An empty policy of the given kind with room for `budget` pages. It needs room for one page at least, and the room
has to fit into a vector. -/
def build (host : Host) (kind : PolicyKind) (budget : Nat) (seed : Option UInt64) : Except Stop Policy :=
  if budget = 0 then .error (.error (.policy .zeroCapacity))
  else if capacityLimit ≤ budget * numberSize then .error (.panic .capacityOverflow)
  else .ok (match kind with
    | .fifo => fifo []
    | .clock => clock []
    | .random => random [] (match seed with
      | some seed => .ofSeed seed
      | none => .ofKey host.entropy))

/-- The name of the policy. -/
def kind : Policy → PolicyKind
  | fifo _ => .fifo
  | clock _ => .clock
  | random _ _ => .random

/-- The pages that the policy holds, in its order. -/
def tracked : Policy → List Page
  | fifo queue => queue
  | clock queue => queue
  | random held _ => held

/-- The number of pages that the policy holds. -/
def size (p : Policy) : Nat := p.tracked.length

/-- Take in a page that was loaded. A page that is already held is refused. -/
def insert (p : Policy) (page : Page) : Except Panic Policy :=
  if p.tracked.contains page then .error (.mappedTwice page)
  else .ok (match p with
    | fifo queue => fifo (queue ++ [page])
    | clock queue => clock (queue ++ [page])
    | random held stream => random (held ++ [page]) stream)

/-- Choose the page that leaves and let it go. -/
def evict : Policy → Option Page × Policy
  | fifo [] => (none, fifo [])
  | fifo (page :: queue) => (some page, fifo queue)
  | clock [] => (none, clock [])
  | clock (page :: queue) => (some page, clock queue)
  | random [] stream => (none, random [] stream)
  | random held stream =>
    let draw := stream.below .wide held.length
    (held[draw.1]?, random (swapRemove held draw.1) draw.2)

/-- Deliver a tick. -/
def tick {σ ε : Type} (t : Tracker σ ε) (p : Policy) (s : σ) : TickResult σ ε :=
  match p with
  | clock queue =>
    let pass := sweep t queue s
    ⟨clock (pass.kept ++ pass.revoked), pass.revoked, pass.state, pass.refused⟩
  | _ => ⟨p, [], s, none⟩

end Policy

end DemandPaging
