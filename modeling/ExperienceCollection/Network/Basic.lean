import ExperienceCollection.Log

/-!
# Networks

A coordinator needs little of its network: the peers behind a role, one-way broadcast to them, and
the results that arrive. Arrivals form a queue; a network error may stand in it as well.
-/

namespace ExperienceCollection

/-- What a receive takes from the queue: a result, or an error of the network. -/
abbrev Arrival (ε : Type) := Except NetworkError (Envelope (Result ε))

/-- What a broadcast leaves behind: its outcome, the network, and the events to log. -/
structure Delivery (τ : Type) where
  outcome : Except NetworkError Unit
  network : τ
  log : List Log.Event := []

/-- The network as a coordinator sees it. `arrivals` is the queue, `isClosed` says that nothing can
be added to it any more, and `consume` takes arrivals off its front. -/
class Network (τ : Type) (μ ε : outParam Type) where
  node : τ → PeerId
  peers : τ → String → Except NetworkError (List PeerId)
  broadcast : τ → String → Command μ → Delivery τ
  arrivals : τ → List (Arrival ε)
  isClosed : τ → Bool
  consume : τ → Nat → τ

/-- What a receive finds. It has to wait when the queue is empty but may still be filled. -/
inductive Reception (ε : Type) where
  | arrival (a : Arrival ε)
  | waiting

namespace Network

variable {τ μ ε : Type} [Network τ μ ε]

/-- Takes the first arrival. An empty queue that nothing can be added to is a lost connection. -/
def receive (t : τ) : Reception ε × τ :=
  match arrivals t with
  | a :: _ => (.arrival a, consume t 1)
  | [] => (if isClosed t then .arrival (.error .disconnected) else .waiting, t)

instance {σ : Type} [Network σ μ ε] : Network (τ ⊕ σ) μ ε where
  node
    | .inl t => node t
    | .inr s => node s
  peers
    | .inl t => peers t
    | .inr s => peers s
  broadcast
    | .inl t, role, command =>
      let d := broadcast t role command
      { outcome := d.outcome, network := .inl d.network, log := d.log }
    | .inr s, role, command =>
      let d := broadcast s role command
      { outcome := d.outcome, network := .inr d.network, log := d.log }
  arrivals
    | .inl t => arrivals t
    | .inr s => arrivals s
  isClosed
    | .inl t => isClosed t
    | .inr s => isClosed s
  consume
    | .inl t, k => .inl (consume t k)
    | .inr s, k => .inr (consume s k)

end Network

end ExperienceCollection
