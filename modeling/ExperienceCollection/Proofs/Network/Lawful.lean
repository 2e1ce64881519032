import ExperienceCollection.Network.Channel
import ExperienceCollection.Network.Scripted

/-!
# Lawful networks

On a lawful network consuming takes arrivals off the front of the queue and leaves those behind them
in their order. On a steady network nothing else comes of it, so that arrivals may be taken one by
one or several at once.
-/

namespace ExperienceCollection

class LawfulNetwork (τ : Type) {μ ε : Type} [Network τ μ ε] : Prop where
  arrivals_consume (t : τ) (k : Nat) :
    Network.arrivals (Network.consume t k) = (Network.arrivals t).drop k

class SteadyNetwork (τ : Type) {μ ε : Type} [Network τ μ ε] : Prop extends LawfulNetwork τ where
  consume_zero (t : τ) : Network.consume t 0 = t
  consume_succ (t : τ) (k : Nat) :
    Network.consume t (k + 1) = Network.consume (Network.consume t 1) k
  isClosed_consume (t : τ) (k : Nat) : Network.isClosed (Network.consume t k) = Network.isClosed t

variable {μ ε : Type}

instance : LawfulNetwork (ChannelNetwork μ ε) where
  arrivals_consume _ _ := List.map_drop

instance : LawfulNetwork (ScriptedNetwork μ ε) where
  arrivals_consume _ _ := rfl

instance {τ σ : Type} [Network τ μ ε] [Network σ μ ε] [LawfulNetwork τ] [LawfulNetwork σ] :
    LawfulNetwork (τ ⊕ σ) where
  arrivals_consume
    | .inl t, k => LawfulNetwork.arrivals_consume t k
    | .inr s, k => LawfulNetwork.arrivals_consume s k

instance : SteadyNetwork (ChannelNetwork μ ε) where
  consume_zero _ := rfl
  consume_succ n k := by
    have hinbox : (n.inbox.drop 1).drop k = n.inbox.drop (k + 1) := by
      rw [List.drop_drop, Nat.add_comm]
    simp only [Network.consume, hinbox]
  isClosed_consume _ _ := rfl

instance : SteadyNetwork (ScriptedNetwork μ ε) where
  consume_zero _ := rfl
  consume_succ n k := by
    have hinbox : (n.inbox.drop 1).drop k = n.inbox.drop (k + 1) := by
      rw [List.drop_drop, Nat.add_comm]
    simp only [Network.consume, hinbox]
  isClosed_consume _ _ := rfl

instance {τ σ : Type} [Network τ μ ε] [Network σ μ ε] [SteadyNetwork τ] [SteadyNetwork σ] :
    SteadyNetwork (τ ⊕ σ) where
  consume_zero
    | .inl t => congrArg Sum.inl (SteadyNetwork.consume_zero t)
    | .inr s => congrArg Sum.inr (SteadyNetwork.consume_zero s)
  consume_succ
    | .inl t, k => congrArg Sum.inl (SteadyNetwork.consume_succ t k)
    | .inr s, k => congrArg Sum.inr (SteadyNetwork.consume_succ s k)
  isClosed_consume
    | .inl t, k => SteadyNetwork.isClosed_consume t k
    | .inr s, k => SteadyNetwork.isClosed_consume s k

end ExperienceCollection
