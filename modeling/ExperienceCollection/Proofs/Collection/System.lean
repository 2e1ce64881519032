import ExperienceCollection.Proofs.Collection.Record

/-!
# Systems

A system is a coordinator at work with the actors of a pool. Its steps are those of either side, in
any order: the coordinator opens a round, which ends the one before it, pulls at the latest round or
tells its peers to exit; an actor takes a command or completes its task. A pull takes all it needs
from the inbox in one step, or waits and is tried again. `Round.pull_append_of_waiting` and its
counterpart say that nothing is lost by this: what arrives in the middle of a pull may as well
arrive before it or while it waits.
-/

namespace ExperienceCollection

variable {μ ε : Type}

/-- A coordinator, the pool of its peers, and the rounds so far, latest first. -/
structure System (μ ε : Type) where
  coordinator : Coordinator
  pool : Pool μ ε
  rounds : List (RoundRecord μ ε) := []

namespace System

inductive Step (μ : Type) where
  | collect (q : Request μ)
  | next
  | exit
  | take (i : Nat)
  | complete (i : Nat)

/-- The request of a step that opens a round. -/
def Step.request? : Step μ → Option (Request μ)
  | collect q => some q
  | _ => none

def start (c : Coordinator) (pool : Pool μ ε) : System μ ε where
  coordinator := c
  pool

def collect (s : System μ ε) (q : Request μ) : System μ ε :=
  let o := s.coordinator.collect s.pool.network q
  { s with
    pool := { s.pool with network := o.network }
    rounds :=
      match o.outcome with
      | .ok r => { request := q, round := r } :: s.rounds
      | .error _ => s.rounds }

def next (s : System μ ε) : System μ ε :=
  match s.rounds with
  | [] => s
  | k :: past =>
    let t := s.coordinator.next k.round s.pool.network
    { coordinator := t.coordinator
      pool := { s.pool with network := t.network }
      rounds := k.after t :: past }

def step (s : System μ ε) : Step μ → System μ ε
  | .collect q => s.collect q
  | .next => s.next
  | .exit => { s with pool := { s.pool with network := (s.coordinator.exit s.pool.network).1 } }
  | .take i => { s with pool := s.pool.take i }
  | .complete i => { s with pool := s.pool.complete i }

def run (s : System μ ε) (steps : List (Step μ)) : System μ ε := steps.foldl step s

/-- The coordinator finds its peers under its role, and every endpoint has its actor. -/
structure Staffed (s : System μ ε) : Prop where
  seated : s.pool.Seated
  role : s.coordinator.config.peerRole ∈ s.pool.network.roles
  members : (Wiring.members s.pool.network.endpoints s.coordinator.config.peerRole).map
    Endpoint.id = s.coordinator.peers

/-- Who takes part in a system. -/
def cast (s : System μ ε) :
    CoordinatorConfig × List PeerId × List PeerId × List String × List (PeerId × String) :=
  (s.coordinator.config, s.coordinator.peers, s.pool.peers, s.pool.network.roster)

lemma step_cast (s : System μ ε) (x : Step μ) : (s.step x).cast = s.cast := by
  cases x with
  | collect q =>
    have hroster := s.pool.network.broadcast_roster s.coordinator.config.peerRole
      (.rollout q.toInstruction)
    rw [← Coordinator.collect_network] at hroster
    simp only [cast, step, collect, Pool.peers, hroster]
  | next =>
    rw [step, next]
    split
    · rfl
    · rfl
  | exit =>
    have hroster := s.pool.network.broadcast_roster s.coordinator.config.peerRole .exit
    rw [← Coordinator.exit_network] at hroster
    simp only [cast, step, Pool.peers, hroster]
  | take i =>
    have htakes := s.pool.take_takes i
    simp only [cast, step, htakes.peers_eq, htakes.roster_eq]
  | complete i =>
    have hcompletes := s.pool.complete_completes i
    simp only [cast, step, hcompletes.peers_eq, hcompletes.roster_eq]

lemma run_cast (s : System μ ε) (steps : List (Step μ)) : (s.run steps).cast = s.cast := by
  induction steps generalizing s with
  | nil => rfl
  | cons x steps ih =>
    have htail := ih (s.step x)
    rw [step_cast] at htail
    exact htail

lemma Staffed.of_cast {s s' : System μ ε} (h : s.Staffed) (hcast : s'.cast = s.cast) :
    s'.Staffed := by
  simp only [cast, Prod.mk.injEq] at hcast
  obtain ⟨hconfig, hpeers, hactors, hroster⟩ := hcast
  refine ⟨?_, ?_, ?_⟩
  · rw [Pool.Seated, hactors, hroster]
    exact h.seated
  · have hroles : s'.pool.network.roles = s.pool.network.roles := congrArg Prod.fst hroster
    rw [hconfig, hroles]
    exact h.role
  · rw [ChannelNetwork.members_id_eq, hroster, ← ChannelNetwork.members_id_eq, hconfig, hpeers]
    exact h.members

/-- All records of a system agree with their rounds. -/
def Faithful (s : System μ ε) : Prop :=
  ∀ k ∈ s.rounds, k.Faithful s.coordinator.numPeers

lemma Faithful.step {s : System μ ε} (h : s.Faithful) (hs : s.Staffed) (x : Step μ) :
    (s.step x).Faithful := by
  cases x with
  | collect q =>
    intro k hk
    rw [System.step, collect, Coordinator.collect_registered hs.role q] at hk
    rcases List.mem_cons.mp hk with rfl | hk
    · exact ⟨rfl, rfl, rfl, fun hc => Bool.noConfusion hc⟩
    · exact h k hk
  | next =>
    rw [System.step, next]
    cases hrounds : s.rounds with
    | nil => exact h
    | cons k past =>
      rw [Faithful, hrounds] at h
      intro k' hk'
      rcases List.mem_cons.mp hk' with rfl | hk'
      · exact (h k List.mem_cons_self).next s.coordinator s.pool.network
      · exact h k' (List.mem_cons_of_mem k hk')
  | exit => exact h
  | take i => exact h
  | complete i => exact h

lemma Faithful.run {s : System μ ε} (h : s.Faithful) (hs : s.Staffed) (steps : List (Step μ)) :
    (s.run steps).Faithful := by
  induction steps generalizing s with
  | nil => exact h
  | cons x steps ih => exact ih (h.step hs x) (hs.of_cast (s.step_cast x))

/-- The requests of a run, in order. -/
def requests (steps : List (Step μ)) : List (Request μ) := steps.filterMap Step.request?

lemma step_requests {s : System μ ε} (h : s.Staffed) (x : Step μ) :
    (s.step x).rounds.map RoundRecord.request =
      x.request?.toList ++ s.rounds.map RoundRecord.request := by
  cases x with
  | collect q =>
    rw [step, collect, Coordinator.collect_registered h.role q]
    rfl
  | next =>
    rw [step, next]
    cases hrounds : s.rounds with
    | nil =>
      dsimp only
      rw [hrounds]
      rfl
    | cons k past => rfl
  | exit => rfl
  | take i => rfl
  | complete i => rfl

/-- Every request of a run opens a round. -/
lemma run_requests {s : System μ ε} (h : s.Staffed) (steps : List (Step μ)) :
    (s.run steps).rounds.map RoundRecord.request =
      (requests steps).reverse ++ s.rounds.map RoundRecord.request := by
  induction steps generalizing s with
  | nil => rfl
  | cons x steps ih =>
    have hrest := ih (h.of_cast (s.step_cast x))
    rw [step_requests h x] at hrest
    change ((s.step x).run steps).rounds.map RoundRecord.request = _
    rw [hrest, requests, requests, List.filterMap_cons]
    cases x.request? with
    | none => rfl
    | some q => simp

end System

lemma System.staffed_start {config : CoordinatorConfig} {n : ChannelNetwork μ ε} {c : Coordinator}
    {log : List Log.Event} (h : Coordinator.create config n = (.ok c, log))
    (actorConfig : ActorConfig) (behaviour : PeerId → Behaviour μ ε) :
    (System.start c (Pool.spawn actorConfig n behaviour).1).Staffed := by
  obtain ⟨hconfig, hrole, -, hmembers⟩ := Coordinator.create_ok h
  refine ⟨?_, ?_, ?_⟩
  · exact List.map_map.trans (Wiring.roster_id n.endpoints).symm
  · rw [← hconfig] at hrole
    exact hrole
  · rw [← hconfig] at hmembers
    exact hmembers

end ExperienceCollection
