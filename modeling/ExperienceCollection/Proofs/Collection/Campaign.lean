import ExperienceCollection.Proofs.Collection.Coordinator
import ExperienceCollection.Proofs.Network.Lawful

/-!
# Campaigns

A campaign is the work of one coordinator on a network: a series of rounds, each with any request,
pulled at any number of times, and finished or given up. Between two steps of the coordinator its
surroundings may move. What moves there are, and what they make of the network, is left open.

All that is said of a coordinator over time is said of campaigns. They carry what can be watched of
them: the arrivals taken off the queue, the outcomes of the pulls, and the log.
-/

namespace ExperienceCollection

variable {τ μ ε ι : Type}

/-- A coordinator at work on a network, with the request and the state of the round under way, all
arrivals taken off the queue so far, each with the request of the round that took it, the outcomes
of all pulls, and the log. -/
structure Campaign (τ μ ε : Type) where
  coordinator : Coordinator
  network : τ
  current : Option (Request μ × Round) := none
  taken : List (Request μ × Arrival ε) := []
  outcomes : List (Pulled ε) := []
  log : List Log.Event := []

namespace Campaign

/-- A step of the coordinator, or a move of its surroundings. -/
inductive Step (ι μ : Type) where
  | collect (q : Request μ)
  | next
  | exit
  | environment (move : ι)

/-- Whether the round under way goes on after a step. -/
def Step.goesOn : Step ι μ → Bool
  | next => true
  | environment _ => true
  | _ => false

def start (c : Coordinator) (n : τ) : Campaign τ μ ε where
  coordinator := c
  network := n

variable [Network τ μ ε]

/-- A round that is not at its end when the next one is opened has been given up. -/
def collect (s : Campaign τ μ ε) (q : Request μ) : Campaign τ μ ε :=
  let o := s.coordinator.collect s.network q
  { s with
    network := o.network
    current :=
      match o.outcome with
      | .ok r => some (q, r)
      | .error _ => none
    log := s.log ++ o.log }

/-- One pull at the round under way. What it takes is missing from the queue afterwards. -/
def next (s : Campaign τ μ ε) : Campaign τ μ ε :=
  match s.current with
  | none => s
  | some (q, r) =>
    let t := s.coordinator.next r s.network
    let waiting := Network.arrivals s.network
    let count := waiting.length - (Network.arrivals t.network).length
    { coordinator := t.coordinator
      network := t.network
      current := some (q, t.round)
      taken := s.taken ++ (waiting.take count).map (Prod.mk q)
      outcomes := s.outcomes ++ [t.outcome]
      log := s.log ++ t.log }

def exit (s : Campaign τ μ ε) : Campaign τ μ ε :=
  let (network, log) := s.coordinator.exit s.network
  { s with network, log := s.log ++ log }

/-- A step, where `act` says what a move makes of the network. -/
def step (act : ι → τ → τ) (s : Campaign τ μ ε) : Step ι μ → Campaign τ μ ε
  | .collect q => s.collect q
  | .next => s.next
  | .exit => s.exit
  | .environment move => { s with network := act move s.network }

def run (act : ι → τ → τ) (s : Campaign τ μ ε) (steps : List (Step ι μ)) : Campaign τ μ ε :=
  steps.foldl (step act) s

/-- The items handed out so far. -/
def items (s : Campaign τ μ ε) : List (Except NetworkError (AcceptedBatch ε)) :=
  s.outcomes.flatMap Pulled.items

variable {act : ι → τ → τ}

/-- What every step keeps holds after any run. -/
lemma run_of_step {P : Campaign τ μ ε → Prop} (hstep : ∀ s x, P s → P (step act s x))
    {s : Campaign τ μ ε} (h : P s) (steps : List (Step ι μ)) : P (s.run act steps) := by
  induction steps generalizing s with
  | nil => exact h
  | cons x steps ih => exact ih (hstep s x h)

/-- What pulls and moves keep holds as long as the round under way goes on. -/
lemma run_of_goesOn {P : Campaign τ μ ε → Prop} (hnext : ∀ s, P s → P s.next)
    (hmove : ∀ s move, P s → P { s with network := act move s.network }) {s : Campaign τ μ ε}
    (h : P s) {steps : List (Step ι μ)} (hsteps : ∀ x ∈ steps, x.goesOn = true) :
    P (s.run act steps) := by
  induction steps generalizing s with
  | nil => exact h
  | cons x steps ih =>
    obtain ⟨hx, hrest⟩ := List.forall_mem_cons.mp hsteps
    cases x with
    | next => exact ih (hnext s h) hrest
    | environment move => exact ih (hmove s move h) hrest
    | collect q => exact absurd hx Bool.false_ne_true
    | exit => exact absurd hx Bool.false_ne_true

/-- The round under way after a request is the one that the coordinator has opened for it. -/
lemma collect_current {s : Campaign τ μ ε} {q q' : Request μ} {r : Round}
    (h : (s.collect q).current = some (q', r)) : q' = q ∧ r = s.coordinator.opened q := by
  dsimp only [collect] at h
  split at h
  · rename_i ho
    obtain ⟨rfl, rfl⟩ := Prod.mk.inj (Option.some.inj h)
    exact ⟨rfl, Coordinator.collect_ok ho⟩
  · cases h

/-- A request that is granted puts its round under way. -/
lemma collect_of_ok {s : Campaign τ μ ε} {q : Request μ} {r : Round}
    (h : (s.coordinator.collect s.network q).outcome = .ok r) :
    (s.collect q).current = some (q, s.coordinator.opened q) := by
  obtain rfl := Coordinator.collect_ok h
  dsimp only [collect]
  rw [h]

lemma next_of_none {s : Campaign τ μ ε} (h : s.current = none) : s.next = s := by
  rw [next, h]

/-! ## A pull at the round under way -/

section Next

variable {s : Campaign τ μ ε} {q : Request μ} {r : Round} (h : s.current = some (q, r))

include h

lemma next_coordinator : s.next.coordinator = (s.coordinator.next r s.network).coordinator := by
  rw [next, h]

lemma next_network : s.next.network = (s.coordinator.next r s.network).network := by
  rw [next, h]

lemma next_current : s.next.current = some (q, (s.coordinator.next r s.network).round) := by
  rw [next, h]

lemma next_outcomes :
    s.next.outcomes = s.outcomes ++ [(s.coordinator.next r s.network).outcome] := by
  rw [next, h]

lemma next_log : s.next.log = s.log ++ (s.coordinator.next r s.network).log := by
  rw [next, h]

lemma next_items : s.next.items = s.items ++ (s.coordinator.next r s.network).outcome.items := by
  rw [items, next_outcomes h, List.flatMap_append, List.flatMap_singleton]
  rfl

/-- The arrivals missing from the queue after a pull are those that the pull has consumed. -/
lemma next_taken [LawfulNetwork τ] {taken rest : List (Arrival ε)}
    (hqueue : Network.arrivals s.network = taken ++ rest)
    (hconsumed : (r.pull s.coordinator.config.logEnvMetrics (Network.isClosed s.network)
      s.coordinator.metrics (Network.arrivals s.network)).consumed = taken.length) :
    s.next.taken = s.taken ++ taken.map (Prod.mk q) := by
  have hrest : Network.arrivals (s.coordinator.next r s.network).network = rest := by
    rw [Coordinator.next, LawfulNetwork.arrivals_consume, hconsumed, hqueue, List.drop_left]
  rw [next, h]
  dsimp only
  rw [hrest, hqueue, List.length_append, Nat.add_sub_cancel, List.take_left]

end Next

end Campaign

end ExperienceCollection
