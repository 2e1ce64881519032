import ExperienceCollection.Actor.Basic
import ExperienceCollection.Collection.Coordinator
import ExperienceCollection.Network.Channel

/-!
# Actor pools

A pool has one actor for every endpoint of a channel network. An actor that is free takes the next
command off its queue, and an actor at work may complete its task at any time; in which order the
actors do so is up to the caller. An actor that is done gives up its endpoint.
-/

namespace ExperienceCollection

/-- Actors at the endpoints of a network, in the same order. -/
structure Pool (μ ε : Type) where
  config : ActorConfig
  network : ChannelNetwork μ ε
  actors : List (Actor μ ε)

namespace Pool

variable {μ ε : Type}

/-- A pool for all endpoints of a network; the behaviour of an actor depends on its peer. -/
def spawn (config : ActorConfig) (network : ChannelNetwork μ ε)
    (behaviour : PeerId → Behaviour μ ε) : Pool μ ε × List Log.Event :=
  let actors := network.endpoints.map fun e => Actor.start e.id (behaviour e.id)
  ({ config, network, actors }, [.actorsSpawned actors.length])

def size (p : Pool μ ε) : Nat := p.actors.length

def peers (p : Pool μ ε) : List PeerId := p.actors.map Actor.peer

/-- Puts back an actor together with the network after one of its steps. -/
def store (p : Pool μ ε) (i : Nat) (a : Actor μ ε) (network : ChannelNetwork μ ε) : Pool μ ε :=
  { p with
    actors := p.actors.set i a
    network := if a.phase = .running then network else network.dropEndpoint i }

/-- Lets the actor at a position take its next command, unless it is at work or has to wait. -/
def take (p : Pool μ ε) (i : Nat) : Pool μ ε :=
  match p.actors[i]? with
  | none => p
  | some a =>
    if a.phase ≠ .running ∨ a.task.isSome then p
    else match p.network.takeCommand i with
      | (.waiting, _) => p
      | (.disconnected, network) => p.store i (a.stop p.config (.coordinatorGone a.peer)) network
      | (.command envelope, network) =>
        match envelope.body with
        | .exit => p.store i (a.stop p.config (.exitReceived a.peer)) network
        | .rollout instruction => p.store i (a.begin instruction) network

def task? (p : Pool μ ε) (i : Nat) : Option (Instruction μ) := p.actors[i]?.bind Actor.task

/-- Lets the actor at a position complete its task and send the result. -/
def complete (p : Pool μ ε) (i : Nat) : Pool μ ε :=
  match p.actors[i]?, p.task? i with
  | some a, some instruction =>
    match a.complete instruction with
    | (a, none) => p.store i a p.network
    | (a, some result) =>
      let (outcome, network) := p.network.send i result
      p.store i (a.sent p.config outcome) network
  | _, _ => p

def settle (p : Pool μ ε) : Pool μ ε := (List.range p.size).foldl take p

/-- Lets the actor at a position complete its task, if it has one, and all actors settle. -/
def answer? (p : Pool μ ε) (i : Nat) : Option (Pool μ ε) :=
  if (p.task? i).isSome then some (p.complete i).settle else none

def broadcast (p : Pool μ ε) (role : String) (command : Command μ) : Delivery (Pool μ ε) :=
  let d := p.network.broadcast role command
  { outcome := d.outcome, network := { p with network := d.network }.settle, log := d.log }

def detach (p : Pool μ ε) : Pool μ ε := { p with network := p.network.detach }.settle

/-- Takes the next result from the inbox. When it is empty but may still be filled, the actor at
the given position completes its task first. -/
def serve (p : Pool μ ε) (i : Nat) : Reception ε × Pool μ ε :=
  match Network.receive p.network with
  | (.arrival a, network) => (.arrival a, { p with network })
  | (.waiting, _) =>
    match p.answer? i with
    | none => (.waiting, p)
    | some p =>
      let (reception, network) := Network.receive p.network
      (reception, { p with network })

structure Gathered (μ ε : Type) where
  items : List (Except NetworkError (AcceptedBatch ε))
  waiting : Bool
  coordinator : Coordinator
  round : Round
  pool : Pool μ ε
  log : List Log.Event

/-- Runs a round until it ends or has to wait. -/
def advance (c : Coordinator) (r : Round) (p : Pool μ ε) : Gathered μ ε :=
  let d := c.drainAll r p.network
  ⟨d.items, d.waiting, d.coordinator, d.round, { p with network := d.network }, d.log⟩

/-- Runs a round to its end. Each time it would have to wait, the next actor of a list completes its
task; the round waits for good when there is none or it is not at work. -/
def gather (c : Coordinator) (r : Round) (p : Pool μ ε) : List Nat → Gathered μ ε
  | [] => advance c r p
  | i :: order =>
    let g := advance c r p
    match g.waiting, g.pool.answer? i with
    | true, some p =>
      let rest := gather g.coordinator g.round p order
      { rest with items := g.items ++ rest.items, log := g.log ++ rest.log }
    | _, _ => g

def finishedCount (p : Pool μ ε) : Nat :=
  (p.actors.filter fun a => a.phase ≠ .running).length

def collectStats (p : Pool μ ε) : List Stats × Pool μ ε :=
  let read := p.actors.map Actor.readReports
  (read.flatMap Prod.fst, { p with actors := read.map Prod.snd })

/-- Whether the endpoint at a position was given up or has an exit in its queue. -/
def isDismissed (p : Pool μ ε) (i : Nat) : Bool :=
  match p.network.endpoint? i with
  | none => true
  | some e => e.commands.any fun c => c.tag = .exit

/-- Lets the actor at a position complete its task and take its next command, `n` times. -/
def work (i : Nat) : Nat → Pool μ ε → Pool μ ε
  | 0, p => p
  | n + 1, p => work i n ((p.complete i).take i)

def isDone (p : Pool μ ε) (i : Nat) : Bool := p.actors[i]?.all fun a => a.phase ≠ .running

/-- Waits until the actor at a position is done. It works off the commands in its queue; if it is
still running after that, nothing will end it, and who waits for it waits for good. -/
def await (p : Pool μ ε) (i : Nat) : Option (Pool μ ε) :=
  let waiting := ((p.network.endpoint? i).map Endpoint.commands).getD []
  let p := work i (waiting.length + 1) p
  if p.isDone i then some p else none

/-- Waits for all actors, one after another. Nobody is told to exit by this. -/
def join (p : Pool μ ε) : Option (Pool μ ε) := (List.range p.size).foldlM await p

def farewells (p : Pool μ ε) : List Farewell := p.actors.map Actor.farewell

def total (p : Pool μ ε) : Stats := Stats.aggregate (p.farewells.filterMap Farewell.stats?)

end Pool

end ExperienceCollection
