import ExperienceCollection.Proofs.Actor.Errands
import ExperienceCollection.Proofs.Actor.Service
import ExperienceCollection.Proofs.Network.Build

/-!
# Sessions

In a session of a pool commands are sent, results received and reports read, the actors take their
turns, and the coordinator may go away, all in any order. Every step is a turn of each actor, so
what turns preserve holds throughout; and an endpoint is there exactly as long as its actor is
running.
-/

namespace ExperienceCollection

variable {μ ε : Type}

/-- Commands carry their own tags. -/
def ChannelNetwork.Tagged (n : ChannelNetwork μ ε) : Prop :=
  ∀ e ∈ n.endpoints, ∀ c ∈ e.commands, c.tag = c.body.tag

namespace ChannelNetwork

variable {n : ChannelNetwork μ ε}

lemma takeCommand_attached (n : ChannelNetwork μ ε) (i : Nat) :
    (n.takeCommand i).2.attached = n.attached := by
  rcases n.takeCommand_cases i with h | ⟨e, c, rest, -, -, -, h⟩
  · rw [h]
  · rw [h]
    rfl

lemma takeCommand_endpoints_ne (n : ChannelNetwork μ ε) {i j : Nat} (hij : i ≠ j) :
    (n.takeCommand j).2.endpoints[i]? = n.endpoints[i]? := by
  rcases n.takeCommand_cases j with h | ⟨e, c, rest, he, -, -, h⟩
  · rw [h]
  · rw [h, setQueue_endpoints he, List.getElem?_set_ne (Ne.symm hij)]

/-- Which endpoints are still there. -/
def presence (n : ChannelNetwork μ ε) : List Bool := n.endpoints.map Endpoint.alive

lemma presence_takeCommand (n : ChannelNetwork μ ε) (i : Nat) :
    (n.takeCommand i).2.presence = n.presence := by
  rcases n.takeCommand_cases i with h | ⟨e, c, rest, he, -, -, h⟩
  · rw [h]
  · rw [h, presence, setQueue_endpoints he]
    exact map_set_of_eq Endpoint.alive he rfl

lemma presence_dropEndpoint (n : ChannelNetwork μ ε) (i : Nat) :
    (n.dropEndpoint i).presence = n.presence.set i false := by
  cases hthere : n.endpoint? i with
  | none =>
    rw [dropEndpoint_of_none hthere]
    cases he : n.endpoints[i]? with
    | none =>
      have hlength : n.presence.length ≤ i := by
        rw [presence, List.length_map]
        exact List.getElem?_eq_none_iff.mp he
      exact (List.set_eq_of_length_le hlength).symm
    | some e =>
      have hgone : e.alive = false := by
        rw [Wiring.endpoint?, he, Option.filter_eq_none_iff] at hthere
        simpa using hthere e rfl
      obtain ⟨hi, rfl⟩ := List.getElem?_eq_some_iff.mp he
      rw [← hgone, presence, ← List.map_set, List.set_getElem_self]
  | some e =>
    obtain ⟨he, halive⟩ := Wiring.endpoint?_eq_some.mp hthere
    rw [presence, dropEndpoint_of_alive he halive]
    exact List.map_set

lemma presence_broadcast (n : ChannelNetwork μ ε) (role : String) (command : Command μ) :
    (n.broadcast role command).network.presence = n.presence := by
  rw [presence, broadcast_endpoints, List.map_map]
  exact List.map_congr_left fun e _ => e.deliver_alive role _

lemma receive_network (n : ChannelNetwork μ ε) :
    ∃ inbox, (Network.receive n).2 = { n with inbox } := by
  unfold Network.receive
  split
  · exact ⟨_, rfl⟩
  · exact ⟨_, rfl⟩

lemma Tagged.setQueue (h : n.Tagged) {i : Nat} {e : Endpoint μ} (he : n.endpoints[i]? = some e)
    {commands : List (Envelope (Command μ))} (hsub : commands ⊆ e.commands) :
    (n.rewire (n.setQueue i commands)).Tagged := by
  intro e' he' c hc
  rw [setQueue_endpoints he] at he'
  rcases List.mem_or_eq_of_mem_set he' with he' | rfl
  · exact h e' he' c hc
  · exact h e (List.mem_of_getElem? he) c (hsub hc)

lemma Tagged.takeCommand (h : n.Tagged) (i : Nat) : (n.takeCommand i).2.Tagged := by
  rcases n.takeCommand_cases i with hn | ⟨e, c, rest, he, -, hcommands, hn⟩
  · rw [hn]
    exact h
  · rw [hn]
    apply h.setQueue he
    rw [hcommands]
    exact List.subset_cons_self c rest

lemma Tagged.dropEndpoint (h : n.Tagged) (i : Nat) : (n.dropEndpoint i).Tagged := by
  cases hthere : n.endpoint? i with
  | none =>
    rw [dropEndpoint_of_none hthere]
    exact h
  | some e =>
    obtain ⟨he, halive⟩ := Wiring.endpoint?_eq_some.mp hthere
    intro e' he' c hc
    rw [dropEndpoint_of_alive he halive] at he'
    rcases List.mem_or_eq_of_mem_set he' with he' | rfl
    · exact h e' he' c hc
    · cases hc

lemma Tagged.broadcast (h : n.Tagged) (role : String) (command : Command μ) :
    (n.broadcast role command).network.Tagged := by
  intro e he c hc
  rw [broadcast_endpoints] at he
  obtain ⟨e, hmem, rfl⟩ := List.mem_map.mp he
  unfold Endpoint.deliver at hc
  split at hc
  · rcases List.mem_append.mp hc with hc | hc
    · exact h e hmem c hc
    · rw [List.mem_singleton.mp hc]
      rfl
  · exact h e hmem c hc

end ChannelNetwork

namespace Pool

inductive Step (μ : Type) where
  | broadcast (role : String) (command : Command μ)
  | receive
  | detach
  | take (i : Nat)
  | complete (i : Nat)
  | read (i : Nat)
  | collect

/-- Whether a step reads reports of the actor at a position. -/
def Step.reads (i : Nat) : Step μ → Bool
  | read j => j = i
  | collect => true
  | _ => false

def step (p : Pool μ ε) : Step μ → Pool μ ε
  | .broadcast role command => { p with network := (p.network.broadcast role command).network }
  | .receive => { p with network := (Network.receive p.network).2 }
  | .detach => { p with network := p.network.detach }
  | .take i => p.take i
  | .complete i => p.complete i
  | .read i => { p with actors := p.actors.modify i fun a => a.readReport.2 }
  | .collect => p.collectStats.2

def run (p : Pool μ ε) (steps : List (Step μ)) : Pool μ ε := steps.foldl step p

lemma run_append (p : Pool μ ε) (steps more : List (Step μ)) :
    p.run (steps ++ more) = (p.run steps).run more := List.foldl_append

lemma run_concat (p : Pool μ ε) (steps : List (Step μ)) (x : Step μ) :
    p.run (steps ++ [x]) = (p.run steps).step x := p.run_append steps [x]

variable {p q : Pool μ ε} {i : Nat} {behaviour : PeerId → Behaviour μ ε}

/-- The actor at a position has a turn and is put back, or nothing happens. -/
inductive Plays (p : Pool μ ε) (i : Nat) : Pool μ ε → Prop where
  | rests : Plays p i p
  | acts (a b : Actor μ ε) (n : ChannelNetwork μ ε) (actor : p.actors[i]? = some a)
      (turn : Actor.Turn p.config a false b) (presence : n.presence = p.network.presence)
      (tagged : p.network.Tagged → n.Tagged) : Plays p i (p.store i b n)

lemma Takes.plays (h : Takes p i q) : Plays p i q := by
  have hpresence := p.network.presence_takeCommand i
  have htagged (h : p.network.Tagged) := h.takeCommand i
  cases h with
  | idle => exact .rests
  | disconnected a actor running free =>
    exact .acts a _ _ actor (.leaves _ _ running free) hpresence htagged
  | exit a c actor running free =>
    exact .acts a _ _ actor (.leaves _ _ running free) hpresence htagged
  | begins a c instruction actor running free =>
    exact .acts a _ _ actor (.begins _ instruction running free) hpresence htagged

lemma Completes.plays (h : Completes p i q) : Plays p i q := by
  cases h with
  | idle => exact .rests
  | crashes a instruction actor task behaviour =>
    exact .acts a _ _ actor (.breaks _ instruction task behaviour) rfl id
  | sends a instruction o actor task behaviour =>
    obtain ⟨inbox, hn⟩ := p.network.send_network i (o.result instruction)
    rw [hn]
    exact .acts a _ _ actor (.serves _ instruction o _ task behaviour) rfl id

lemma Plays.size_eq (h : Plays p i q) : q.actors.length = p.actors.length := by
  cases h with
  | rests => rfl
  | acts => exact List.length_set

lemma Plays.config_eq (h : Plays p i q) : q.config = p.config := by
  cases h with
  | rests => rfl
  | acts => rfl

lemma Plays.turn (h : Plays p i q) {j : Nat} {a : Actor μ ε} (ha : p.actors[j]? = some a)
    (read : Bool) : ∃ b, q.actors[j]? = some b ∧ Actor.Turn p.config a read b := by
  cases h with
  | rests => exact ⟨a, ha, .rests read⟩
  | acts a' b n actor turn =>
    by_cases hij : i = j
    · subst hij
      obtain rfl : a' = a := Option.some.inj (actor.symm.trans ha)
      obtain ⟨hi, -⟩ := List.getElem?_eq_some_iff.mp ha
      exact ⟨b, List.getElem?_set_self hi, turn.of_quiet read⟩
    · refine ⟨a, ?_, .rests read⟩
      rw [← ha]
      exact List.getElem?_set_ne hij

lemma step_config (p : Pool μ ε) (x : Step μ) : (p.step x).config = p.config := by
  cases x with
  | take i => exact (p.take_takes i).plays.config_eq
  | complete i => exact (p.complete_completes i).plays.config_eq
  | _ => rfl

lemma step_length (p : Pool μ ε) (x : Step μ) :
    (p.step x).actors.length = p.actors.length := by
  cases x with
  | take i => exact (p.take_takes i).plays.size_eq
  | complete i => exact (p.complete_completes i).plays.size_eq
  | read i => exact List.length_modify _ _ _
  | collect => simp [step, collectStats]
  | _ => rfl

/-- A step is a turn of every actor. -/
theorem step_turn {a : Actor μ ε} (ha : p.actors[i]? = some a) (x : Step μ) :
    ∃ b, (p.step x).actors[i]? = some b ∧ Actor.Turn p.config a (x.reads i) b := by
  cases x with
  | broadcast role command => exact ⟨a, ha, .rests _⟩
  | receive => exact ⟨a, ha, .rests _⟩
  | detach => exact ⟨a, ha, .rests _⟩
  | take j => exact (p.take_takes j).plays.turn ha _
  | complete j => exact (p.complete_completes j).plays.turn ha _
  | read j =>
    rw [step, List.getElem?_modify, ha, Option.map_eq_map, Option.map_some]
    by_cases hij : j = i
    · refine ⟨_, congrArg some (if_pos hij), ?_⟩
      rw [Step.reads, decide_eq_true hij, Actor.readReport_eq]
      exact .reads 1
    · exact ⟨_, congrArg some (if_neg hij), .rests _⟩
  | collect =>
    refine ⟨a.readReports.2, ?_, ?_⟩
    · simp [step, collectStats, ha]
    · rw [Actor.readReports_eq]
      exact .reads _

/-- What holds throughout a session. -/
structure InOrder (behaviour : PeerId → Behaviour μ ε) (p : Pool μ ε) : Prop where
  presence : p.network.presence = p.actors.map fun a => decide (a.phase = .running)
  tagged : p.network.Tagged
  recorded : ∀ a ∈ p.actors, a.Recorded p.config ∧ a.behaviour = behaviour a.peer

lemma InOrder.plays (h : p.InOrder behaviour) (hq : Plays p i q) :
    q.network.presence = (q.actors.map fun a => decide (a.phase = .running)) ∧
      q.network.Tagged := by
  cases hq with
  | rests => exact ⟨h.presence, h.tagged⟩
  | acts a b n actor turn presence tagged =>
    have hrecorded := (h.recorded a (List.mem_of_getElem? actor)).1
    unfold store
    by_cases running : b.phase = .running
    · have hrunning : a.phase = .running := by
        by_contra hdone
        exact hdone ((turn.phase_eq_of_done hrecorded hdone).symm.trans running)
      rw [if_pos running]
      refine ⟨?_, tagged h.tagged⟩
      rw [presence, h.presence]
      exact (map_set_of_eq _ actor (by rw [running, hrunning])).symm
    · rw [if_neg running]
      refine ⟨?_, (tagged h.tagged).dropEndpoint i⟩
      rw [ChannelNetwork.presence_dropEndpoint, presence, h.presence, List.map_set,
        decide_eq_false running]

theorem InOrder.step (h : p.InOrder behaviour) (x : Step μ) : (p.step x).InOrder behaviour := by
  have hnetwork : (p.step x).network.presence =
      ((p.step x).actors.map fun a => decide (a.phase = .running)) ∧
      (p.step x).network.Tagged := by
    cases x with
    | broadcast role command =>
      exact ⟨(p.network.presence_broadcast role command).trans h.presence,
        h.tagged.broadcast role command⟩
    | receive =>
      obtain ⟨inbox, hn⟩ := p.network.receive_network
      rw [Pool.step, hn]
      exact ⟨h.presence, h.tagged⟩
    | detach => exact ⟨h.presence, h.tagged⟩
    | take i => exact h.plays (p.take_takes i).plays
    | complete i => exact h.plays (p.complete_completes i).plays
    | read i =>
      refine ⟨?_, h.tagged⟩
      rw [Pool.step, map_modify_of_eq]
      · exact h.presence
      · intro a
        rw [Actor.readReport_eq]
    | collect =>
      refine ⟨?_, h.tagged⟩
      rw [Pool.step, collectStats, List.map_map, List.map_map]
      exact h.presence
  refine ⟨hnetwork.1, hnetwork.2, ?_⟩
  intro b hb
  obtain ⟨i, hi⟩ := List.getElem?_of_mem hb
  obtain ⟨hlt, -⟩ := List.getElem?_eq_some_iff.mp hi
  rw [step_length] at hlt
  obtain ⟨b', hb', hturn⟩ := step_turn (List.getElem?_eq_getElem hlt) x
  obtain rfl : b' = b := Option.some.inj (hb'.symm.trans hi)
  obtain ⟨hrecorded, hbehaviour⟩ := h.recorded _ (List.getElem_mem hlt)
  refine ⟨?_, ?_⟩
  · rw [step_config]
    exact hturn.recorded hrecorded
  · rw [hturn.same.1, hturn.same.2]
    exact hbehaviour

theorem InOrder.run (h : p.InOrder behaviour) (steps : List (Step μ)) :
    (p.run steps).InOrder behaviour := by
  induction steps generalizing p with
  | nil => exact h
  | cons x steps ih => exact ih (h.step x)

lemma run_config (p : Pool μ ε) (steps : List (Step μ)) : (p.run steps).config = p.config := by
  induction steps generalizing p with
  | nil => rfl
  | cons x steps ih => exact (ih _).trans (p.step_config x)

lemma run_length (p : Pool μ ε) (steps : List (Step μ)) :
    (p.run steps).actors.length = p.actors.length := by
  induction steps generalizing p with
  | nil => rfl
  | cons x steps ih => exact (ih _).trans (p.step_length x)

lemma inOrder_spawn (config : ActorConfig) (node : PeerId) (groups : List (String × Nat))
    (behaviour : PeerId → Behaviour μ ε) :
    (spawn config (ChannelNetwork.build node groups) behaviour).1.InOrder behaviour := by
  refine ⟨?_, ?_, ?_⟩
  · rw [spawn, List.map_map, ChannelNetwork.presence]
    apply List.map_congr_left
    intro e he
    obtain ⟨g, -, k, rfl⟩ := ChannelNetwork.mem_build he
    rfl
  · intro e he c hc
    obtain ⟨g, -, k, rfl⟩ := ChannelNetwork.mem_build he
    cases hc
  · intro a ha
    obtain ⟨e, -, rfl⟩ := List.mem_map.mp ha
    exact ⟨Actor.recorded_start config e.id (behaviour e.id), rfl⟩

/-- An endpoint is there exactly as long as its actor is running. -/
lemma InOrder.alive_iff (h : p.InOrder behaviour) {a : Actor μ ε} {e : Endpoint μ}
    (ha : p.actors[i]? = some a) (he : p.network.endpoints[i]? = some e) :
    e.alive = true ↔ a.phase = .running := by
  have hpresence := congrArg (·[i]?) h.presence
  simp only [ChannelNetwork.presence, List.getElem?_map, ha, he, Option.map_some,
    Option.some.injEq] at hpresence
  rw [hpresence, decide_eq_true_eq]

lemma InOrder.exists_endpoint (h : p.InOrder behaviour) {a : Actor μ ε}
    (ha : p.actors[i]? = some a) : ∃ e, p.network.endpoints[i]? = some e := by
  have hlength := congrArg List.length h.presence
  rw [ChannelNetwork.presence, List.length_map, List.length_map] at hlength
  obtain ⟨hi, -⟩ := List.getElem?_eq_some_iff.mp ha
  exact ⟨_, List.getElem?_eq_getElem (hlength ▸ hi)⟩

/-- An actor that is done stays as it is as long as nobody reads its reports. -/
lemma InOrder.run_of_done (h : p.InOrder behaviour) {a : Actor μ ε}
    (ha : p.actors[i]? = some a) (hdone : a.phase ≠ .running) {steps : List (Step μ)}
    (hsteps : ∀ x ∈ steps, x.reads i = false) : (p.run steps).actors[i]? = some a := by
  induction steps generalizing p with
  | nil => exact ha
  | cons x steps ih =>
    obtain ⟨b, hb, hturn⟩ := step_turn ha x
    rw [hsteps x List.mem_cons_self] at hturn
    obtain rfl := hturn.eq_of_done (h.recorded a (List.mem_of_getElem? ha)).1 hdone
    exact ih (h.step x) hb fun y hy => hsteps y (List.mem_cons_of_mem x hy)

end Pool

end ExperienceCollection
