import ExperienceCollection.Proofs.Actor.Session
import ExperienceCollection.Proofs.Collection.Campaign
import ExperienceCollection.Proofs.Network.Enrolment
import ExperienceCollection.Proofs.Network.Traffic

/-!
# Tenure of a coordinator

A coordinator is created if nothing stands against it: its configuration is complete, and the groups
of the network have the peers that it expects. What is checked then stays true. The role of its
peers remains registered whatever they do, even when all of them have left, so a coordinator can
always open a round.
-/

namespace ExperienceCollection

variable {μ ε : Type}

/-- All that stands against a coordinator for a network of some groups, in the order in which it is
checked. -/
def CoordinatorConfig.faults (config : CoordinatorConfig) (groups : List (String × Nat)) :
    List CoordinatorError :=
  let actual := ChannelNetwork.enrolled groups config.peerRole
  (if config.groupName = "" then [.config (.emptyField "group_name")] else []) ++
    (if config.peerRole = "" then [.config (.emptyField "peer_role")] else []) ++
    (if config.numPeers = 0 then [.config (.invalidCount "num_peers" 0)] else []) ++
    (if config.peerRole ∈ groups.map Prod.fst then []
      else [.unrecognizedPeerGroup config.peerRole]) ++
    (if actual = config.numPeers then []
      else [.peerCountMismatch config.peerRole config.numPeers actual])

/-- The settings under which nothing stands against a coordinator. -/
structure CoordinatorConfig.Fits (config : CoordinatorConfig) (groups : List (String × Nat)) :
    Prop where
  group : config.groupName ≠ ""
  role : config.peerRole ≠ ""
  expected : 0 < config.numPeers
  registered : config.peerRole ∈ groups.map Prod.fst
  actual : ChannelNetwork.enrolled groups config.peerRole = config.numPeers

lemma CoordinatorConfig.faults_eq_nil {config : CoordinatorConfig}
    {groups : List (String × Nat)} : config.faults groups = [] ↔ config.Fits groups := by
  simp only [faults, List.append_eq_nil_iff, ite_eq_right_iff, ite_eq_left_iff, List.cons_ne_nil,
    imp_false, not_not]
  constructor
  · rintro ⟨⟨⟨⟨group, role⟩, expected⟩, registered⟩, actual⟩
    exact ⟨group, role, Nat.pos_of_ne_zero expected, registered, actual⟩
  · rintro ⟨group, role, expected, registered, actual⟩
    exact ⟨⟨⟨⟨group, role⟩, Nat.ne_of_gt expected⟩, registered⟩, actual⟩

namespace ChannelNetwork

/-- Which peers a role has depends on the roster alone. -/
lemma peers_congr {n m : ChannelNetwork μ ε} (h : n.roster = m.roster) (role : String) :
    n.peers role = m.peers role := by
  have hroles : n.roles = m.roles := congrArg Prod.fst h
  by_cases hrole : role ∈ n.roles
  · rw [peers_registered hrole, peers_registered (hroles ▸ hrole), members_id_eq, members_id_eq, h]
  · rw [peers_unregistered hrole, peers_unregistered (hroles ▸ hrole)]

lemma Traffic.step_roster (t : Traffic μ ε) (x : Step μ ε) :
    (t.step x).network.roster = t.network.roster := by
  cases x with
  | broadcast role command => exact t.network.broadcast_roster role command
  | receive =>
    obtain ⟨inbox, hn⟩ := t.network.receive_network
    have hnetwork : (t.step .receive).network = (Network.receive t.network).2 := by
      rw [step]
      split
      · rename_i h
        rw [h]
      · rename_i h
        rw [h]
    rw [hnetwork, hn]
    rfl
  | take i =>
    have hnetwork : (t.step (.take i)).network = (t.network.takeCommand i).2 := by
      rw [step]
      split
      · rename_i h
        rw [h]
      · rename_i h
        rw [h]
    rw [hnetwork, takeCommand_roster]
  | send i result => exact t.network.send_roster i result
  | leave i => exact t.network.dropEndpoint_roster i

/-- What a step of the traffic makes of the network. -/
def Step.act (x : Step μ ε) (n : ChannelNetwork μ ε) : ChannelNetwork μ ε :=
  (Traffic.step { network := n } x).network

lemma Traffic.run_roster (t : Traffic μ ε) (steps : List (Step μ ε)) :
    (t.run steps).network.roster = t.network.roster := by
  induction steps generalizing t with
  | nil => rfl
  | cons x steps ih => exact (ih _).trans (t.step_roster x)

end ChannelNetwork

namespace Coordinator

/-- A coordinator is refused for the first thing that stands against it. -/
theorem create_eq (config : CoordinatorConfig) {node : PeerId} {groups : List (String × Nat)}
    {n : ChannelNetwork μ ε}
    (hn : n.roster = (ChannelNetwork.build node groups : ChannelNetwork μ ε).roster) :
    (create config n).1 =
      match (config.faults groups).head? with
      | some e => .error e
      | none => .ok
        { config
          peers := (List.range config.numPeers).map (peerName config.peerRole) } := by
  have hpeers := (ChannelNetwork.peers_congr hn config.peerRole).trans
    (ChannelNetwork.peers_build node groups config.peerRole)
  unfold create CoordinatorConfig.validate CoordinatorConfig.faults
  dsimp only [Network.peers]
  rw [hpeers]
  by_cases group : config.groupName = ""
  · simp [group]
  by_cases role : config.peerRole = ""
  · simp [group, role]
  by_cases expected : config.numPeers = 0
  · simp [group, role, expected]
  by_cases registered : config.peerRole ∈ groups.map Prod.fst
  swap
  · simp only [group, role, expected, registered, if_false]
    rfl
  by_cases actual : ChannelNetwork.enrolled groups config.peerRole = config.numPeers
  · simp only [group, role, expected, registered, actual, if_true, if_false]
    simp
  · simp only [group, role, expected, registered, actual, if_true, if_false]
    simp [actual]

end Coordinator

namespace Campaign

/-- What a coordinator was created with, and the roster of its network. -/
def founding (s : Campaign (ChannelNetwork μ ε) μ ε) :
    CoordinatorConfig × List PeerId × List String × List (PeerId × String) :=
  (s.coordinator.config, s.coordinator.peers, s.network.roster)

lemma step_founding (s : Campaign (ChannelNetwork μ ε) μ ε)
    (x : Step (ChannelNetwork.Step μ ε) μ) :
    (step ChannelNetwork.Step.act s x).founding = s.founding := by
  cases x with
  | collect q =>
    have hroster := s.network.broadcast_roster s.coordinator.config.peerRole
      (.rollout q.toInstruction)
    rw [← Coordinator.collect_network] at hroster
    simp only [founding, step, collect, hroster]
  | next =>
    cases hcurrent : s.current with
    | none => exact congrArg founding (next_of_none hcurrent)
    | some current =>
      change founding s.next = _
      rw [founding, next_coordinator hcurrent, next_network hcurrent]
      rfl
  | exit =>
    have hroster := s.network.broadcast_roster s.coordinator.config.peerRole .exit
    rw [← Coordinator.exit_network] at hroster
    simp only [founding, step, exit, hroster]
  | environment move =>
    have hroster := ChannelNetwork.Traffic.step_roster { network := s.network } move
    simp only [founding, step, ChannelNetwork.Step.act, hroster]

lemma run_founding (s : Campaign (ChannelNetwork μ ε) μ ε)
    (steps : List (Step (ChannelNetwork.Step μ ε) μ)) :
    (s.run ChannelNetwork.Step.act steps).founding = s.founding := by
  refine run_of_step (P := fun s' => s'.founding = s.founding) (fun s' x hs => ?_) rfl steps
  exact (step_founding s' x).trans hs

/-- As long as the role of its peers is registered, a coordinator opens the rounds it is asked
for, whoever is still there. -/
lemma collect_run {s : Campaign (ChannelNetwork μ ε) μ ε}
    (h : s.coordinator.config.peerRole ∈ s.network.roles)
    (steps : List (Step (ChannelNetwork.Step μ ε) μ)) (q : Request μ) :
    let s' := s.run ChannelNetwork.Step.act steps
    (s'.coordinator.collect s'.network q).outcome = .ok (s.coordinator.opened q) := by
  intro s'
  have hfounding : s'.founding = s.founding := s.run_founding steps
  simp only [founding, Prod.mk.injEq] at hfounding
  obtain ⟨hconfig, hpeers, hroster⟩ := hfounding
  have hroles : s'.network.roles = s.network.roles := congrArg Prod.fst hroster
  rw [Coordinator.collect_registered (by rw [hconfig, hroles]; exact h), Coordinator.opened,
    Coordinator.numPeers, hpeers]
  rfl

/-- On the network of any groups, whatever has happened there before, a coordinator is created if
and only if its configuration fits the groups; otherwise the error is the first thing that stands
against it. Over any rounds, finished or given up, with any results and departures of peers in
between, its configuration and its peers are those it was created with, and it opens every round it
is asked for. -/
theorem tenure_of_run (config : CoordinatorConfig) (node : PeerId) (groups : List (String × Nat))
    (before : List (ChannelNetwork.Step μ ε)) :
    let n := (ChannelNetwork.Traffic.run { network := .build node groups } before).network
    ((∃ c, (Coordinator.create config n).1 = .ok c) ↔ config.Fits groups) ∧
      (∀ e, (Coordinator.create config n).1 = .error e ↔ (config.faults groups).head? = some e) ∧
      ∀ c, (Coordinator.create config n).1 = .ok c →
        c.config = config ∧ c.numPeers = config.numPeers ∧
          c.peers = (List.range config.numPeers).map (peerName config.peerRole) ∧
          ∀ steps,
            let s := (start c n).run ChannelNetwork.Step.act steps
            s.coordinator.config = config ∧ s.coordinator.peers = c.peers ∧
              s.coordinator.numPeers = config.numPeers ∧
              ∀ q, (s.coordinator.collect s.network q).outcome = .ok (c.opened q) := by
  intro n
  have hroster : n.roster = (ChannelNetwork.build node groups : ChannelNetwork μ ε).roster :=
    ChannelNetwork.Traffic.run_roster _ before
  have hcreate := Coordinator.create_eq config hroster
  cases hfaults : (config.faults groups).head? with
  | some e =>
    rw [hfaults] at hcreate
    have hunfit : ¬config.Fits groups := by
      rw [← CoordinatorConfig.faults_eq_nil, ← List.head?_eq_none_iff, hfaults]
      nofun
    rw [hcreate]
    refine ⟨⟨nofun, fun h => absurd h hunfit⟩, fun e' => ?_, nofun⟩
    rw [Except.error.injEq, Option.some.injEq]
  | none =>
    rw [hfaults] at hcreate
    have hfits : config.Fits groups :=
      CoordinatorConfig.faults_eq_nil.mp (List.head?_eq_none_iff.mp hfaults)
    rw [hcreate]
    refine ⟨⟨fun _ => hfits, fun _ => ⟨_, rfl⟩⟩, fun e => ⟨nofun, nofun⟩, ?_⟩
    intro c hc
    obtain rfl := Except.ok.inj hc
    have hlength : ((List.range config.numPeers).map
        (peerName config.peerRole)).length = config.numPeers := by
      rw [List.length_map, List.length_range]
    have hroles : n.roles = (ChannelNetwork.build node groups : ChannelNetwork μ ε).roles :=
      congrArg Prod.fst hroster
    have hrole : config.peerRole ∈ n.roles :=
      hroles ▸ ChannelNetwork.mem_roles_build.mpr hfits.registered
    refine ⟨rfl, hlength, rfl, fun steps => ?_⟩
    intro s
    have hfounding : s.founding = _ := run_founding _ steps
    simp only [founding, Prod.mk.injEq] at hfounding
    obtain ⟨hconfig, hpeers, -⟩ := hfounding
    refine ⟨hconfig, hpeers, ?_, collect_run hrole steps⟩
    rw [Coordinator.numPeers, hpeers]
    exact hlength

/-- The last peer leaves while a round is open. -/
def desertion : List (Step (ChannelNetwork.Step Unit Unit) Unit) :=
  [.collect { rolloutIndex := 7, segmentIndex := 0, numSteps := 4 }, .environment (.leave 1), .next,
    .exit]

/-- One of two peers has left before the coordinator is created, and the other leaves later. Both
are still counted, and rounds are still opened. A third one that is expected is missing. -/
theorem tenure_of_desertion :
    let n := (ChannelNetwork.Traffic.run (μ := Unit) (ε := Unit)
      { network := .build "learner" [("actor", 2)] } [.leave 0]).network
    (Coordinator.create { groupName := "", numPeers := 0 } n).1 =
        .error (.config (.emptyField "group_name")) ∧
      (Coordinator.create { groupName := "group", numPeers := 3 } n).1 =
        .error (.peerCountMismatch "actor" 3 2) ∧
      ∃ c, (Coordinator.create { groupName := "group", numPeers := 2 } n).1 = .ok c ∧
        let s := (start c n).run ChannelNetwork.Step.act desertion
        s.network.isClosed = true ∧ s.coordinator.peers = ["actor.0", "actor.1"] ∧
          ∀ q, (s.coordinator.collect s.network q).outcome = .ok (c.opened q) := by
  intro n
  have htenure (config : CoordinatorConfig) :=
    tenure_of_run (μ := Unit) (ε := Unit) config "learner" [("actor", 2)] [.leave 0]
  refine ⟨?_, ?_, ?_⟩
  · exact ((htenure _).2.1 _).mpr rfl
  · exact ((htenure _).2.1 _).mpr rfl
  · obtain ⟨hcreated, -, hkept⟩ := htenure { groupName := "group", numPeers := 2 }
    obtain ⟨c, hc⟩ := hcreated.mpr ⟨by decide, by decide, by decide, by decide, by decide⟩
    obtain ⟨-, -, hpeers, hrun⟩ := hkept c hc
    obtain ⟨-, hsame, -, hcollect⟩ := hrun desertion
    obtain rfl := Except.ok.inj (hc.symm.trans rfl)
    exact ⟨_, hc, rfl, hsame.trans hpeers, hcollect⟩

end Campaign

end ExperienceCollection
