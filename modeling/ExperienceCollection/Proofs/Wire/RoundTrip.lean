import ExperienceCollection.Proofs.Wire.Datum
import ExperienceCollection.Wire.Message
import ExperienceCollection.Wire.Settings

/-!
# Round trips

Messages and configurations without doubles are read back from their text.
-/

namespace ExperienceCollection

/-- An instruction without doubles. A model that is there is not `null`. -/
structure Instruction.Plain (i : Instruction Datum) : Prop where
  rolloutIndex : i.rolloutIndex ≤ Counter.top
  segmentIndex : i.segmentIndex ≤ Counter.top
  numSteps : i.numSteps ≤ Counter.top
  models : ∀ m ∈ i.models, m ≠ .null ∧ m.Plain
  explorationParams : ∀ p ∈ i.explorationParams, p = KeyMap.empty

/-- A result without doubles, and so without a reward. -/
structure Result.Plain (r : Result Datum) : Prop where
  rolloutIndex : r.rolloutIndex ≤ Counter.top
  segmentIndex : r.segmentIndex ≤ Counter.top
  numExperiences : r.numExperiences ≤ Counter.top
  numSteps : r.numSteps ≤ Counter.top
  totalReward : r.totalReward = none
  experiences : r.experiences.Plain
  envMetrics : ∀ p ∈ r.envMetrics, p = KeyMap.empty

def Command.Plain : Command Datum → Prop
  | rollout i => i.Plain
  | exit => True

namespace Wire

open Json (Tree)

variable {levels : Nat} {β : Type}

lemma decode?_print {α : Type} {read : Reader α} {t : Tree} (h : t.Legible) :
    decode? read t.print = read depthLimit t := by
  rw [decode?, Tree.parse?_print h]
  rfl

/-! ## What is written is legible -/

lemma legible_ofOption {α : Type} {write : α → Tree} (h : ∀ a, (write a).Legible)
    (o : Option α) : (ofOption write o).Legible := by
  cases o with
  | none => exact Tree.legible_null
  | some a => exact h a

lemma legible_ofParams (p : Params) : (ofParams p).Legible := by
  apply Tree.legible_ofMembers
  intro m hm
  obtain ⟨e, -, rfl⟩ := List.mem_map.mp hm
  exact Datum.legible_ofFloat e.2

lemma legible_ofInstruction (i : Instruction Datum) :
    (ofInstruction Datum.tree i).Legible := by
  apply Tree.legible_ofMembers
  simp only [List.forall_mem_cons]
  exact ⟨Tree.legible_ofNat _, Tree.legible_ofNat _, Tree.legible_ofNat _,
    legible_ofOption Datum.legible_tree _, legible_ofOption legible_ofParams _,
    Tree.legible_bool _, nofun⟩

lemma legible_ofResult (r : Result Datum) : (ofResult Datum.tree r).Legible := by
  apply Tree.legible_ofMembers
  simp only [List.forall_mem_cons]
  exact ⟨Tree.legible_ofNat _, Tree.legible_ofNat _, Tree.legible_ofNat _, Tree.legible_ofNat _,
    Tree.legible_bool _, legible_ofOption Datum.legible_ofFloat _, Datum.legible_tree _,
    legible_ofOption legible_ofParams _, nofun⟩

lemma legible_ofCommand (c : Command Datum) : (ofCommand Datum.tree c).Legible := by
  cases c with
  | rollout i =>
    apply Tree.legible_ofMembers
    simp only [List.forall_mem_cons]
    exact ⟨legible_ofInstruction i, nofun⟩
  | exit => exact Tree.legible_ofString _

lemma legible_ofTag (t : Tag) : (ofTag t).Legible := by
  cases t with
  | _ => exact Tree.legible_ofString _

lemma legible_ofSession (s : Session) : (ofSession s).Legible := by
  cases s with
  | _ => exact Tree.legible_ofString _

lemma legible_ofEnvelope {write : β → Tree} (h : ∀ b, (write b).Legible) (e : Envelope β) :
    (ofEnvelope write e).Legible := by
  apply Tree.legible_ofMembers
  simp only [List.forall_mem_cons]
  exact ⟨Tree.legible_ofString _, legible_ofTag _, legible_ofSession _, h _, nofun⟩

lemma legible_ofCapacity (c : Capacity) : (ofCapacity c).Legible := by
  cases c with
  | unbounded => exact Tree.legible_ofString _
  | bounded limit =>
    apply Tree.legible_ofMembers
    simp only [List.forall_mem_cons]
    exact ⟨Tree.legible_ofNat limit, nofun⟩

lemma legible_ofStoreConfig (c : StoreConfig) : (ofStoreConfig c).Legible := by
  apply Tree.legible_ofMembers
  simp only [List.forall_mem_cons]
  refine ⟨?_, legible_ofCapacity _, legible_ofOption (fun p => Tree.legible_ofString _) _, nofun⟩
  apply Tree.legible_array
  intro t ht
  obtain ⟨key, -, rfl⟩ := List.mem_map.mp ht
  exact Tree.legible_ofString key

lemma legible_ofCoordinatorConfig (c : CoordinatorConfig) : (ofCoordinatorConfig c).Legible := by
  apply Tree.legible_ofMembers
  simp only [List.forall_mem_cons]
  exact ⟨Tree.legible_ofString _, Tree.legible_ofNat _, Tree.legible_ofString _,
    Tree.legible_bool _, nofun⟩

/-! ## What is written is read back -/

lemma tree_ne_null {d : Datum} (h : d ≠ .null) (hplain : d.Plain) : d.tree ≠ .null := by
  cases d with
  | null => contradiction
  | float x => exact hplain.elim
  | _ => exact nofun

lemma missing?_params {p : Option Params} (h : ∀ m ∈ p, m = KeyMap.empty)
    (hdepth : (ofOption ofParams p).depth ≤ levels) :
    missing? params? levels (some (ofOption ofParams p)) = some p := by
  apply missing?_ofOption
  · intro m _
    exact nofun
  · intro m hm
    rw [hm] at hdepth
    obtain ⟨inner, rfl, -⟩ := Tree.depth_ofMembers_le hdepth
    rw [h m hm]
    exact map?_ofMap nofun

lemma instruction?_ofInstruction {i : Instruction Datum} (h : i.Plain)
    (hdepth : (ofInstruction Datum.tree i).depth ≤ levels) :
    instruction? Datum.read? levels (ofInstruction Datum.tree i) = some i := by
  obtain ⟨inner, rfl, hmembers⟩ := Tree.depth_ofMembers_le hdepth
  simp only [List.forall_mem_cons] at hmembers
  obtain ⟨-, -, -, hmodel, hparams, -, -⟩ := hmembers
  have hrecord : record? ["rollout_index", "segment_index", "num_steps", "models",
      "exploration_params", "return_env_metrics"] (inner + 1) (ofInstruction Datum.tree i) = _ :=
    record?_zip [.ofNat i.rolloutIndex, .ofNat i.segmentIndex, .ofNat i.numSteps,
      ofOption Datum.tree i.models, ofOption ofParams i.explorationParams,
      .bool i.returnEnvMetrics] (by decide) rfl
  have hmodels : missing? Datum.read? inner (some (ofOption Datum.tree i.models)) =
      some i.models := by
    apply missing?_ofOption
    · intro m hm
      exact tree_ne_null (h.models m hm).1 (h.models m hm).2
    · intro m hm
      rw [hm] at hmodel
      exact Datum.read?_tree m inner (h.models m hm).2 hmodel
  have hparams := missing?_params h.explorationParams hparams
  simp only [instruction?, hrecord, Option.bind_eq_bind, Option.bind_some, List.map_cons,
    List.map_nil, required?, nat?_ofNat h.rolloutIndex, nat?_ofNat h.segmentIndex,
    nat?_ofNat h.numSteps, hmodels, hparams, bool?]

lemma result?_ofResult {r : Result Datum} (h : r.Plain)
    (hdepth : (ofResult Datum.tree r).depth ≤ levels) :
    result? Datum.read? levels (ofResult Datum.tree r) = some r := by
  obtain ⟨inner, rfl, hmembers⟩ := Tree.depth_ofMembers_le hdepth
  simp only [List.forall_mem_cons] at hmembers
  obtain ⟨-, -, -, -, -, -, hexperiences, hmetrics, -⟩ := hmembers
  have hrecord : record? ["rollout_index", "segment_index", "num_experiences", "num_steps",
      "env_end", "total_reward", "experiences", "env_metrics"] (inner + 1)
      (ofResult Datum.tree r) = _ :=
    record?_zip [.ofNat r.rolloutIndex, .ofNat r.segmentIndex, .ofNat r.numExperiences,
      .ofNat r.numSteps, .bool r.envEnd, ofOption ofFloat r.totalReward,
      r.experiences.tree, ofOption ofParams r.envMetrics] (by decide) rfl
  have hreward : missing? float? inner (some (ofOption ofFloat r.totalReward)) =
      some r.totalReward := by
    rw [h.totalReward]
    rfl
  have hexperiences := Datum.read?_tree r.experiences inner h.experiences hexperiences
  have hmetrics := missing?_params h.envMetrics hmetrics
  simp only [result?, hrecord, Option.bind_eq_bind, Option.bind_some, List.map_cons,
    List.map_nil, required?, nat?_ofNat h.rolloutIndex, nat?_ofNat h.segmentIndex,
    nat?_ofNat h.numExperiences, nat?_ofNat h.numSteps, hreward, hexperiences, hmetrics, bool?]

lemma command?_ofCommand {c : Command Datum} (h : c.Plain)
    (hdepth : (ofCommand Datum.tree c).depth ≤ levels) :
    command? Datum.read? levels (ofCommand Datum.tree c) = some c := by
  cases c with
  | rollout i =>
    obtain ⟨inner, rfl, hmembers⟩ := Tree.depth_ofMembers_le hdepth
    have hinstruction := instruction?_ofInstruction h (hmembers _ List.mem_cons_self)
    simp only [command?, ofCommand, choice?_ofMembers, Option.bind_eq_bind, Option.bind_some,
      hinstruction]
  | exit =>
    simp only [command?, ofCommand, choice?_ofString, Option.bind_eq_bind, Option.bind_some]
    rfl

lemma tag?_ofTag (t : Tag) : tag? levels (ofTag t) = some t := by
  cases t with
  | _ =>
    simp only [tag?, ofTag, choice?_ofString, Option.bind_eq_bind, Option.bind_some]
    rfl

lemma session?_ofSession (s : Session) : session? levels (ofSession s) = some s := by
  cases s with
  | _ =>
    simp only [session?, ofSession, choice?_ofString, Option.bind_eq_bind, Option.bind_some]
    rfl

/-- An envelope is read back if its body is, within one level less. -/
lemma envelope?_ofEnvelope {read : Reader β} {write : β → Tree} {e : Envelope β}
    (hdepth : (ofEnvelope write e).depth ≤ levels)
    (h : ∀ inner, (write e.body).depth ≤ inner → read inner (write e.body) = some e.body) :
    envelope? read levels (ofEnvelope write e) = some e := by
  obtain ⟨inner, rfl, hmembers⟩ := Tree.depth_ofMembers_le hdepth
  simp only [List.forall_mem_cons] at hmembers
  obtain ⟨-, -, -, hbody, -⟩ := hmembers
  have hrecord :
      record? ["source", "tag", "session", "body"] (inner + 1) (ofEnvelope write e) = _ :=
    record?_zip [.ofString e.source, ofTag e.tag, ofSession e.session, write e.body]
      (by decide) rfl
  simp only [envelope?, hrecord, Option.bind_eq_bind, Option.bind_some, List.map_cons,
    List.map_nil, required?, string?_ofString, tag?_ofTag, session?_ofSession, h inner hbody]

lemma capacity?_ofCapacity {c : Capacity} (h : ∀ limit ∈ c.limit?, limit ≤ Counter.top) :
    capacity? (levels + 1) (ofCapacity c) = some c := by
  cases c with
  | unbounded =>
    simp only [capacity?, ofCapacity, choice?_ofString, Option.bind_eq_bind, Option.bind_some]
    rfl
  | bounded limit =>
    simp only [capacity?, ofCapacity, choice?_ofMembers, Option.bind_eq_bind, Option.bind_some,
      nat?_ofNat (h limit rfl)]

lemma policy?_ofPolicy (p : Policy) : policy? levels (ofPolicy p) = some p := by
  cases p with
  | _ =>
    simp only [policy?, ofPolicy, choice?_ofString, Option.bind_eq_bind, Option.bind_some]
    rfl

lemma storeConfig?_ofStoreConfig {c : StoreConfig}
    (h : ∀ limit ∈ c.capacity.limit?, limit ≤ Counter.top) :
    storeConfig? (levels + 2) (ofStoreConfig c) = some c := by
  have hrecord : record? ["keys", "capacity", "overwrite_policy"] (levels + 2) (ofStoreConfig c) =
      _ :=
    record?_zip [ofList .ofString c.keys, ofCapacity c.capacity,
      ofOption ofPolicy c.policy] (by decide) rfl
  have hkeys : list? string? (levels + 1) (ofList .ofString c.keys) = some c.keys :=
    list?_ofList fun key _ => string?_ofString key
  have hpolicy : missing? policy? (levels + 1) (some (ofOption ofPolicy c.policy)) =
      some c.policy :=
    missing?_ofOption (fun p _ => nofun) fun p _ => policy?_ofPolicy p
  simp only [storeConfig?, hrecord, Option.bind_eq_bind, Option.bind_some, List.map_cons,
    List.map_nil, required?, hkeys, capacity?_ofCapacity h, hpolicy]

lemma coordinatorConfig?_ofCoordinatorConfig {c : CoordinatorConfig}
    (h : c.numPeers ≤ Counter.top) :
    coordinatorConfig? (levels + 1) (ofCoordinatorConfig c) = some c := by
  have hrecord : record? ["group_name", "num_peers", "peer_role", "log_env_metrics"] (levels + 1)
      (ofCoordinatorConfig c) = _ :=
    record?_zip [.ofString c.groupName, .ofNat c.numPeers, .ofString c.peerRole,
      .bool c.logEnvMetrics] (by decide) rfl
  simp only [coordinatorConfig?, hrecord, Option.bind_eq_bind, Option.bind_some, List.map_cons,
    List.map_nil, required?, string?_ofString, nat?_ofNat h, bool?]

/-- Instructions, results, commands, envelopes and configurations without doubles are read back from
their text, if fewer than 128 containers stand inside one another in it. -/
theorem decode?_of_encoded :
    (∀ i : Instruction Datum, i.Plain → (ofInstruction Datum.tree i).depth < 128 →
      decode? (instruction? Datum.read?) (ofInstruction Datum.tree i).print = some i) ∧
    (∀ r : Result Datum, r.Plain → (ofResult Datum.tree r).depth < 128 →
      decode? (result? Datum.read?) (ofResult Datum.tree r).print = some r) ∧
    (∀ c : Command Datum, c.Plain → (ofCommand Datum.tree c).depth < 128 →
      decode? (command? Datum.read?) (ofCommand Datum.tree c).print = some c) ∧
    (∀ e : Envelope (Command Datum), e.body.Plain →
      (ofEnvelope (ofCommand Datum.tree) e).depth < 128 →
      decode? (envelope? (command? Datum.read?)) (ofEnvelope (ofCommand Datum.tree) e).print =
        some e) ∧
    (∀ e : Envelope (Result Datum), e.body.Plain →
      (ofEnvelope (ofResult Datum.tree) e).depth < 128 →
      decode? (envelope? (result? Datum.read?)) (ofEnvelope (ofResult Datum.tree) e).print =
        some e) ∧
    (∀ c : CoordinatorConfig, c.numPeers ≤ Counter.top →
      decode? coordinatorConfig? (ofCoordinatorConfig c).print = some c) ∧
    ∀ c : StoreConfig, (∀ limit ∈ c.capacity.limit?, limit ≤ Counter.top) →
      decode? storeConfig? (ofStoreConfig c).print = some c := by
  refine ⟨?_, ?_, ?_, ?_, ?_, ?_, ?_⟩
  · intro i hplain hdepth
    rw [decode?_print (legible_ofInstruction i)]
    exact instruction?_ofInstruction hplain (Nat.le_of_lt_succ hdepth)
  · intro r hplain hdepth
    rw [decode?_print (legible_ofResult r)]
    exact result?_ofResult hplain (Nat.le_of_lt_succ hdepth)
  · intro c hplain hdepth
    rw [decode?_print (legible_ofCommand c)]
    exact command?_ofCommand hplain (Nat.le_of_lt_succ hdepth)
  · intro e hplain hdepth
    rw [decode?_print (legible_ofEnvelope legible_ofCommand e)]
    apply envelope?_ofEnvelope (Nat.le_of_lt_succ hdepth)
    intro inner hbody
    exact command?_ofCommand hplain hbody
  · intro e hplain hdepth
    rw [decode?_print (legible_ofEnvelope legible_ofResult e)]
    apply envelope?_ofEnvelope (Nat.le_of_lt_succ hdepth)
    intro inner hbody
    exact result?_ofResult hplain hbody
  · intro c hcount
    rw [decode?_print (legible_ofCoordinatorConfig c)]
    exact coordinatorConfig?_ofCoordinatorConfig hcount
  · intro c hlimit
    rw [decode?_print (legible_ofStoreConfig c)]
    exact storeConfig?_ofStoreConfig hlimit

/-- An answer under a name that has to be escaped, with a batch nested in itself. -/
def escapedAnswer : Envelope (Result Datum) where
  source := "a\"\\\n\x01é😀"
  tag := .rolloutResult
  session := .task
  body :=
    { rolloutIndex := 0xffffffffffffffff
      segmentIndex := 0
      numExperiences := 2
      numSteps := 10
      envEnd := true
      experiences := .dict [("", .list [.null, .int (-0x8000000000000000), .bool true]),
        ("\t", .dict [("k", .text "/")])]
      envMetrics := some KeyMap.empty }

theorem decode?_of_escapedAnswer :
    escapedAnswer.body.Plain ∧ (ofEnvelope (ofResult Datum.tree) escapedAnswer).depth = 4 ∧
      decode? (envelope? (result? Datum.read?))
        (ofEnvelope (ofResult Datum.tree) escapedAnswer).print = some escapedAnswer := by
  have hplain : escapedAnswer.body.Plain := by
    refine ⟨by decide, by decide, by decide, by decide, rfl, ?_, ?_⟩
    · have hitems : Datum.PlainItems [.null, .int (-0x8000000000000000), .bool true] :=
        ⟨trivial, ⟨by decide, by decide⟩, trivial, trivial⟩
      have hinner : Datum.Plain (.dict [("k", .text "/")]) := ⟨by decide, trivial, trivial⟩
      exact ⟨by decide, hitems, hinner, trivial⟩
    · intro p hp
      exact (Option.some.inj hp).symm
  have hdepth : (ofEnvelope (ofResult Datum.tree) escapedAnswer).depth = 4 := by rfl
  obtain ⟨-, -, -, -, hresult, -, -⟩ := decode?_of_encoded
  exact ⟨hplain, hdepth, hresult escapedAnswer hplain (by rw [hdepth]; decide)⟩

end Wire

end ExperienceCollection
