import ExperienceCollection.Actor.Pool
import ExperienceCollection.Proofs.Network.Steps

/-!
# Steps of actors

What a step does to the actor that takes it: its peer never changes, and its task is set when it
begins to work and cleared when it completes. `Pool.take_takes` and `Pool.complete_completes` list
all that taking a command and completing a task can do in a pool.
-/

namespace ExperienceCollection

variable {μ ε : Type}

namespace Actor

@[simp] lemma report_peer (config : ActorConfig) (a : Actor μ ε) :
    (a.report config).peer = a.peer := by
  unfold report
  split <;> rfl

@[simp] lemma report_task (config : ActorConfig) (a : Actor μ ε) :
    (a.report config).task = a.task := by
  unfold report
  split <;> rfl

@[simp] lemma stop_peer (config : ActorConfig) (a : Actor μ ε) (reason : Log.Event) :
    (a.stop config reason).peer = a.peer := by
  rw [stop, report_peer]

@[simp] lemma stop_task (config : ActorConfig) (a : Actor μ ε) (reason : Log.Event) :
    (a.stop config reason).task = a.task := by
  rw [stop, report_task]

@[simp] lemma count_peer (a : Actor μ ε) (o : Outcome ε) : (a.count o).peer = a.peer := by
  unfold count
  dsimp only
  split <;> rfl

@[simp] lemma count_task (a : Actor μ ε) (o : Outcome ε) : (a.count o).task = a.task := by
  unfold count
  dsimp only
  split <;> rfl

@[simp] lemma sent_peer (config : ActorConfig) (a : Actor μ ε)
    (outcome : Except NetworkError Unit) : (a.sent config outcome).peer = a.peer := by
  unfold sent
  split
  · exact stop_peer _ _ _
  · split
    · exact report_peer _ _
    · rfl

@[simp] lemma sent_task (config : ActorConfig) (a : Actor μ ε)
    (outcome : Except NetworkError Unit) : (a.sent config outcome).task = a.task := by
  unfold sent
  split
  · exact stop_task _ _ _
  · split
    · exact report_task _ _
    · rfl

lemma count_eq (a : Actor μ ε) (o : Outcome ε) : ∃ stats, a.count o = { a with stats } := by
  unfold count
  dsimp only
  split
  · exact ⟨_, rfl⟩
  · exact ⟨_, rfl⟩

/-- An actor whose result was sent goes on, perhaps with one more report. -/
lemma sent_ok_eq (config : ActorConfig) (a : Actor μ ε) :
    ∃ reports, a.sent config (.ok ()) = { a with reports } := by
  unfold sent
  dsimp only
  split
  · unfold report
    split
    · exact ⟨_, rfl⟩
    · exact ⟨_, rfl⟩
  · exact ⟨_, rfl⟩

end Actor

namespace Pool

/-- What the actor at a position makes of its turn to take a command. -/
inductive Takes (p : Pool μ ε) (i : Nat) : Pool μ ε → Prop where
  | idle
      (waits : ∀ a, p.actors[i]? = some a → a.phase = .running → a.task = none →
        (p.network.takeCommand i).1 = .waiting) : Takes p i p
  | disconnected (a : Actor μ ε) (actor : p.actors[i]? = some a) (running : a.phase = .running)
      (free : a.task = none) (order : (p.network.takeCommand i).1 = .disconnected) :
      Takes p i (p.store i (a.stop p.config (.coordinatorGone a.peer)) (p.network.takeCommand i).2)
  | exit (a : Actor μ ε) (c : Envelope (Command μ)) (actor : p.actors[i]? = some a)
      (running : a.phase = .running) (free : a.task = none)
      (order : (p.network.takeCommand i).1 = .command c) (body : c.body = .exit) :
      Takes p i (p.store i (a.stop p.config (.exitReceived a.peer)) (p.network.takeCommand i).2)
  | begins (a : Actor μ ε) (c : Envelope (Command μ)) (instruction : Instruction μ)
      (actor : p.actors[i]? = some a) (running : a.phase = .running) (free : a.task = none)
      (order : (p.network.takeCommand i).1 = .command c) (body : c.body = .rollout instruction) :
      Takes p i (p.store i (a.begin instruction) (p.network.takeCommand i).2)

theorem take_takes (p : Pool μ ε) (i : Nat) : Takes p i (p.take i) := by
  unfold take
  cases hactor : p.actors[i]? with
  | none =>
    refine .idle fun a ha => ?_
    rw [hactor] at ha
    cases ha
  | some a =>
    dsimp only
    split
    · rename_i hbusy
      refine .idle fun b hb hrunning hfree => ?_
      rw [hactor] at hb
      obtain rfl := Option.some.inj hb
      simp [hrunning, hfree] at hbusy
    · rename_i hready
      simp only [not_or, not_not, Bool.not_eq_true, Option.isSome_eq_false_iff,
        Option.isNone_iff_eq_none] at hready
      obtain ⟨hrunning, hfree⟩ := hready
      rcases horder : p.network.takeCommand i with ⟨order, network⟩
      have hfst : (p.network.takeCommand i).1 = order := by rw [horder]
      have hsnd : network = (p.network.takeCommand i).2 := by rw [horder]
      subst hsnd
      cases order with
      | waiting => exact .idle fun _ _ _ _ => hfst
      | disconnected => exact .disconnected a hactor hrunning hfree hfst
      | command c =>
        dsimp only
        split
        · rename_i hbody
          exact .exit a c hactor hrunning hfree hfst hbody
        · rename_i instruction hbody
          exact .begins a c instruction hactor hrunning hfree hfst hbody

/-- What the actor at a position makes of its turn to complete its task. -/
inductive Completes (p : Pool μ ε) (i : Nat) : Pool μ ε → Prop where
  | idle (waits : p.task? i = none) : Completes p i p
  | crashes (a : Actor μ ε) (instruction : Instruction μ) (actor : p.actors[i]? = some a)
      (task : a.task = some instruction) (behaviour : a.behaviour a.calls = none) :
      Completes p i (p.store i { a with task := none, phase := .crashed } p.network)
  | sends (a : Actor μ ε) (instruction : Instruction μ) (o : Outcome ε)
      (actor : p.actors[i]? = some a) (task : a.task = some instruction)
      (behaviour : a.behaviour a.calls = some o) :
      Completes p i
        (p.store i
          (({ a with task := none }.count o).sent p.config
            (p.network.send i (o.result instruction)).1)
          (p.network.send i (o.result instruction)).2)

theorem complete_completes (p : Pool μ ε) (i : Nat) : Completes p i (p.complete i) := by
  unfold complete
  split
  · rename_i a instruction hactor htask
    rw [task?, hactor, Option.bind_some] at htask
    cases hbehaviour : a.behaviour a.calls with
    | none =>
      rw [Actor.complete, hbehaviour]
      exact .crashes a instruction hactor htask hbehaviour
    | some o =>
      rw [Actor.complete, hbehaviour]
      exact .sends a instruction o hactor htask hbehaviour
  · rename_i hnone
    refine .idle ?_
    cases hactor : p.actors[i]? with
    | none => rw [task?, hactor, Option.bind_none]
    | some a =>
      cases htask : p.task? i with
      | none => rfl
      | some instruction => exact (hnone a instruction hactor htask).elim

end Pool

end ExperienceCollection
