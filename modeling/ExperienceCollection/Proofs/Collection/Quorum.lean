import ExperienceCollection.Proofs.Collection.Campaign

/-!
# What a round takes from the inbox

While a round is open, pulls at it mix in any order with what the peers do: they take commands,
send results and leave. A pull that has to wait is tried again later. However the steps are mixed,
a round that is driven to its end has consumed the shortest prefix of all arrived results that
holds as many wanted results as it requires, and has handed out the accepted ones among them in
order. If there is no such prefix it has consumed everything.
-/

namespace ExperienceCollection

variable {μ ε : Type}

/-- Whether a result answers a request. -/
def Request.wants (q : Request μ) (e : Envelope (Result ε)) : Bool :=
  e.body.rolloutIndex = q.rolloutIndex ∧ e.body.segmentIndex = q.segmentIndex

/-- Whether a result is to be handed out for a request. -/
def Request.accepts (q : Request μ) (e : Envelope (Result ε)) : Bool :=
  e.body.rolloutIndex = q.rolloutIndex ∧
    (e.body.segmentIndex = q.segmentIndex ∨ q.discardStale = false)

/-- What the peer at a position of a channel network may do. -/
inductive PeerMove (ε : Type) where
  | send (i : Nat) (result : Result ε)
  | take (i : Nat)
  | leave (i : Nat)

namespace PeerMove

def act : PeerMove ε → ChannelNetwork μ ε → ChannelNetwork μ ε
  | send i result, n => (n.send i result).2
  | take i, n => (n.takeCommand i).2
  | leave i, n => n.dropEndpoint i

/-- The results that a move lets arrive. -/
def arriving : PeerMove ε → ChannelNetwork μ ε → List (Envelope (Result ε))
  | send i result, n => n.arriving i result
  | _, _ => []

lemma act_inbox (move : PeerMove ε) (n : ChannelNetwork μ ε) :
    (move.act n).inbox = n.inbox ++ move.arriving n := by
  cases move with
  | send i result => exact n.send_inbox i result
  | take i => exact (n.takeCommand_inbox i).trans (List.append_nil _).symm
  | leave i => exact (List.append_nil _).symm

lemma act_isClosed (move : PeerMove ε) {n : ChannelNetwork μ ε} (h : n.isClosed = true) :
    (move.act n).isClosed = true := by
  cases move with
  | send i result => exact (n.send_isClosed i result).trans h
  | take i => exact (n.takeCommand_isClosed i).trans h
  | leave i => exact ChannelNetwork.dropEndpoint_isClosed h i

/-- Nothing arrives once all peers are gone. -/
lemma arriving_of_isClosed (move : PeerMove ε) {n : ChannelNetwork μ ε} (h : n.isClosed = true) :
    move.arriving n = [] := by
  cases move with
  | send i result => exact ChannelNetwork.arriving_of_isClosed h i result
  | _ => rfl

end PeerMove

/-- A round opened as `r₀` on an inbox, with results that arrived since, has consumed `consumed` so
far and is now `r`. -/
structure Follows (r₀ : Round) (inbox arrived consumed : List (Envelope (Result ε)))
    (n : ChannelNetwork μ ε) (r : Round) (items : List (Except NetworkError (AcceptedBatch ε))) :
    Prop where
  queue : inbox ++ arrived = consumed ++ n.inbox
  round : r = { r₀ with finished := consumed.countP r₀.wants, closed := r.closed }
  minimal : ∀ pre, pre <+: consumed → pre ≠ consumed → pre.countP r₀.wants < r₀.required
  items : items = (consumed.filter r₀.accepts).map (fun e => .ok e.batch) ++
    if r.closed then [.error .disconnected] else []
  closed : r.closed = true → n.isClosed = true ∧ n.inbox = [] ∧
    consumed.countP r₀.wants < r₀.required

namespace Follows

variable {r₀ r : Round} {inbox arrived consumed : List (Envelope (Result ε))}
  {n : ChannelNetwork μ ε} {items : List (Except NetworkError (AcceptedBatch ε))}

lemma wants_eq (h : Follows r₀ inbox arrived consumed n r items) :
    (r.wants : Envelope (Result ε) → Bool) = r₀.wants := by
  rw [h.round]
  rfl

lemma accepts_eq (h : Follows r₀ inbox arrived consumed n r items) :
    (r.accepts : Envelope (Result ε) → Bool) = r₀.accepts := by
  rw [h.round]
  rfl

lemma of_isOpen (h : Follows r₀ inbox arrived consumed n r items) (hopen : r.isDone = false) :
    r.closed = false ∧ consumed.countP r₀.wants < r₀.required := by
  rw [h.round] at hopen
  simpa [Round.isDone] using hopen

/-- What peers do adds arrivals to the end of the inbox, and nothing once all peers are gone. -/
lemma act (h : Follows r₀ inbox arrived consumed n r items) (move : PeerMove ε) :
    Follows r₀ inbox (arrived ++ move.arriving n) consumed (move.act n) r items where
  queue := by rw [move.act_inbox, ← List.append_assoc, h.queue, List.append_assoc]
  round := h.round
  minimal := h.minimal
  items := h.items
  closed := by
    intro hc
    obtain ⟨hnet, hempty, hlt⟩ := h.closed hc
    refine ⟨move.act_isClosed hnet, ?_, hlt⟩
    rw [move.act_inbox, hempty, move.arriving_of_isClosed hnet]
    rfl

lemma countP_of_drops {r : Round} {dropped : List (Envelope (Result ε))}
    (h : ∀ d ∈ dropped, r.accepts d = false) : dropped.countP r.wants = 0 := by
  refine List.countP_eq_zero.mpr fun d hd hw => ?_
  have haccepts := h d hd
  rw [Round.accepts_of_wants hw] at haccepts
  exact Bool.noConfusion haccepts

lemma filter_of_drops {r : Round} {dropped : List (Envelope (Result ε))}
    (h : ∀ d ∈ dropped, r.accepts d = false) : dropped.filter r.accepts = [] :=
  List.filter_eq_nil_iff.mpr fun d hd => by simp [h d hd]

/-- Consuming dropped results at the end of the queue does not end a round that is open. -/
lemma of_drops (h : Follows r₀ inbox arrived consumed n r items) (hopen : r.isDone = false)
    (hdrops : ∀ d ∈ n.inbox, r₀.accepts d = false) {failed : Bool}
    (hfailed : failed = true → n.isClosed = true) :
    Follows r₀ inbox arrived (consumed ++ n.inbox) { n with inbox := [] }
      { r with closed := failed } (items ++ if failed then [.error .disconnected] else []) := by
  obtain ⟨hclosed, hlt⟩ := h.of_isOpen hopen
  have hcount : (consumed ++ n.inbox).countP r₀.wants = consumed.countP r₀.wants := by
    rw [List.countP_append, countP_of_drops hdrops, Nat.add_zero]
  refine ⟨?_, ?_, ?_, ?_, ?_⟩
  · rw [List.append_nil]
    exact h.queue
  · rw [hcount, h.round]
  · intro pre hpre _
    have hle := hpre.sublist.countP_le (p := r₀.wants)
    omega
  · rw [h.items, hclosed, List.filter_append, filter_of_drops hdrops]
    simp
  · intro hf
    exact ⟨hfailed hf, rfl, by rw [hcount]; exact hlt⟩

/-- Consuming dropped results and then an accepted one keeps the prefix minimal. -/
lemma of_batch (h : Follows r₀ inbox arrived consumed n r items) (hopen : r.isDone = false)
    {dropped rest : List (Envelope (Result ε))} {e : Envelope (Result ε)}
    (hdrops : ∀ d ∈ dropped, r₀.accepts d = false) (he : r₀.accepts e = true)
    (hinbox : n.inbox = dropped ++ e :: rest) :
    Follows r₀ inbox arrived (consumed ++ dropped ++ [e]) { n with inbox := rest } (r.count e)
      (items ++ [.ok e.batch]) := by
  obtain ⟨hclosed, hlt⟩ := h.of_isOpen hopen
  have hcount : (consumed ++ dropped).countP r₀.wants = consumed.countP r₀.wants := by
    rw [List.countP_append, countP_of_drops hdrops, Nat.add_zero]
  have hround : r.count e =
      { r₀ with
        finished := (consumed ++ dropped ++ [e]).countP r₀.wants
        closed := r.closed } := by
    rw [Round.count, h.wants_eq, List.countP_append, hcount, List.countP_singleton]
    rw [h.round]
  refine ⟨?_, hround, ?_, ?_, ?_⟩
  · rw [h.queue, hinbox]
    simp
  · intro pre hpre hne
    rcases List.prefix_concat_iff.mp hpre with heq | hpre
    · exact (hne heq).elim
    · have hle := hpre.sublist.countP_le (p := r₀.wants)
      omega
  · rw [h.items, hround, hclosed]
    simp [List.filter_append, filter_of_drops hdrops, he]
  · intro hc
    rw [hround, hclosed] at hc
    exact Bool.noConfusion hc

/-- A pull consumes more of the inbox, or nothing. -/
lemma next (h : Follows r₀ inbox arrived consumed n r items) (c : Coordinator) :
    let t := c.next r n
    ∃ consumed', Follows r₀ inbox arrived consumed' t.network t.round
      (items ++ t.outcome.items) := by
  intro t
  rcases c.next_cases r n with ⟨-, ho, -, hr, hn⟩ | ⟨hopen, hdrops, ho, -, hr, hn⟩ |
    ⟨hopen, dropped, e, rest, hdrops, he, hinbox, ho, hr, hn⟩
  · refine ⟨consumed, ?_⟩
    rw [ho, hr, hn, Pulled.items, List.append_nil]
    exact h
  · rw [h.accepts_eq] at hdrops
    refine ⟨consumed ++ n.inbox, ?_⟩
    rw [ho, hr, hn]
    have hitems : Pulled.items
        (if n.isClosed = true then (.failed .disconnected : Pulled ε) else .waiting) =
        if n.isClosed then [.error .disconnected] else [] := by
      split <;> rfl
    rw [hitems]
    exact h.of_drops hopen hdrops id
  · rw [h.accepts_eq] at hdrops he
    refine ⟨consumed ++ dropped ++ [e], ?_⟩
    rw [ho, hr, hn]
    exact h.of_batch hopen hdrops he hinbox

/-- With a pull for every arrival and two more, draining stops only at the end of the round or, in
front of an empty inbox that may still be filled, at a wait. -/
lemma drain {k : Nat} (h : Follows r₀ inbox arrived consumed n r items) (c : Coordinator)
    (hk : n.inbox.length + (if r.isDone then 1 else 2) ≤ k) :
    let d := Coordinator.drain k c r n
    ∃ consumed', Follows r₀ inbox arrived consumed' d.network d.round (items ++ d.items) ∧
      (d.waiting = false ∧ d.round.isDone = true ∨
        d.waiting = true ∧ d.round.isDone = false ∧ d.network.inbox = [] ∧
          d.network.isClosed = false) := by
  induction k generalizing n r items consumed c with
  | zero =>
    split at hk <;> omega
  | succ k ih =>
    obtain ⟨consumed', hnext⟩ := h.next c
    rw [Coordinator.drain]
    rcases c.next_cases r n with ⟨hdone, ho, hc, hr, hn⟩ | ⟨hopen, -, ho, hc, hr, hn⟩ |
      ⟨hopen, dropped, e, rest, -, -, hinbox, ho, hr, hn⟩
    · rw [ho] at hnext ⊢
      exact ⟨consumed', hnext, .inl ⟨rfl, by rw [hr]; exact hdone⟩⟩
    · rw [hopen, if_neg (by simp)] at hk
      cases hclosed : n.isClosed with
      | true =>
        rw [hclosed, if_pos rfl] at ho
        rw [hclosed] at hr
        -- The failure closes the round, so one more pull is enough.
        have hfuel : (c.next r n).network.inbox.length +
            (if (c.next r n).round.isDone then 1 else 2) ≤ k := by
          rw [hr, hn, if_pos (by simp [Round.isDone]), List.length_nil]
          omega
        obtain ⟨consumed'', hdrain, hstop⟩ := ih hnext (c.next r n).coordinator hfuel
        rw [ho] at hdrain ⊢
        rw [List.append_assoc] at hdrain
        exact ⟨consumed'', hdrain, hstop⟩
      | false =>
        rw [hclosed, if_neg (by simp)] at ho
        have hround : (c.next r n).round = r := by
          rw [hr, hclosed, ← (h.of_isOpen hopen).1]
        rw [ho] at hnext ⊢
        refine ⟨consumed', hnext, .inr ⟨rfl, ?_, by rw [hn], by rw [hn]; exact hclosed⟩⟩
        rw [hround]
        exact hopen
    · rw [hopen, if_neg (by simp), hinbox, List.length_append, List.length_cons] at hk
      -- At least one arrival is gone, even if the batch was the last one required.
      have hfuel : (c.next r n).network.inbox.length +
          (if (c.next r n).round.isDone then 1 else 2) ≤ k := by
        rw [hn]
        dsimp only
        split <;> omega
      obtain ⟨consumed'', hdrain, hstop⟩ := ih hnext (c.next r n).coordinator hfuel
      rw [ho] at hdrain ⊢
      rw [List.append_assoc] at hdrain
      exact ⟨consumed'', hdrain, hstop⟩

lemma countP_le (h : Follows r₀ inbox arrived consumed n r items) :
    consumed.countP r₀.wants ≤ r₀.required := by
  rcases List.eq_nil_or_concat' consumed with rfl | ⟨front, e, rfl⟩
  · simp
  · have hlt := h.minimal front (List.prefix_append front [e]) (by simp)
    rw [List.countP_append, List.countP_singleton]
    split <;> omega

/-- A round that has stopped has consumed as many wanted results as it requires, or everything. -/
lemma verdict (h : Follows r₀ inbox arrived consumed n r items) {waits : Bool}
    (hstop : waits = false ∧ r.isDone = true ∨
      waits = true ∧ r.isDone = false ∧ n.inbox = [] ∧ n.isClosed = false) :
    consumed.countP r₀.wants = r₀.required ∧ waits = false ∧
        items = (consumed.filter r₀.accepts).map (fun e => .ok e.batch) ∨
      (inbox ++ arrived).countP r₀.wants < r₀.required ∧ consumed = inbox ++ arrived ∧
        waits = !n.isClosed ∧
        items = (consumed.filter r₀.accepts).map (fun e => .ok e.batch) ++
          if n.isClosed then [.error .disconnected] else [] := by
  have hall (hempty : n.inbox = []) : inbox ++ arrived = consumed := by
    rw [h.queue, hempty, List.append_nil]
  rcases hstop with ⟨hwait, hdone⟩ | ⟨hwait, hopen, hempty, halive⟩
  · cases hc : r.closed with
    | true =>
      obtain ⟨hgone, hempty, hlt⟩ := h.closed hc
      refine .inr ⟨by rwa [hall hempty], (hall hempty).symm, ?_, ?_⟩
      · rw [hwait, hgone]
        rfl
      · rw [h.items, hc, hgone]
    | false =>
      rw [h.round, Round.isDone, hc] at hdone
      have hge : r₀.required ≤ consumed.countP r₀.wants := by simpa using hdone
      refine .inl ⟨Nat.le_antisymm h.countP_le hge, hwait, ?_⟩
      rw [h.items, hc]
      simp
  · obtain ⟨hc, hlt⟩ := h.of_isOpen hopen
    refine .inr ⟨by rwa [hall hempty], (hall hempty).symm, ?_, ?_⟩
    · rw [hwait, halive]
      rfl
    · rw [h.items, hc, halive]

end Follows

namespace Campaign

/-- The results that arrive during a run. -/
def arrived (s : Campaign (ChannelNetwork μ ε) μ ε) :
    List (Step (PeerMove ε) μ) → List (Envelope (Result ε))
  | [] => []
  | .environment move :: steps =>
    move.arriving s.network ++ arrived (s.step PeerMove.act (.environment move)) steps
  | x :: steps => arrived (s.step PeerMove.act x) steps

variable {q : Request μ} {r₀ r : Round} {inbox earlier consumed : List (Envelope (Result ε))}

/-- While a round goes on, what it consumes is a prefix of all that has arrived. -/
lemma follows_run {s : Campaign (ChannelNetwork μ ε) μ ε} (hcurrent : s.current = some (q, r))
    (h : Follows r₀ inbox earlier consumed s.network r s.items)
    {steps : List (Step (PeerMove ε) μ)} (hsteps : ∀ x ∈ steps, x.goesOn = true) :
    let s' := s.run PeerMove.act steps
    ∃ r' consumed', s'.current = some (q, r') ∧
      Follows r₀ inbox (earlier ++ s.arrived steps) consumed' s'.network r' s'.items := by
  induction steps generalizing s r earlier consumed with
  | nil =>
    refine ⟨r, consumed, hcurrent, ?_⟩
    rw [arrived, List.append_nil]
    exact h
  | cons x steps ih =>
    obtain ⟨hx, hrest⟩ := List.forall_mem_cons.mp hsteps
    cases x with
    | next =>
      obtain ⟨consumed', hnext⟩ := h.next s.coordinator
      rw [← next_items hcurrent, ← next_network hcurrent] at hnext
      exact ih (next_current hcurrent) hnext hrest
    | environment move =>
      have hmoved := ih (s := s.step PeerMove.act (.environment move)) hcurrent (h.act move) hrest
      rw [List.append_assoc] at hmoved
      exact hmoved
    | collect q => exact absurd hx Bool.false_ne_true
    | exit => exact absurd hx Bool.false_ne_true

/-- A round that was just opened has consumed nothing. -/
lemma follows_opened (c : Coordinator) (n : ChannelNetwork μ ε) (q : Request μ) :
    Follows (c.opened q) n.inbox [] [] (c.collect n q).network (c.opened q)
      ((start c n : Campaign _ μ ε).collect q).items where
  queue := by rw [Coordinator.collect_network, ChannelNetwork.broadcast_inbox]; simp
  round := rfl
  minimal := fun pre hpre hne => (hne (List.prefix_nil.mp hpre)).elim
  items := rfl
  closed := fun hc => Bool.noConfusion hc

end Campaign

/-- The batches handed out for a request when the given results are consumed. -/
def Request.handedOut (q : Request μ) (consumed : List (Envelope (Result ε))) :
    List (Except NetworkError (AcceptedBatch ε)) :=
  (consumed.filter q.accepts).map fun e => .ok e.batch

/-- A round that is driven to its end, after any mixture of pulls and moves of the peers, has
consumed the shortest prefix of all arrived results with the required number of wanted results, or
everything if there is no such prefix. It hands out the accepted results of what it has consumed,
and reports a lost connection only in the second case, once all peers are gone. -/
theorem collect_consumes_shortest_prefix {c : Coordinator} {n : ChannelNetwork μ ε}
    {q : Request μ} {r₀ : Round} (h : (c.collect n q).outcome = .ok r₀)
    {steps : List (Campaign.Step (PeerMove ε) μ)} (hsteps : ∀ x ∈ steps, x.goesOn = true) :
    let s₀ : Campaign (ChannelNetwork μ ε) μ ε := (Campaign.start c n).collect q
    let s := s₀.run PeerMove.act steps
    ∃ r, s.current = some (q, r) ∧
      let d := s.coordinator.drainAll r s.network
      let required := q.requiredFinishes.getD c.numPeers
      ∃ consumed : List (Envelope (Result ε)),
        n.inbox ++ s₀.arrived steps = consumed ++ d.network.inbox ∧
        d.round.finished = consumed.countP q.wants ∧
        (∀ pre, pre <+: consumed → pre ≠ consumed → pre.countP q.wants < required) ∧
        (consumed.countP q.wants = required ∧ d.waiting = false ∧
            s.items ++ d.items = q.handedOut consumed ∨
          (n.inbox ++ s₀.arrived steps).countP q.wants < required ∧
            consumed = n.inbox ++ s₀.arrived steps ∧ d.waiting = !d.network.isClosed ∧
            s.items ++ d.items = q.handedOut consumed ++
              if d.network.isClosed then [.error .disconnected] else []) := by
  intro s₀ s
  have hcurrent : s₀.current = some (q, c.opened q) := Campaign.collect_of_ok h
  obtain ⟨r, before, hcurrent', hrun⟩ :=
    Campaign.follows_run hcurrent (Campaign.follows_opened c n q) hsteps
  refine ⟨r, hcurrent', ?_⟩
  intro d required
  have hfuel : s.network.inbox.length + (if r.isDone then 1 else 2) ≤
      (Network.arrivals s.network).length + 2 := by
    have hlength : (Network.arrivals s.network).length = s.network.inbox.length := List.length_map _
    rw [hlength]
    split <;> omega
  obtain ⟨consumed, hend, hstop⟩ := hrun.drain s.coordinator hfuel
  refine ⟨consumed, hend.queue, ?_, hend.minimal, hend.verdict hstop⟩
  have hround : d.round.finished = _ := congrArg Round.finished hend.round
  exact hround

/-- Two peers, with a result of another rollout waiting in the inbox. -/
def pairNetwork : ChannelNetwork Unit Nat :=
  { (ChannelNetwork.build "learner" [("actor", 2)] : ChannelNetwork Unit Nat) with
    inbox := [Result.envelope "actor.1" ⟨6, 0, 3, 3, false, none, 10, none⟩] }

def pairCoordinator : Coordinator where
  config := { groupName := "group", numPeers := 2 }
  peers := ["actor.0", "actor.1"]

def staleRequest : Request Unit where
  rolloutIndex := 7
  segmentIndex := 1
  numSteps := 4
  requiredFinishes := some 1
  discardStale := false

/-- A stale result splits a pull, and two wanted ones come from a peer that leaves and from one that
stays. -/
def staleSteps : List (Campaign.Step (PeerMove Nat) Unit) :=
  [.next, .environment (.send 0 ⟨7, 0, 2, 2, false, none, 11, none⟩), .next, .next,
    .environment (.send 1 ⟨7, 1, 1, 1, false, none, 12, none⟩), .environment (.leave 1),
    .environment (.send 0 ⟨7, 1, 1, 1, false, none, 13, none⟩), .next]

def staleOpening : Campaign (ChannelNetwork Unit Nat) Unit Nat :=
  (Campaign.start pairCoordinator pairNetwork).collect staleRequest

def staleCampaign : Campaign (ChannelNetwork Unit Nat) Unit Nat :=
  staleOpening.run PeerMove.act staleSteps

theorem collect_consumes_stale_and_wanted :
    (pairCoordinator.collect pairNetwork staleRequest).outcome = .ok ⟨7, 1, 1, false, 0, false⟩ ∧
      (∀ x ∈ staleSteps, x.goesOn = true) ∧
      staleCampaign.current = some (staleRequest, ⟨7, 1, 1, false, 1, false⟩) ∧
      let d := staleCampaign.coordinator.drainAll ⟨7, 1, 1, false, 1, false⟩ staleCampaign.network
      ∃ consumed : List (Envelope (Result Nat)),
        pairNetwork.inbox ++ staleOpening.arrived staleSteps = consumed ++ d.network.inbox ∧
          consumed.length = 3 ∧ consumed.countP staleRequest.wants = 1 ∧
          staleCampaign.items ++ d.items = staleRequest.handedOut consumed := by
  have h : (pairCoordinator.collect pairNetwork staleRequest).outcome =
      .ok ⟨7, 1, 1, false, 0, false⟩ := rfl
  have hsteps : ∀ x ∈ staleSteps, x.goesOn = true := by simp [staleSteps, Campaign.Step.goesOn]
  have hround : staleCampaign.current = some (staleRequest, ⟨7, 1, 1, false, 1, false⟩) := rfl
  refine ⟨h, hsteps, hround, ?_⟩
  intro d
  obtain ⟨r, hcurrent, consumed, hqueue, -, -, hend⟩ := collect_consumes_shortest_prefix h hsteps
  obtain ⟨-, rfl⟩ := Prod.mk.inj (Option.some.inj (hcurrent.symm.trans hround))
  change pairNetwork.inbox ++ staleOpening.arrived staleSteps =
    consumed ++ d.network.inbox at hqueue
  have hlength := congrArg List.length hqueue
  rw [List.length_append, List.length_append] at hlength
  have harrived : pairNetwork.inbox.length + (staleOpening.arrived staleSteps).length = 4 := rfl
  have hleft : d.network.inbox.length = 1 := rfl
  rcases hend with ⟨hcount, -, hitems⟩ | ⟨hfew, -⟩
  · exact ⟨consumed, hqueue, by omega, hcount, hitems⟩
  · exact absurd hfew (by decide)

end ExperienceCollection
