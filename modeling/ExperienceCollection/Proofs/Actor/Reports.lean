import ExperienceCollection.Proofs.Actor.Attempts
import ExperienceCollection.Proofs.Actor.Exchange
import ExperienceCollection.Proofs.Actor.Farewell

/-!
# Reports

In a session reports are read at any time, those of one actor or of all. Under the name of each
actor, what is read and what is left to be read are the reports that it tried to file, but for those
that found its file full, in order and once each. To collect the reports of all while the actors go
on is to read them one by one, mixed with their steps.
-/

namespace ExperienceCollection

variable {μ ε : Type}

/-- Of the items of a list of owners, those under the name of one owner are its own. -/
lemma filter_flatMap_of_nodup {α β κ : Type} [DecidableEq κ] {owner : α → κ} {name : β → κ}
    {items : α → List β} {l : List α} (hname : ∀ a ∈ l, ∀ b ∈ items a, name b = owner a)
    (hnodup : (l.map owner).Nodup) {a : α} (ha : a ∈ l) :
    (l.flatMap items).filter (fun b => name b = owner a) = items a := by
  induction l with
  | nil => cases ha
  | cons c l ih =>
    have hrest := ih (fun a ha => hname a (List.mem_cons_of_mem c ha)) hnodup.of_cons
    have hfresh : owner c ∉ l.map owner := (List.nodup_cons.mp hnodup).1
    rw [List.flatMap_cons, List.filter_append]
    rcases List.mem_cons.mp ha with rfl | hmem
    · have hothers : (l.flatMap items).filter (fun b => name b = owner a) = [] := by
        rw [List.filter_eq_nil_iff]
        intro b hb hsame
        obtain ⟨c, hc, hbc⟩ := List.mem_flatMap.mp hb
        apply hfresh
        rw [← of_decide_eq_true hsame, hname c (List.mem_cons_of_mem a hc) b hbc]
        exact List.mem_map_of_mem hc
      rw [hothers, List.append_nil, List.filter_eq_self]
      intro b hb
      exact decide_eq_true (hname a List.mem_cons_self b hb)
    · have hnone : (items c).filter (fun b => name b = owner a) = [] := by
        rw [List.filter_eq_nil_iff]
        intro b hb hsame
        apply hfresh
        rw [← hname c List.mem_cons_self b hb, of_decide_eq_true hsame]
        exact List.mem_map_of_mem hmem
      rw [hnone, List.nil_append]
      exact hrest hmem

namespace Pool

variable {p : Pool μ ε} {i : Nat} {a : Actor μ ε} {e : Endpoint μ}
  {behaviour : PeerId → Behaviour μ ε}

/-- What the steps of a session yield, one after another. -/
def yields {β : Type} (f : Pool μ ε → Step μ → List β) (p : Pool μ ε) : List (Step μ) → List β
  | [] => []
  | x :: steps => f p x ++ yields f (p.step x) steps

lemma yields_concat {β : Type} (f : Pool μ ε → Step μ → List β) (p : Pool μ ε)
    (steps : List (Step μ)) (x : Step μ) :
    p.yields f (steps ++ [x]) = p.yields f steps ++ f (p.run steps) x := by
  induction steps generalizing p with
  | nil => exact List.append_nil _
  | cons y steps ih =>
    rw [List.cons_append, yields, ih, yields, List.append_assoc]
    rfl

/-- What the actor at a position tries to file in a step. -/
def attempts (i : Nat) (p : Pool μ ε) (x : Step μ) : List Attempt :=
  match p.actors[i]?, (p.step x).actors[i]? with
  | some a, some b => a.attempts p.config b
  | _, _ => []

/-- The reports that a step reads, of one actor or of all. -/
def reading (p : Pool μ ε) : Step μ → List Stats
  | .read i => (p.actors[i]?.bind fun a => a.readReport.1).toList
  | .collect => p.collectStats.1
  | _ => []

lemma step_peers (p : Pool μ ε) (x : Step μ) : (p.step x).peers = p.peers := by
  cases x with
  | take i => exact (p.take_takes i).peers_eq
  | complete i => exact (p.complete_completes i).peers_eq
  | read i =>
    apply map_modify_of_eq
    intro a
    rw [Actor.readReport_eq]
  | collect =>
    rw [step, collectStats, peers, List.map_map, List.map_map]
    rfl
  | _ => rfl

lemma run_peers (p : Pool μ ε) (steps : List (Step μ)) : (p.run steps).peers = p.peers := by
  induction steps generalizing p with
  | nil => rfl
  | cons x steps ih => exact (ih _).trans (p.step_peers x)

lemma readReport_toList (a : Actor μ ε) :
    a.readReport.1.toList ++ a.reports.drop 1 = a.reports := by
  unfold Actor.readReport
  cases a.reports with
  | nil => rfl
  | cons r reports => rfl

section

variable (hpeers : p.peers.Nodup) (hsigned : ∀ a ∈ p.actors, a.Signed)
  (ha : p.actors[i]? = some a)

include hsigned ha

lemma reading_self :
    (p.reading (.read i)).filter (fun r => r.peer = a.peer) = a.readReport.1.toList := by
  rw [reading, ha, Option.bind_some, List.filter_eq_self]
  intro r hr
  apply decide_eq_true (hsigned a (List.mem_of_getElem? ha) r _)
  rw [← readReport_toList a]
  exact List.mem_append_left _ hr

include hpeers

/-- Names are distinct, so a report of another actor bears another name. -/
lemma reading_other {j : Nat} (hij : j ≠ i) :
    (p.reading (.read j)).filter (fun r => r.peer = a.peer) = [] := by
  rw [List.filter_eq_nil_iff]
  intro r hr hname
  obtain ⟨c, hc, hrc⟩ := Option.bind_eq_some_iff.mp (Option.mem_toList.mp hr)
  have hreport : r ∈ c.reports := by
    rw [← readReport_toList c, hrc]
    exact List.mem_cons_self
  have hsame : p.peers[j]? = p.peers[i]? := by
    rw [peers, List.getElem?_map, List.getElem?_map, hc, ha, Option.map_some, Option.map_some,
      ← of_decide_eq_true hname, hsigned c (List.mem_of_getElem? hc) r hreport]
  have hj : j < p.peers.length := by
    rw [peers, List.length_map]
    exact (List.getElem?_eq_some_iff.mp hc).1
  exact hij ((List.getElem?_inj hj hpeers).mp hsame)

lemma reading_collect :
    (p.reading .collect).filter (fun r => r.peer = a.peer) = a.reports := by
  have hall : p.reading .collect = p.actors.flatMap Actor.reports := by
    rw [reading, collectStats, List.flatMap_map]
    rfl
  rw [hall, filter_flatMap_of_nodup hsigned hpeers (List.mem_of_getElem? ha)]

/-- What a step reads under the name of an actor leaves its file. What the actor tries to file in
the step enters it, if there is room. -/
theorem step_reports (hp : p.InOrder behaviour) (x : Step μ) :
    ∃ b, (p.step x).actors[i]? = some b ∧ Actor.Turn p.config a (x.reads i) b ∧
      (p.reading x).filter (fun r => r.peer = a.peer) ++ b.reports =
        a.reports ++ p.config.kept (a.attempts p.config b) := by
  obtain ⟨b, hb, hturn⟩ := step_turn ha x
  refine ⟨b, hb, hturn, ?_⟩
  have hquiet (hreads : x.reads i = false)
      (hnone : (p.reading x).filter (fun r => r.peer = a.peer) = []) :
      (p.reading x).filter (fun r => r.peer = a.peer) ++ b.reports =
        a.reports ++ p.config.kept (a.attempts p.config b) := by
    obtain ⟨k, hk, hreports⟩ := hturn.reports_eq (hp.recorded a (List.mem_of_getElem? ha)).1
    rw [hnone, List.nil_append, hreports, hk hreads, List.drop_zero]
  cases x with
  | read j =>
    by_cases hij : j = i
    · subst hij
      rw [step, List.getElem?_modify, ha, Option.map_eq_map, Option.map_some, if_pos rfl,
        Actor.readReport_eq] at hb
      obtain rfl := Option.some.inj hb
      rw [reading_self hsigned ha, readReport_toList, Actor.attempts_read]
      exact (List.append_nil _).symm
    · exact hquiet (decide_eq_false hij) (reading_other hpeers hsigned ha hij)
  | collect =>
    have hcollected : (p.step .collect).actors[i]? = some { a with reports := [] } := by
      simp [step, collectStats, ha, Actor.readReports]
    obtain rfl := Option.some.inj (hcollected.symm.trans hb)
    rw [reading_collect hpeers hsigned ha, Actor.attempts_read]
    rfl
  | broadcast role command => exact hquiet rfl rfl
  | receive => exact hquiet rfl rfl
  | detach => exact hquiet rfl rfl
  | take j => exact hquiet rfl rfl
  | complete j => exact hquiet rfl rfl

end

lemma step_signed (hp : p.InOrder behaviour) (hsigned : ∀ a ∈ p.actors, a.Signed) (x : Step μ) :
    ∀ b ∈ (p.step x).actors, b.Signed := by
  intro b hb
  obtain ⟨i, hi⟩ := List.getElem?_of_mem hb
  obtain ⟨hlt, -⟩ := List.getElem?_eq_some_iff.mp hi
  rw [step_length] at hlt
  obtain ⟨b', hb', hturn⟩ := step_turn (List.getElem?_eq_getElem hlt) x
  obtain rfl := Option.some.inj (hb'.symm.trans hi)
  have hmem := List.getElem_mem hlt
  exact hturn.signed (hp.recorded _ hmem).1 (hsigned _ hmem)

lemma run_signed (hp : p.InOrder behaviour) (hsigned : ∀ a ∈ p.actors, a.Signed)
    (steps : List (Step μ)) : ∀ b ∈ (p.run steps).actors, b.Signed := by
  induction steps generalizing p with
  | nil => exact hsigned
  | cons x steps ih => exact ih (hp.step x) (step_signed hp hsigned x)

/-- An exchange posts a result exactly when it answers a call. -/
lemma Exchange.results_length {attached : Bool} {told queue left : List (Command μ)}
    {b : Actor μ ε} {results : List (Result ε)}
    (h : Exchange attached told a queue b left results) :
    results.length = if a.answers b then 1 else 0 := by
  cases h with
  | sends i o stats reports silent running task => simp [Actor.answers, task, running]
  | begins i rest silent running free => simp [Actor.answers, free]
  | exits rest left reports log silent running free => simp [Actor.answers, free]
  | disconnects left reports log silent running free => simp [Actor.answers, free]
  | breaks => simp [Actor.answers]
  | fails => simp [Actor.answers]
  | hears => cases htask : a.task <;> simp [Actor.answers, htask]
  | rests => cases htask : a.task <;> simp [Actor.answers, htask]

/-- What is read under the name of an actor and what is left in its file are the reports that found
room when the actor tried to file them. -/
structure Reported (p : Pool μ ε) (i : Nat) (name : PeerId) (steps : List (Step μ))
    (a : Actor μ ε) : Prop where
  actor : (p.run steps).actors[i]? = some a
  peer : a.peer = name
  room : a.reports.length ≤ max p.config.statsCapacity 1
  kept : (p.yields reading steps).filter (fun r => r.peer = name) ++ a.reports =
    p.config.kept (p.yields (attempts i) steps)
  accounted : a.Accounted p.config ((p.posted steps).filter fun r => r.source = name).length
    (p.yields (attempts i) steps)

/-- Throughout a session, whatever the actors and the readers do in between. -/
theorem InOrder.reported_run (hp : p.InOrder behaviour) (hpeers : p.peers.Nodup)
    (hids : (p.network.endpoints.map Endpoint.id).Nodup)
    (hsigned : ∀ a ∈ p.actors, a.Signed) (he : p.network.endpoints[i]? = some e)
    (hstart : p.Reported i e.id [] a) (steps : List (Step μ)) :
    ∃ b, p.Reported i e.id steps b := by
  induction steps using List.reverseRecOn with
  | nil => exact ⟨a, hstart⟩
  | append_singleton steps x ih =>
    obtain ⟨b, hb, hpeer, hroom, hkept, haccounted⟩ := ih
    have hrun := hp.run steps
    have hrecorded := (hrun.recorded b (List.mem_of_getElem? hb)).1
    have hpeers' : (p.run steps).peers.Nodup := by rwa [run_peers]
    obtain ⟨c, hc, hturn, hreports⟩ :=
      step_reports hpeers' (run_signed hp hsigned steps) hb hrun x
    obtain ⟨e', he'⟩ := hrun.exists_endpoint hb
    obtain ⟨hid, -, c', e'', results, hc', -, hposts, hexchange⟩ :=
      hp.exchanges_run hids he hb he' x
    obtain rfl : c' = c := Option.some.inj (hc'.symm.trans hc)
    rw [run_config] at hrecorded hturn hreports
    have hattempts : attempts i (p.run steps) x = b.attempts p.config c' := by
      rw [attempts, hb, hc, run_config]
    refine ⟨c', ?_, hturn.same.1.trans hpeer, ?_, ?_, ?_⟩
    · rw [run_concat]
      exact hc
    · obtain ⟨k, -, hfile⟩ := hturn.reports_eq hrecorded
      have hnew := Actor.length_kept_attempts_le p.config b c'
      rw [hfile, List.length_append, List.length_drop]
      omega
    · rw [yields_concat, yields_concat, hattempts, List.filter_append, List.append_assoc, ← hpeer,
        hreports, ActorConfig.kept_append, ← hkept, hpeer, List.append_assoc]
    · have hanswered : (p.posted (steps ++ [x])).filter (fun r => r.source = e.id) =
          (p.posted steps).filter (fun r => r.source = e.id) ++
            results.map (Result.envelope e.id) := by
        rw [posted_concat, List.filter_append, ← hid, hposts]
      rw [hanswered, List.length_append, List.length_map, hexchange.results_length, yields_concat,
        hattempts]
      exact haccounted.turn hrecorded hturn

/-- In every session the file of an actor holds no more reports than it has room for. What is read
from it and what is left in it are the reports that the actor tried to file, in order and once each,
except for those that found the file full. It tries to file its statistics after every
`statsInterval` rollouts that it answers, unless the interval is zero, and once more when it stops;
so what is read are its statistics at these moments, and no count goes back from one report to the
next. -/
theorem reports_of_run (config : ActorConfig) (node : PeerId) (groups : List (String × Nat))
    (behaviour : PeerId → Behaviour μ ε) :
    let n : ChannelNetwork μ ε := .build node groups
    let p := (spawn config n behaviour).1
    let capacity := max config.statsCapacity 1
    ∀ i e, n.endpoints[i]? = some e → ∀ steps,
      let tried := p.yields (attempts i) steps
      let read := (p.yields reading steps).filter fun r => r.peer = e.id
      let answered := ((p.posted steps).filter fun r => r.source = e.id).length
      let statsAfter := fun calls => Stats.ofCalls e.id (behaviour e.id) calls
      ∃ a, (p.run steps).actors[i]? = some a ∧ a.peer = e.id ∧ a.behaviour = behaviour e.id ∧
        a.stats = statsAfter a.served ∧ (a.phase = .stopped → a.served = a.calls) ∧
        answered ≤ a.calls.length ∧
        a.reports.length ≤ capacity ∧
        read ++ a.reports = (tried.filter fun t => t.unread < capacity).map Attempt.stats ∧
        (a.calls.length < 2 ^ 64 →
          tried.map Attempt.stats =
            Stats.due config.statsInterval e.id (behaviour e.id) (a.calls.take answered) ++
              (if a.phase = .stopped then [a.stats] else []) ∧
          (∀ r ∈ read, (∃ m, 1 ≤ m ∧ 0 < config.statsInterval ∧
              m * config.statsInterval ≤ answered ∧
              r = statsAfter (a.calls.take (m * config.statsInterval))) ∨
            a.phase = .stopped ∧ r = a.stats) ∧
          read.Pairwise Stats.Precedes) := by
  intro n p capacity i e he steps tried read answered statsAfter
  have hp : p.InOrder behaviour := inOrder_spawn config node groups behaviour
  have hids : (n.endpoints.map Endpoint.id).Nodup := ChannelNetwork.nodup_build_id node groups
  have hpeers : p.peers = n.endpoints.map Endpoint.id := List.map_map
  have hsigned : ∀ a ∈ p.actors, a.Signed := by
    intro a ha r hr
    obtain ⟨e, -, rfl⟩ := List.mem_map.mp ha
    cases hr
  have hstart : p.Reported i e.id [] (Actor.start e.id (behaviour e.id)) := by
    refine ⟨?_, rfl, Nat.zero_le _, rfl, Actor.accounted_start config e.id (behaviour e.id)⟩
    change (n.endpoints.map _)[i]? = _
    rw [List.getElem?_map, he, Option.map_some]
  obtain ⟨a, hactor, hpeer, hroom, hkept, haccounted⟩ :=
    hp.reported_run (hpeers ▸ hids) hids hsigned he hstart steps
  obtain ⟨hrecorded, hbehaviour⟩ := (hp.run steps).recorded a (List.mem_of_getElem? hactor)
  rw [run_config] at hrecorded
  rw [hpeer] at hbehaviour
  have hread : read.Sublist (tried.map Attempt.stats) :=
    (List.sublist_append_left read a.reports).trans (hkept ▸ List.filter_sublist.map _)
  have hmem {r : Stats} := haccounted.mem (r := r)
  have hattempted := haccounted.attempted
  have hstats := hrecorded.stats
  rw [hpeer, hbehaviour] at hmem hattempted hstats
  exact ⟨a, hactor, hpeer, hbehaviour, hstats, hrecorded.served_of_stopped, haccounted.answered_le,
    hroom, hkept, fun few => ⟨hattempted few, fun r hr => hmem few (hread.subset hr),
      (haccounted.pairwise hrecorded few).sublist hread⟩⟩

/-- The reader comes late: the report after the second rollout finds the file full. -/
def lateReader : List (Step Unit) := twoRollouts ++ [.read 0, .take 0, .collect]

/-- Of three attempts the second fails, so the reports that are read are the other two. -/
theorem reports_of_lateReader :
    (crampedPool.yields (attempts 0) lateReader).map (fun t => (t.stats.rollouts, t.unread)) =
        [(1, 0), (2, 1), (2, 0)] ∧
      ∃ a : Actor Unit Unit, (crampedPool.run lateReader).actors[0]? = some a ∧
        a.phase = .stopped ∧ a.reports = [] ∧
        let read := (crampedPool.yields reading lateReader).filter fun r => r.peer = a.peer
        read.map Stats.rollouts = [1, 2] ∧ read.Pairwise Stats.Precedes ∧
          read = ((crampedPool.yields (attempts 0) lateReader).filter fun t => t.unread < 1).map
            Attempt.stats := by
  obtain ⟨a, ha, hpeer, -, -, -, -, -, hkept, hfew⟩ :=
    reports_of_run ⟨1, 1⟩ "learner" [("actor", 1)] diligent 0 _ rfl lateReader
  obtain rfl := Option.some.inj (ha.symm.trans rfl)
  obtain ⟨-, -, hpairwise⟩ := hfew (by decide)
  exact ⟨rfl, _, ha, rfl, rfl, rfl, hpairwise, (List.append_nil _).symm.trans hkept⟩

end Pool

end ExperienceCollection
