import ExperienceCollection.Proofs.Store.History

/-!
# Failed calls and draws

A put or an update that fails changes nothing at all. Words are drawn for one reason only: a put
that overflows a bounded random store leaves the choice of its victims to the store. So the source
of a store is the one it was created with, advanced by the samples of these puts in order.
-/

namespace ExperienceCollection.Store

variable {ν ρ : Type} [Random.Source ρ]

/-- The sample that a call draws, as a number of places in use and a number of victims. Only a put
that succeeds, overflows a bounded random store and names no victims draws one. -/
def drawn (s : Store ν ρ) : Call ν → Option (Nat × Nat)
  | .put batch none =>
    match s.config.capacity, s.config.policy, (s.put batch none).answer with
    | .bounded capacity, some .random, .ok _ =>
      if capacity < s.size + batch.rowCount then
        some (s.size, s.size + batch.rowCount - capacity)
      else none
    | _, _, _ => none
  | _ => none

/-- The samples that the calls of a history draw. -/
def draws (s : Store ν ρ) : List (Call ν) → List (Nat × Nat)
  | [] => []
  | call :: calls => (s.drawn call).toList ++ draws (s.after call) calls

/-- A source after samples were drawn from it. -/
def advance (random : ρ) (samples : List (Nat × Nat)) : ρ :=
  samples.foldl (fun random d => (Random.sample d.1 d.2 random).2) random

lemma advance_append (random : ρ) (ds es : List (Nat × Nat)) :
    advance random (ds ++ es) = advance (advance random ds) es :=
  List.foldl_append

lemma drawn_put_error {s : Store ν ρ} {b : Batch ν} {victims : Option (List Nat)} {e : StoreError}
    (h : (s.put b victims).answer = .error e) : s.drawn (.put b victims) = none := by
  cases victims with
  | some victims => rfl
  | none => cases hc : s.config.capacity <;> cases hp : s.config.policy <;> simp [drawn, h, hc, hp]

/-- A put to named victims draws nothing. -/
lemma put_random_of_victims (s : Store ν ρ) (b : Batch ν) (victims : List Nat) :
    (s.put b (some victims)).store.random = s.random := by
  have hputs := put_puts s b (some victims)
  generalize s.put b (some victims) = reply at hputs ⊢
  cases hputs with
  | writes added capacity policy places random schema count layout plan =>
    have hrandom := planIndexes_random plan
    rwa [if_neg fun hc => Option.some_ne_none _ hc.2.1] at hrandom
  | _ => rfl

lemma put_random {s : Store ν ρ} (hs : s.Valid) (b : Batch ν) (victims : Option (List Nat)) :
    (s.put b victims).store.random = advance s.random (s.drawn (.put b victims)).toList := by
  cases victims with
  | some victims => exact put_random_of_victims s b victims
  | none =>
    have hputs := put_puts s b none
    cases hanswer : (s.put b none).answer with
    | error e =>
      rw [drawn_put_error hanswer, put_error hanswer]
      rfl
    | ok places =>
      rw [drawn, hanswer]
      have hlayout := hs.layout
      generalize s.put b none = reply at hputs hanswer ⊢
      cases hputs with
      | appends added schema count layout =>
        rw [layout] at hlayout
        rw [layout_unbounded hlayout]
        rfl
      | writes added capacity policy places random schema count layout plan =>
        rw [layout] at hlayout
        rw [layout_bounded hlayout, layout_policy hlayout]
        obtain ⟨rfl, -⟩ := Batch.length_of_commonLength count
        rw [planIndexes_random plan]
        cases policy with
        | rolling => simp [advance]
        | random => by_cases hover : capacity < s.size + b.rowCount <;> simp [advance, hover]
      | _ => cases hanswer

lemma drawn_eq_some {s : Store ν ρ} {call : Call ν} {d : Nat × Nat} (h : s.drawn call = some d) :
    ∃ batch places capacity, call = .put batch none ∧ (s.put batch none).answer = .ok places ∧
      s.config.capacity = .bounded capacity ∧ s.config.policy = some .random ∧
      capacity < s.size + batch.rowCount ∧ d = (s.size, s.size + batch.rowCount - capacity) := by
  unfold drawn at h
  split at h
  · rename_i batch
    split at h
    · rename_i capacity places hcapacity hpolicy hanswer
      split at h
      · rename_i hover
        exact ⟨batch, places, capacity, rfl, hanswer, hcapacity, hpolicy, hover,
          (Option.some.inj h).symm⟩
      · cases h
    · cases h
  · cases h

theorem after_random {s : Store ν ρ} (hs : s.Valid) (call : Call ν) :
    (s.after call).random = advance s.random (s.drawn call).toList := by
  cases call with
  | put batch victims => exact put_random hs batch victims
  | update indexes batch =>
    change (s.update indexes batch).store.random = s.random
    rcases update_store s indexes batch with h | h <;> rw [h]
  | _ => rfl

theorem run_random {s : Store ν ρ} (hs : s.Valid) (calls : List (Call ν)) :
    (s.run calls).random = advance s.random (s.draws calls) := by
  induction calls generalizing s with
  | nil => rfl
  | cons call calls ih =>
    rw [run_cons, ih (after_valid hs call), after_random hs call, draws, advance_append]

/-- In every reachable store a put or an update that fails leaves everything as it was. A call
draws words only if it is a put that succeeds, names no victims and overflows a bounded random
store; it then draws one sample of as many places as overflow. All other calls leave the source
alone, so it is the one the store was created with after the samples drawn so far. -/
theorem source_of_run {config : StoreConfig} {random : ρ} {s : Store ν ρ}
    (h : create config random = .ok s) (calls : List (Call ν)) :
    let t := s.run calls
    (∀ batch victims e, (t.put batch victims).answer = .error e →
        (t.put batch victims).store = t) ∧
      (∀ indexes batch e, (t.update indexes batch).answer = .error e →
        (t.update indexes batch).store = t) ∧
      (∀ call, (t.after call).random = t.random ∨
        ∃ batch places capacity, call = .put batch none ∧
          (t.put batch none).answer = .ok places ∧ config.capacity = .bounded capacity ∧
          config.policy = some .random ∧ capacity < t.size + batch.rowCount ∧
          (t.after call).random =
            (Random.sample t.size (t.size + batch.rowCount - capacity) t.random).2) ∧
      t.random = advance random (s.draws calls) := by
  intro t
  have hvalid : t.Valid := run_valid (create_valid h) calls
  have hconfig : t.config = config := (run_config s calls).trans (create_config h)
  refine ⟨fun _ _ _ => put_error, fun _ _ _ => update_error, fun call => ?_, ?_⟩
  · rw [after_random hvalid call]
    cases hdrawn : t.drawn call with
    | none => exact .inl rfl
    | some d =>
      obtain ⟨batch, places, capacity, rfl, hanswer, hcapacity, hpolicy, hover, rfl⟩ :=
        drawn_eq_some hdrawn
      rw [hconfig] at hcapacity hpolicy
      exact .inr ⟨batch, places, capacity, rfl, hanswer, hcapacity, hpolicy, hover, rfl⟩
  · obtain ⟨_, -, rfl⟩ := create_eq h
    exact run_random (create_valid h) calls

def lotteryConfig : StoreConfig := ⟨["s", "a"], .bounded 3, some .random⟩

def lotteryStore : Store Nat Random.WordStream where
  config := lotteryConfig
  layout := .bounded 3 .random
  columns := lotteryConfig.emptyColumns
  size := 0
  random := {}

/-- Of these puts the first fits, the second fails, the third names its victim, and the last one
overflows by two. -/
def lotteryCalls : List (Call Nat) :=
  [.put (pairBatch [1, 2] [3, 4]) none, .put (pairBatch [5] [6, 7]) none,
    .put (pairBatch [5, 6] [7, 8]) (some [0]), .update [1] (pairBatch [9] [9]),
    .put (pairBatch [1, 2] [3, 4]) none]

/-- A source without given words that has yielded so many others. -/
def yielded (count : UInt64) : Random.WordStream := { state := count * 0x9e3779b97f4a7c15 }

/-- The first two words are refused. -/
lemma first_below_two :
    Random.Width.short.scaledWord 2 0x7fffffff (yielded 0) = some (0, yielded 3) := by
  rw [Random.Width.scaledWord_of_lt (by decide), Random.Width.scaledWord_of_lt (by decide),
    Random.Width.scaledWord_of_le (by decide)]
  rfl

/-- The only victim among two. -/
lemma single_sample : Random.sample? 2 1 (yielded 0) = some ([0], yielded 3) := by
  change Option.bind (Random.grow true [1] [] _) _ = _
  rw [Random.grow_cons first_below_two]
  rfl

lemma first_sample : Random.sample? 3 2 (yielded 0) = some ([2, 0], yielded 5) := by
  have hsecond : Random.Width.short.scaledWord 3 0xbfffffff (yielded 3) = some (0, yielded 5) := by
    rw [Random.Width.scaledWord_of_lt (by decide), Random.Width.scaledWord_of_le (by decide)]
    rfl
  change Option.bind (Random.grow true [1, 2] [] _) _ = _
  rw [Random.grow_cons first_below_two, Random.grow_cons hsecond]
  rfl

lemma second_sample : Random.sample? 3 2 (yielded 5) = some ([0, 2], yielded 8) := by
  have hfirst : Random.Width.short.scaledWord 2 0x7fffffff (yielded 5) = some (0, yielded 7) := by
    rw [Random.Width.scaledWord_of_lt (by decide), Random.Width.scaledWord_of_le (by decide)]
    rfl
  have hsecond : Random.Width.short.scaledWord 3 0xbfffffff (yielded 7) = some (2, yielded 8) := by
    rw [Random.Width.scaledWord_of_le (by decide)]
    rfl
  change Option.bind (Random.grow true [1, 2] [] _) _ = _
  rw [Random.grow_cons hfirst, Random.grow_cons hsecond]
  rfl

/-- The victims of the next put to a store that has drawn the first sample. -/
lemma next_victims :
    (Random.sample 3 2 (Random.sample 3 2 ({} : Random.WordStream)).2).1 = [0, 2] := by
  have hfirst : Random.sample 3 2 ({} : Random.WordStream) = ([2, 0], yielded 5) :=
    Random.sample_of_sample? first_sample
  rw [hfirst, Random.sample_of_sample? second_sample]

theorem source_of_lotteryCalls :
    (create lotteryConfig {} : Except StoreError (Store Nat Random.WordStream)) =
        .ok lotteryStore ∧
      (lotteryStore.run lotteryCalls).random = (Random.sample 3 2 ({} : Random.WordStream)).2 ∧
      ((lotteryStore.run lotteryCalls).put (pairBatch [1] [2]) (some [3])).answer =
        .error (.indexOutOfBounds 3 3) ∧
      ((lotteryStore.run lotteryCalls).put (pairBatch [1] [2]) (some [3])).store =
        lotteryStore.run lotteryCalls := by
  have h : (create lotteryConfig {} : Except StoreError (Store Nat Random.WordStream)) =
      .ok lotteryStore := rfl
  have hdraws : lotteryStore.draws lotteryCalls = [(3, 2)] := rfl
  have hanswer : ((lotteryStore.run lotteryCalls).put (pairBatch [1] [2]) (some [3])).answer =
      .error (.indexOutOfBounds 3 3) := rfl
  obtain ⟨hput, -, -, hsource⟩ := source_of_run h lotteryCalls
  rw [hdraws] at hsource
  exact ⟨h, hsource, hanswer, hput _ _ _ hanswer⟩

end ExperienceCollection.Store
