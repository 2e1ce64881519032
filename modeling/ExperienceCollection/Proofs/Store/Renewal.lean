import ExperienceCollection.Proofs.Store.Faultless

/-!
# Renewal of a store

A store that is cleared is a new store. Nothing of its past is left in it but the configuration,
which never changes, and the source, which goes on from where it is. So a history with a `clear` in
it falls into two: what follows the `clear` is a history of a new store.
-/

namespace ExperienceCollection.Store

variable {ν ρ : Type}

/-- What is left of a store when it is cleared depends on its configuration and its source alone. -/
lemma clear_congr {s t : Store ν ρ} (hs : s.Valid) (ht : t.Valid) (config : s.config = t.config)
    (random : s.random = t.random) : s.clear = t.clear := by
  have layout : s.layout = t.layout := by
    apply Except.ok.inj (ε := StoreError)
    rw [← hs.layout, ← ht.layout, config]
  rw [clear, clear, config, layout, random]

/-- There is nothing to clear in a new store. -/
lemma clear_of_create {config : StoreConfig} {random : ρ} {s : Store ν ρ}
    (h : create config random = .ok s) : s.clear = s := by
  obtain ⟨layout, -, rfl⟩ := create_eq h
  rfl

lemma create_random {config : StoreConfig} {random : ρ} {s : Store ν ρ}
    (h : create config random = .ok s) : s.random = random := by
  obtain ⟨layout, -, rfl⟩ := create_eq h
  rfl

/-- A configuration that is accepted with one source is accepted with any. -/
lemma exists_create {config : StoreConfig} {random : ρ} {s : Store ν ρ}
    (h : create config random = .ok s) (other : ρ) :
    ∃ fresh : Store ν ρ, create config other = .ok fresh := by
  unfold create at h ⊢
  cases hv : config.validate with
  | error e => simp [hv, bind, Except.bind] at h
  | ok u =>
    cases hl : config.layout with
    | error e => simp [hv, hl, bind, Except.bind] at h
    | ok layout => exact ⟨_, rfl⟩

variable [Random.Source ρ]

lemma run_append (s : Store ν ρ) (calls later : List (Call ν)) :
    s.run (calls ++ later) = (s.run calls).run later :=
  List.foldl_append

lemma answers_append (s : Store ν ρ) (calls later : List (Call ν)) :
    s.answers (calls ++ later) = s.answers calls ++ (s.run calls).answers later := by
  induction calls generalizing s with
  | nil => rfl
  | cons call calls ih => rw [List.cons_append, answers, ih, answers, run_cons, List.cons_append]

/-- Whatever happened before, clearing a store gives the new store of its configuration and of its
source, and the source is the one it was created with after the samples drawn so far. From there on
all calls are answered as by the new store, and leave the stores that they leave there. -/
theorem renewal_of_run {config : StoreConfig} {random : ρ} {s : Store ν ρ}
    (h : create config random = .ok s) (calls : List (Call ν)) :
    let t := s.run calls
    create config t.random = .ok t.clear ∧ t.random = advance random (s.draws calls) ∧
      ∀ fresh : Store ν ρ, create config t.random = .ok fresh → ∀ later,
        s.answers (calls ++ .clear :: later) =
            s.answers calls ++ .cleared :: fresh.answers later ∧
          s.run (calls ++ .clear :: later) = fresh.run later := by
  intro t
  have hvalid : t.Valid := run_valid (create_valid h) calls
  have hconfig : t.config = config := (run_config s calls).trans (create_config h)
  have hrenewed : ∀ fresh : Store ν ρ, create config t.random = .ok fresh → t.clear = fresh := by
    intro fresh hfresh
    have hsame : t.config = fresh.config := hconfig.trans (create_config hfresh).symm
    calc
      t.clear = fresh.clear :=
        clear_congr hvalid (create_valid hfresh) hsame (create_random hfresh).symm
      _ = fresh := clear_of_create hfresh
  refine ⟨?_, ?_, ?_⟩
  · obtain ⟨fresh, hfresh⟩ := exists_create h t.random
    rw [hrenewed fresh hfresh, hfresh]
  · have hsource := run_random (create_valid h) calls
    rwa [create_random h] at hsource
  · intro fresh hfresh later
    have hafter : t.after .clear = fresh := hrenewed fresh hfresh
    rw [answers_append, run_append, run_cons, answers, hafter]
    exact ⟨rfl, rfl⟩

/-- A random store is cleared after it has drawn a sample; its next victims come from the words that
follow. -/
theorem renewal_of_lotteryCalls :
    let t := lotteryStore.run lotteryCalls
    (create lotteryConfig {} : Except StoreError (Store Nat Random.WordStream)) =
        .ok lotteryStore ∧
      create lotteryConfig t.random = .ok t.clear ∧
      t.random = (Random.sample 3 2 ({} : Random.WordStream)).2 ∧
      lotteryStore.answers (lotteryCalls ++ .clear :: lotteryCalls) =
        lotteryStore.answers lotteryCalls ++ .cleared :: t.clear.answers lotteryCalls := by
  intro t
  have h : (create lotteryConfig {} : Except StoreError (Store Nat Random.WordStream)) =
      .ok lotteryStore := rfl
  have hdraws : lotteryStore.draws lotteryCalls = [(3, 2)] := rfl
  obtain ⟨hcreate, hsource, hlater⟩ := renewal_of_run h lotteryCalls
  rw [hdraws] at hsource
  exact ⟨h, hcreate, hsource, (hlater t.clear hcreate lotteryCalls).1⟩

end ExperienceCollection.Store
