import ExperienceCollection.Proofs.Random.Sample
import ExperienceCollection.Store.Basic
import Mathlib.Data.Int.ModEq
import Mathlib.Data.List.Nodup

/-!
# Places of a batch

A batch of `added` rows is written to `added` places, one for each row. They lie below the size
that the store has afterwards and cover all slots that come into use. Each way of choosing places
does this: appending, filling free slots, rolling, random and explicit victims.
-/

namespace ExperienceCollection.Store

/-- The places of `added` rows in a store that grows from `size` to `size'`. -/
structure Placement (size size' added : Nat) (places : List Nat) : Prop where
  length : places.length = added
  below : ∀ i ∈ places, i < size'
  covers : ∀ i, size ≤ i → i < size' → i ∈ places

lemma placement_range' (size added : Nat) :
    Placement size (size + added) added (List.range' size added) where
  length := List.length_range'
  below := fun _ hi => (List.mem_range'_1.mp hi).2
  covers := fun _ hl hu => List.mem_range'_1.mpr ⟨hl, hu⟩

/-- The free slots followed by as many victims as rows remain. -/
lemma placement_victims {capacity size added : Nat} {victims : List Nat} (hs : size ≤ capacity)
    (ho : capacity ≤ size + added) (hl : victims.length = size + added - capacity)
    (hv : ∀ i ∈ victims, i < capacity) :
    Placement size capacity added (List.range' size (capacity - size) ++ victims) where
  length := by
    rw [List.length_append, List.length_range', hl]
    omega
  below := by
    intro i hi
    rcases List.mem_append.mp hi with hi | hi
    · have := (List.mem_range'_1.mp hi).2
      omega
    · exact hv i hi
  covers := by
    intro i hl hu
    exact List.mem_append_left _ (List.mem_range'_1.mpr ⟨hl, by omega⟩)

/-- A rolling run passes through the free slots first. -/
lemma placement_rolling {capacity size added : Nat} (hs : size ≤ capacity)
    (ha : added ≤ capacity) (ho : capacity < size + added) :
    Placement size capacity added (rollingIndexes capacity size added) where
  length := by simp [rollingIndexes]
  below := by
    intro i hi
    obtain ⟨j, -, rfl⟩ := List.mem_map.mp hi
    have hc : (0 : Int) < capacity := by omega
    have hlt := Int.emod_lt_of_pos ((size : Int) - capacity + j) hc
    have hnn := Int.emod_nonneg ((size : Int) - capacity + j) (Int.ne_of_gt hc)
    omega
  covers := by
    intro i hl hu
    refine List.mem_map.mpr ⟨i - size, List.mem_range.mpr (by omega), ?_⟩
    have he : (size : Int) - capacity + (i - size : Nat) = i - capacity := by omega
    rw [he, Int.sub_emod_right, Int.emod_eq_of_lt (by omega) (by omega), Int.toNat_natCast]

/-- A run of at most `capacity` places does not come back to its start. -/
lemma rollingIndexes_nodup {capacity added : Nat} (size : Nat) (ha : added ≤ capacity) :
    (rollingIndexes capacity size added).Nodup := by
  refine List.Nodup.map_on ?_ List.nodup_range
  intro j hj k hk he
  rw [List.mem_range] at hj hk
  have hc : (capacity : Int) ≠ 0 := by omega
  have hj0 := Int.emod_nonneg ((size : Int) - capacity + j) hc
  have hk0 := Int.emod_nonneg ((size : Int) - capacity + k) hc
  have hmod : (size : Int) - capacity + j ≡ (size : Int) - capacity + k [ZMOD capacity] := by
    unfold Int.ModEq
    omega
  have heq : (j : Int) % capacity = k % capacity := hmod.add_left_cancel' _
  rw [Int.emod_eq_of_lt (by omega) (by omega), Int.emod_eq_of_lt (by omega) (by omega)] at heq
  exact Int.ofNat_inj.mp heq

/-- Victims that were in use before do not repeat a free slot. -/
lemma free_append_nodup {capacity size : Nat} {victims : List Nat} (hn : victims.Nodup)
    (hlt : ∀ i ∈ victims, i < size) : (List.range' size (capacity - size) ++ victims).Nodup := by
  refine List.nodup_append.mpr ⟨List.nodup_range', hn, ?_⟩
  intro i hi j hj he
  have hle := (List.mem_range'_1.mp hi).1
  have hlt := hlt j hj
  omega

variable {ρ : Type} [Random.Source ρ]

/-- What comes of a plan for `added` rows in a bounded store, with the source after it. -/
inductive Plans (capacity size added : Nat) (policy : Policy) (victims : Option (List Nat))
    (random : ρ) : Except StoreError (List Nat) × ρ → Prop where
  | exceeds (excess : capacity < added) :
      Plans capacity size added policy victims random
        (.error (.capacityExceeded added capacity), random)
  | fits (fit : size + added ≤ capacity) :
      Plans capacity size added policy victims random (.ok (List.range' size added), random)
  | miscounts (named : List Nat) (bound : added ≤ capacity) (excess : capacity < size + added)
      (given : victims = some named) (count : named.length ≠ size + added - capacity) :
      Plans capacity size added policy victims random
        (.error (.overwriteCountMismatch (size + added - capacity) named.length), random)
  | misplaces (named : List Nat) (index : Nat) (bound : added ≤ capacity)
      (excess : capacity < size + added) (given : victims = some named)
      (count : named.length = size + added - capacity)
      (first : (named.find? fun i => capacity ≤ i) = some index) :
      Plans capacity size added policy victims random
        (.error (.indexOutOfBounds index capacity), random)
  | obeys (named : List Nat) (bound : added ≤ capacity) (excess : capacity < size + added)
      (given : victims = some named) (count : named.length = size + added - capacity)
      (below : ∀ i ∈ named, i < capacity) :
      Plans capacity size added policy victims random
        (.ok (List.range' size (capacity - size) ++ named), random)
  | rolls (bound : added ≤ capacity) (excess : capacity < size + added) (absent : victims = none)
      (hpolicy : policy = .rolling) :
      Plans capacity size added policy victims random
        (.ok (rollingIndexes capacity size added), random)
  | draws (bound : added ≤ capacity) (excess : capacity < size + added) (absent : victims = none)
      (hpolicy : policy = .random) :
      Plans capacity size added policy victims random
        (.ok (List.range' size (capacity - size) ++
          (Random.sample size (size + added - capacity) random).1),
          (Random.sample size (size + added - capacity) random).2)

lemma planIndexes_plans (capacity size added : Nat) (policy : Policy)
    (victims : Option (List Nat)) (random : ρ) :
    Plans capacity size added policy victims random
      (planIndexes capacity policy size added victims random) := by
  unfold planIndexes
  split
  · rename_i hover
    exact .exceeds hover
  · rename_i hbound
    rw [Nat.not_lt] at hbound
    split
    · rename_i hfit
      exact .fits hfit
    · rename_i hover
      rw [Nat.not_le] at hover
      dsimp only
      split
      · rename_i named
        split
        · rename_i hcount
          exact .miscounts named hbound hover rfl hcount
        · rename_i hcount
          rw [Decidable.not_not] at hcount
          split
          · rename_i index hfirst
            exact .misplaces named index hbound hover rfl hcount hfirst
          · rename_i hnone
            refine .obeys named hbound hover rfl hcount ?_
            simpa using hnone
      · exact .rolls hbound hover rfl rfl
      · exact .draws hbound hover rfl rfl

/-- Each outcome comes under its own conditions only, so these decide the plan. -/
lemma Plans.eq {capacity size added : Nat} {policy : Policy} {victims : Option (List Nat)}
    {random : ρ} {plan : Except StoreError (List Nat) × ρ}
    (h : Plans capacity size added policy victims random plan) :
    planIndexes capacity policy size added victims random = plan := by
  unfold planIndexes
  cases h with
  | exceeds excess => rw [if_pos excess]
  | fits fit => rw [if_neg (by omega), if_pos fit]
  | miscounts named bound excess given count =>
    rw [if_neg bound.not_gt, if_neg excess.not_ge, given]
    exact if_pos count
  | misplaces named index bound excess given count first =>
    rw [if_neg bound.not_gt, if_neg excess.not_ge, given]
    dsimp only
    rw [if_neg (not_not_intro count), first]
  | obeys named bound excess given count below =>
    have hnone : (named.find? fun i => capacity ≤ i) = none := by simpa using below
    rw [if_neg bound.not_gt, if_neg excess.not_ge, given]
    dsimp only
    rw [if_neg (not_not_intro count), hnone]
  | rolls bound excess absent hpolicy =>
    rw [if_neg bound.not_gt, if_neg excess.not_ge, absent, hpolicy]
  | draws bound excess absent hpolicy =>
    rw [if_neg bound.not_gt, if_neg excess.not_ge, absent, hpolicy]

/-- A plan that is made has room for the rows; victims that it needs and that are named are as many
as overflow, and lie in the store. -/
lemma Plans.of_ok {capacity size added : Nat} {policy : Policy} {victims : Option (List Nat)}
    {random random' : ρ} {places : List Nat}
    (h : Plans capacity size added policy victims random (.ok places, random')) :
    added ≤ capacity ∧ (capacity < size + added → ∀ vs, victims = some vs →
      vs.length = size + added - capacity ∧ ∀ i ∈ vs, i < capacity) := by
  cases h with
  | fits fit => exact ⟨by omega, fun excess => absurd fit excess.not_ge⟩
  | obeys named bound excess given count below =>
    refine ⟨bound, fun _ vs hvs => ?_⟩
    obtain rfl : named = vs := Option.some.inj (given.symm.trans hvs)
    exact ⟨count, below⟩
  | rolls bound excess absent => exact ⟨bound, fun _ vs hvs => nomatch hvs.symm.trans absent⟩
  | draws bound excess absent => exact ⟨bound, fun _ vs hvs => nomatch hvs.symm.trans absent⟩

theorem planIndexes_placement {capacity size added : Nat} {policy : Policy}
    {victims : Option (List Nat)} {random random' : ρ} {places : List Nat} (hs : size ≤ capacity)
    (h : planIndexes capacity policy size added victims random = (.ok places, random')) :
    Placement size (min capacity (size + added)) added places := by
  have hplan := planIndexes_plans capacity size added policy victims random
  rw [h] at hplan
  cases hplan with
  | fits fit =>
    rw [Nat.min_eq_right fit]
    exact placement_range' size added
  | obeys named bound excess given count below =>
    rw [Nat.min_eq_left excess.le]
    exact placement_victims hs excess.le count below
  | rolls bound excess =>
    rw [Nat.min_eq_left excess.le]
    exact placement_rolling hs bound excess
  | draws bound excess =>
    rw [Nat.min_eq_left excess.le]
    have hle : size + added - capacity ≤ size := by omega
    have hsample := Random.isSample_sample hle random
    refine placement_victims hs excess.le hsample.length_eq ?_
    intro i hi
    exact (hsample.lt i hi).trans_le hs

/-- The places of a plan lie in the store. -/
lemma planIndexes_lt {capacity size added : Nat} {policy : Policy} {victims : Option (List Nat)}
    {random random' : ρ} {places : List Nat} (hs : size ≤ capacity)
    (h : planIndexes capacity policy size added victims random = (.ok places, random')) :
    ∀ i ∈ places, i < capacity := by
  intro i hi
  have hlt := (planIndexes_placement hs h).below i hi
  omega

/-- No place is planned twice, unless the caller names victims that repeat a place or stand in the
free slots. -/
theorem planIndexes_nodup {capacity size added : Nat} {policy : Policy}
    {victims : Option (List Nat)} {random random' : ρ} {places : List Nat}
    (h : planIndexes capacity policy size added victims random = (.ok places, random'))
    (hv : capacity < size + added → ∀ vs, victims = some vs → vs.Nodup ∧ ∀ i ∈ vs, i < size) :
    places.Nodup := by
  have hplan := planIndexes_plans capacity size added policy victims random
  rw [h] at hplan
  cases hplan with
  | fits => exact List.nodup_range'
  | obeys named bound excess given =>
    obtain ⟨hn, hlt⟩ := hv excess named given
    exact free_append_nodup hn hlt
  | rolls bound => exact rollingIndexes_nodup size bound
  | draws bound excess =>
    have hle : size + added - capacity ≤ size := by omega
    have hsample := Random.isSample_sample hle random
    exact free_append_nodup hsample.nodup hsample.lt

/-- A refused plan draws no words. -/
lemma planIndexes_error_random {capacity size added : Nat} {policy : Policy}
    {victims : Option (List Nat)} {random random' : ρ} {e : StoreError}
    (h : planIndexes capacity policy size added victims random = (.error e, random')) :
    random' = random := by
  have hplan := planIndexes_plans capacity size added policy victims random
  rw [h] at hplan
  cases hplan with
  | _ => rfl

/-- Words are drawn only to pick the victims of a batch that overflows. -/
lemma planIndexes_random {capacity size added : Nat} {policy : Policy}
    {victims : Option (List Nat)} {random random' : ρ} {places : List Nat}
    (h : planIndexes capacity policy size added victims random = (.ok places, random')) :
    random' =
      if policy = .random ∧ victims = none ∧ capacity < size + added then
        (Random.sample size (size + added - capacity) random).2
      else random := by
  have hplan := planIndexes_plans capacity size added policy victims random
  rw [h] at hplan
  cases hplan with
  | fits fit => rw [if_neg fun hc => Nat.not_lt.mpr fit hc.2.2]
  | obeys named bound excess given =>
    rw [if_neg fun hc => Option.some_ne_none named (given.symm.trans hc.2.1)]
  | rolls bound excess absent hpolicy =>
    rw [if_neg fun hc => Policy.noConfusion (hpolicy.symm.trans hc.1)]
  | draws bound excess absent hpolicy => rw [if_pos ⟨hpolicy, absent, excess⟩]

end ExperienceCollection.Store
