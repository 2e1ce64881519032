import ExperienceCollection.Random.Sample
import Mathlib.Data.List.InsertIdx
import Mathlib.Data.List.Perm.Subperm
import Mathlib.Order.Nat

/-!
# Samples have the right size and range

A sample of `amount` out of `length` numbers is a list of exactly `amount` different numbers, all
below `length`, whichever way it is drawn and whatever words the source yields. The loops that draw
again are fixed points, and what is said of their results is shown for one turn of them.
-/

namespace ExperienceCollection.Random

variable {ρ : Type} [Source ρ]

/-- Different numbers below `length`, as many as asked for. -/
structure IsSample (length amount : Nat) (s : List Nat) : Prop where
  length_eq : s.length = amount
  nodup : s.Nodup
  lt : ∀ i ∈ s, i < length

lemma isSample_range {length amount : Nat} (h : amount ≤ length) :
    IsSample length amount (List.range amount) where
  length_eq := List.length_range
  nodup := List.nodup_range
  lt := fun _ hi => (List.mem_range.mp hi).trans_le h

lemma IsSample.perm {length amount : Nat} {s s' : List Nat} (h : IsSample length amount s)
    (hp : s'.Perm s) : IsSample length amount s' where
  length_eq := hp.length_eq.trans h.length_eq
  nodup := hp.nodup_iff.mpr h.nodup
  lt := fun i hi => h.lt i (hp.mem_iff.mp hi)

lemma Width.draw_lt (w : Width) (r : ρ) : (w.draw r).1 < w.count := by
  cases w with
  | short => exact UInt32.toNat_lt (Source.next r).1
  | long => exact UInt64.toNat_lt (Source.nextLong r).1

/-- A word in the zone is the last one drawn. -/
lemma Width.scaledWord_of_le {w : Width} {n zone : Nat} {r : ρ}
    (h : (w.draw r).1 * n % w.count ≤ zone) :
    w.scaledWord n zone r = some ((w.draw r).1 * n / w.count, (w.draw r).2) := by
  rw [Width.scaledWord]
  exact if_pos h

/-- A word beyond the zone is refused. -/
lemma Width.scaledWord_of_lt {w : Width} {n zone : Nat} {r : ρ}
    (h : zone < (w.draw r).1 * n % w.count) :
    w.scaledWord n zone r = w.scaledWord n zone (w.draw r).2 := by
  rw [Width.scaledWord]
  exact if_neg h.not_ge

lemma Width.scaledWord_lt {w : Width} {n zone : Nat} (hn : 0 < n) {r : ρ} {drawn : Nat × ρ}
    (h : w.scaledWord n zone r = some drawn) : drawn.1 < n := by
  refine Width.scaledWord.partial_correctness w n zone (fun _ drawn => drawn.1 < n) ?_ r drawn h
  intro again ih r drawn h
  dsimp only at h
  split at h
  · obtain rfl := Option.some.inj h
    exact Nat.div_lt_of_lt_mul (Nat.mul_lt_mul_of_pos_right (w.draw_lt r) hn)
  · exact ih _ _ h

lemma between_le {low high : Nat} (hle : low ≤ high) {r : ρ} {drawn : Nat × ρ}
    (h : between low high r = some drawn) : drawn.1 ≤ high := by
  obtain ⟨⟨k, r'⟩, hk, h⟩ := Option.bind_eq_some_iff.mp h
  have hlt : k < high - low + 1 := Width.scaledWord_lt (Nat.succ_pos _) hk
  obtain rfl := Option.some.inj h
  change low + k ≤ high
  omega

/-- The number that is added to a small sample, by the words it comes from. -/
lemma grow_cons {ordered : Bool} {j t : Nat} {js taken : List Nat} {r r' : ρ}
    (h : Width.short.scaledWord (j + 1) ((j + 1) <<< (31 - (j + 1).log2) - 1) r = some (t, r')) :
    grow ordered (j :: js) taken r = grow ordered js (addSmall ordered taken j t) r' := by
  have hbetween : between 0 j r = some (t, r') := by
    rw [between, Nat.sub_zero, h]
    exact congrArg (fun k => some (k, r')) (Nat.zero_add t)
  rw [grow, hbetween]
  rfl

lemma addSmall_length (ordered : Bool) (taken : List Nat) (j t : Nat) :
    (addSmall ordered taken j t).length = taken.length + 1 := by
  rw [addSmall]
  split
  · simp
  · rename_i position hp
    have hlt : position < taken.length := (List.idxOf?_eq_some_iff.mp hp).1
    cases ordered
    · simp
    · exact List.length_insertIdx_of_le_length hlt.le _

lemma mem_addSmall {ordered : Bool} {taken : List Nat} {j t i : Nat} (ht : t ≤ j)
    (h : i ∈ addSmall ordered taken j t) : i ∈ taken ∨ i ≤ j := by
  rw [addSmall] at h
  split at h
  · rcases List.mem_append.mp h with h | h
    · exact .inl h
    · exact .inr (List.mem_singleton.mp h ▸ ht)
  · cases ordered
    · rcases List.mem_append.mp h with h | h
      · exact .inl h
      · exact .inr (List.mem_singleton.mp h).le
    · rcases List.eq_or_mem_of_mem_insertIdx h with rfl | h
      · exact .inr le_rfl
      · exact .inl h

/-- A number that is not taken yet goes in; if it is taken, the new bound `j` goes in for it. -/
lemma addSmall_nodup {ordered : Bool} {taken : List Nat} {j t : Nat} (hn : taken.Nodup)
    (hlt : ∀ i ∈ taken, i < j) : (addSmall ordered taken j t).Nodup := by
  have hj : j ∉ taken := fun hmem => Nat.lt_irrefl j (hlt j hmem)
  rw [addSmall]
  split
  · rename_i hfree
    apply (List.perm_append_singleton _ taken).nodup_iff.mpr
    exact List.nodup_cons.mpr ⟨List.idxOf?_eq_none_iff.mp hfree, hn⟩
  · rename_i position hp
    have hle : position ≤ taken.length := (List.idxOf?_eq_some_iff.mp hp).1.le
    have hcons : (j :: taken).Nodup := List.nodup_cons.mpr ⟨hj, hn⟩
    cases ordered
    · exact (List.perm_append_singleton j taken).nodup_iff.mpr hcons
    · exact (List.perm_insertIdx j taken hle).nodup_iff.mpr hcons

/-- The bounds of the numbers that are added follow each other, so each is above all that is
taken. -/
lemma isSample_of_grow {ordered : Bool} {taken : List Nat} {r : ρ} {start count : Nat}
    (hn : taken.Nodup) (hlt : ∀ i ∈ taken, i < start) {drawn : List Nat × ρ}
    (h : grow ordered (List.range' start count) taken r = some drawn) :
    IsSample (start + count) (taken.length + count) drawn.1 := by
  induction count generalizing start taken r with
  | zero =>
    obtain rfl := Option.some.inj h
    exact ⟨rfl, hn, hlt⟩
  | succ count ih =>
    rw [List.range'_succ, grow] at h
    obtain ⟨⟨t, r'⟩, ht, h⟩ := Option.bind_eq_some_iff.mp h
    have hle : t ≤ start := between_le (Nat.zero_le start) ht
    have hbelow : ∀ i ∈ addSmall ordered taken start t, i < start + 1 := by
      intro i hi
      rcases mem_addSmall hle hi with hi | hi
      · exact (hlt i hi).trans (Nat.lt_succ_self start)
      · exact Nat.lt_succ_of_le hi
    have hgrown := ih (addSmall_nodup hn hlt) hbelow h
    rw [addSmall_length] at hgrown
    rwa [Nat.add_right_comm start, Nat.add_right_comm taken.length] at hgrown

lemma swapIfInBounds_perm (a : Array Nat) (i j : Nat) : (a.swapIfInBounds i j).Perm a := by
  rw [Array.swapIfInBounds_def]
  split
  · split
    · exact Array.swap_perm _ _
    · exact .refl a
  · exact .refl a

lemma shuffleFront_perm {last : Nat} {is : List Nat} {a : Array Nat} {r : ρ}
    {drawn : Array Nat × ρ} (h : shuffleFront last is a r = some drawn) : drawn.1.Perm a := by
  induction is generalizing a r with
  | nil =>
    obtain rfl := Option.some.inj h
    exact .refl a
  | cons i is ih =>
    obtain ⟨⟨j, r'⟩, -, h⟩ := Option.bind_eq_some_iff.mp h
    exact (ih h).trans (swapIfInBounds_perm a i j)

lemma shuffleBack_perm {is : List Nat} {a : Array Nat} {r : ρ} {drawn : Array Nat × ρ}
    (h : shuffleBack is a r = some drawn) : drawn.1.Perm a := by
  induction is generalizing a r with
  | nil =>
    obtain rfl := Option.some.inj h
    exact .refl a
  | cons i is ih =>
    obtain ⟨⟨j, r'⟩, -, h⟩ := Option.bind_eq_some_iff.mp h
    exact (ih h).trans (swapIfInBounds_perm a i j)

lemma Width.untaken_lt_and_free {w : Width} {length : Nat} {taken : List Nat} (hlength : 0 < length)
    {r : ρ} {drawn : Nat × ρ} (h : w.untaken length taken r = some drawn) :
    drawn.1 < length ∧ drawn.1 ∉ taken := by
  refine Width.untaken.partial_correctness w length taken
    (fun _ drawn => drawn.1 < length ∧ drawn.1 ∉ taken) ?_ r drawn h
  intro again ih r drawn h
  obtain ⟨⟨i, r'⟩, hi, h⟩ := Option.bind_eq_some_iff.mp h
  dsimp only at h
  split at h
  · exact ih _ _ h
  · rename_i hfree
    obtain rfl := Option.some.inj h
    exact ⟨Width.scaledWord_lt hlength hi, hfree⟩

/-- The numbers that are added differ from those taken and from each other. -/
lemma isSample_of_scatter {w : Width} {length count : Nat} {taken : List Nat} {r : ρ}
    (hroom : taken.length + count ≤ length) (hn : taken.Nodup) (hlt : ∀ i ∈ taken, i < length)
    {drawn : List Nat × ρ} (h : scatter w length count taken r = some drawn) :
    IsSample length (taken.length + count) drawn.1 := by
  induction count generalizing taken r with
  | zero =>
    obtain rfl := Option.some.inj h
    exact ⟨rfl, hn, hlt⟩
  | succ count ih =>
    obtain ⟨⟨i, r'⟩, hi, h⟩ := Option.bind_eq_some_iff.mp h
    obtain ⟨hbelow, hfree⟩ := Width.untaken_lt_and_free (by omega) hi
    have hn' : (taken ++ [i]).Nodup :=
      (List.perm_append_singleton _ taken).nodup_iff.mpr (List.nodup_cons.mpr ⟨hfree, hn⟩)
    have hlt' : ∀ k ∈ taken ++ [i], k < length := by
      intro k hk
      rcases List.mem_append.mp hk with hk | hk
      · exact hlt k hk
      · exact List.mem_singleton.mp hk ▸ hbelow
    have hlength : (taken ++ [i]).length = taken.length + 1 := List.length_append
    have hscattered := ih (by omega) hn' hlt' h
    rwa [hlength, Nat.add_assoc, Nat.add_comm 1] at hscattered

/-- A grown sample is the list that was grown, up to its order. -/
lemma isSample_of_sampleByGrowth {length amount : Nat} (hle : amount ≤ length) {r : ρ}
    {drawn : List Nat × ρ} (h : sampleByGrowth length amount r = some drawn) :
    IsSample length amount drawn.1 := by
  obtain ⟨⟨taken, r'⟩, htaken, h⟩ := Option.bind_eq_some_iff.mp h
  have hgrown := isSample_of_grow List.nodup_nil (fun _ hi => absurd hi List.not_mem_nil) htaken
  rw [Nat.sub_add_cancel hle, List.length_nil, Nat.zero_add] at hgrown
  dsimp only at h
  split at h
  · obtain rfl := Option.some.inj h
    exact hgrown
  · obtain ⟨⟨shuffled, r''⟩, hshuffled, h⟩ := Option.bind_eq_some_iff.mp h
    obtain rfl := Option.some.inj h
    have hperm := Array.perm_iff_toList_perm.mp (shuffleBack_perm hshuffled)
    exact hgrown.perm hperm

lemma isSample_of_sampleByShuffle {length amount : Nat} (hle : amount ≤ length) {r : ρ}
    {drawn : List Nat × ρ} (h : sampleByShuffle length amount r = some drawn) :
    IsSample length amount drawn.1 := by
  obtain ⟨⟨shuffled, r'⟩, hshuffled, h⟩ := Option.bind_eq_some_iff.mp h
  obtain rfl := Option.some.inj h
  have hperm : shuffled.toList.Perm (List.range length) := by
    simpa using Array.perm_iff_toList_perm.mp (shuffleFront_perm hshuffled)
  refine ⟨?_, ?_, fun i hi => ?_⟩
  · rw [List.length_take, hperm.length_eq, List.length_range, Nat.min_eq_left hle]
  · exact (hperm.nodup_iff.mpr List.nodup_range).sublist (List.take_sublist amount _)
  · exact List.mem_range.mp (hperm.mem_iff.mp (List.mem_of_mem_take hi))

theorem isSample_of_sample? {length amount : Nat} (hle : amount ≤ length) {r : ρ}
    {drawn : List Nat × ρ} (h : sample? length amount r = some drawn) :
    IsSample length amount drawn.1 := by
  unfold sample? at h
  split at h
  · exact isSample_of_sampleByGrowth hle h
  · exact isSample_of_sampleByShuffle hle h
  · have hscattered := isSample_of_scatter (by simpa using hle) List.nodup_nil
      (fun _ hi => absurd hi List.not_mem_nil) h
    rwa [List.length_nil, Nat.zero_add] at hscattered

lemma sample_of_sample? {length amount : Nat} {r : ρ} {drawn : List Nat × ρ}
    (h : sample? length amount r = some drawn) : sample length amount r = drawn := by
  rw [sample, h, Option.getD_some]

theorem isSample_sample {length amount : Nat} (hle : amount ≤ length) (r : ρ) :
    IsSample length amount (sample length amount r).1 := by
  cases hdrawn : sample? length amount r with
  | none =>
    rw [sample, hdrawn, Option.getD_none]
    exact isSample_range hle
  | some drawn =>
    rw [sample_of_sample? hdrawn]
    exact isSample_of_sample? hle hdrawn

end ExperienceCollection.Random
