import ExperienceCollection.Proofs.Store.Eviction

/-!
# Puts to a full rolling store

A rolling write starts at `size - capacity`, so in a full store every batch starts at the first slot
again. Batches are laid over each other there: a slot shows the last batch that is long enough to
reach it, and the slots that no batch reaches stay as they were, however many batches come.
-/

namespace ExperienceCollection

variable {ν ρ : Type}

/-- The last of some batches that has more than `i` rows. -/
def lastReaching? (batches : List (Batch ν)) (i : Nat) : Option (Batch ν) :=
  batches.reverse.find? fun b => i < b.rowCount

@[simp] lemma lastReaching?_nil (i : Nat) : lastReaching? ([] : List (Batch ν)) i = none := rfl

lemma lastReaching?_cons (b : Batch ν) (batches : List (Batch ν)) (i : Nat) :
    lastReaching? (b :: batches) i =
      (lastReaching? batches i).or (if i < b.rowCount then some b else none) := by
  simp [lastReaching?, List.find?_append]

lemma lastReaching?_eq_none_iff {batches : List (Batch ν)} {i : Nat} :
    lastReaching? batches i = none ↔ ∀ b ∈ batches, b.rowCount ≤ i := by
  simp [lastReaching?]

/-- The calls that put batches one after another and name no victims. -/
def puts (batches : List (Batch ν)) : List (Call ν) := batches.map fun b => .put b none

namespace Store

/-- `t'` is `t` after batches were laid over its columns one upon another, each from the first slot
on. -/
structure Layered (t : Store ν ρ) (batches : List (Batch ν)) (t' : Store ν ρ) : Prop where
  keys : t'.columns.keys = t.columns.keys
  covered : ∀ key column', t'.columns.get? key = some column' →
    ∀ i b, lastReaching? batches i = some b →
      ∃ values v, b.get? key = some values ∧ values[i]? = some v ∧ column'[i]? = some (some v)
  bare : ∀ key column column', t.columns.get? key = some column →
    t'.columns.get? key = some column' →
      ∀ i, lastReaching? batches i = none → column'[i]? = column[i]?

lemma layered_nil (t : Store ν ρ) : t.Layered [] t where
  keys := rfl
  covered := by simp
  bare := by
    intro key column column' hcolumn hcolumn' i _
    rw [Option.some.inj (hcolumn.symm.trans hcolumn')]

/-- Rows that went to the places from zero on are one layer. -/
lemma Stored.layered {t t' : Store ν ρ} {b : Batch ν} (hs : t.Valid)
    (h : t.Stored b (List.range b.rowCount) t') : t.Layered [b] t' where
  keys := h.keys
  covered := by
    intro key column' hcolumn' i c hc
    obtain ⟨_, values, -, hvalues, -, hslots⟩ := h.column key column' hcolumn'
    have hreach : i < b.rowCount ∧ b = c := by simpa [lastReaching?] using hc
    obtain ⟨hi, rfl⟩ := hreach
    have hlast : LastAt (List.range b.rowCount) i i := by
      apply lastAt_of_nodup List.nodup_range
      rw [List.getElem?_range hi]
    have hlt : i < values.length := by rwa [h.rows key values hvalues]
    have hv : values[i]? = some values[i] := List.getElem?_eq_getElem hlt
    refine ⟨values, _, hvalues, hv, Column.slot_eq_some.mp ?_⟩
    rw [hslots.written i i hlast, hv]
  bare := by
    intro key column column' hcolumn hcolumn' i hi
    obtain ⟨column₀, values, hcolumn₀, -, hlen', hslots⟩ := h.column key column' hcolumn'
    obtain rfl := Option.some.inj (hcolumn₀.symm.trans hcolumn)
    have hout : i ∉ List.range b.rowCount := by
      rw [lastReaching?_eq_none_iff] at hi
      have hle := hi b (by simp)
      rw [List.mem_range]
      omega
    exact h.getElem?_kept hs (hs.length key column₀ hcolumn) hlen' hslots hout

/-- Layers that come later lie above. -/
lemma Layered.cons {t t₁ t' : Store ν ρ} {b : Batch ν} {batches : List (Batch ν)}
    (hfirst : t.Layered [b] t₁) (hrest : t₁.Layered batches t') :
    t.Layered (b :: batches) t' where
  keys := hrest.keys.trans hfirst.keys
  covered := by
    intro key column' hcolumn' i c hc
    rw [lastReaching?_cons] at hc
    cases hlater : lastReaching? batches i with
    | some d =>
      rw [hlater, Option.some_or] at hc
      exact hrest.covered key column' hcolumn' i c (hlater.trans hc)
    | none =>
      obtain ⟨column₁, hcolumn₁⟩ := KeyMap.exists_get?_of_mem_keys
        (hrest.keys ▸ KeyMap.mem_keys_of_get? hcolumn' : key ∈ t₁.columns.keys)
      have hb : lastReaching? [b] i = some c := by simpa [hlater, lastReaching?_cons] using hc
      obtain ⟨values, v, hvalues, hv, hslot⟩ := hfirst.covered key column₁ hcolumn₁ i c hb
      refine ⟨values, v, hvalues, hv, ?_⟩
      rw [hrest.bare key column₁ column' hcolumn₁ hcolumn' i hlater, hslot]
  bare := by
    intro key column column' hcolumn hcolumn' i hi
    obtain ⟨column₁, hcolumn₁⟩ := KeyMap.exists_get?_of_mem_keys
      (hfirst.keys.symm ▸ KeyMap.mem_keys_of_get? hcolumn : key ∈ t₁.columns.keys)
    rw [lastReaching?_eq_none_iff, List.forall_mem_cons] at hi
    have hb : lastReaching? [b] i = none := lastReaching?_eq_none_iff.mpr (by simpa using hi.1)
    have hlater : lastReaching? batches i = none := lastReaching?_eq_none_iff.mpr hi.2
    rw [hrest.bare key column₁ column' hcolumn₁ hcolumn' i hlater,
      hfirst.bare key column column₁ hcolumn hcolumn₁ i hb]

/-- A rolling store all of whose slots are in use. -/
structure Saturated (t : Store ν ρ) (capacity : Nat) : Prop where
  valid : t.Valid
  layout : t.layout = .bounded capacity .rolling
  size : t.size = capacity

variable [Random.Source ρ]

/-- A full store takes a batch from its first slot on. -/
lemma Plans.of_full {capacity added : Nat} {random random' : ρ} {places : List Nat}
    (h : Plans capacity capacity added .rolling none random (.ok places, random')) :
    places = List.range added := by
  cases h with
  | fits fit =>
    obtain rfl : added = 0 := by omega
    rfl
  | obeys named bound excess given => cases given
  | rolls bound excess =>
    rw [rollingIndexes_eq le_rfl bound excess, Nat.sub_self, Nat.add_sub_cancel_left]
    rfl
  | draws bound excess absent hpolicy => cases hpolicy

lemma Saturated.put_places {t : Store ν ρ} {capacity : Nat} (h : t.Saturated capacity)
    {b : Batch ν} {places : List Nat} (hok : (t.put b none).answer = .ok places) :
    places = List.range b.rowCount := by
  have hputs := put_puts t b none
  have hlayout := h.layout
  generalize t.put b none = reply at hputs hok
  cases hputs with
  | appends added schema count layout =>
    rw [layout] at hlayout
    cases hlayout
  | writes added capacity' policy places' random schema count layout plan =>
    obtain ⟨rfl, rfl⟩ := Layout.bounded.inj (layout.symm.trans hlayout)
    obtain rfl := Except.ok.inj hok
    obtain ⟨rfl, -⟩ := Batch.length_of_commonLength count
    have hplans := planIndexes_plans capacity' t.size b.rowCount .rolling none t.random
    rw [plan, h.size] at hplans
    exact hplans.of_full
  | _ => cases hok

/-- A put leaves a full store full and adds a layer. -/
lemma Saturated.put {t : Store ν ρ} {capacity : Nat} (h : t.Saturated capacity) {b : Batch ν}
    {places : List Nat} (hok : (t.put b none).answer = .ok places) :
    (t.put b none).store.Saturated capacity ∧ t.Layered [b] (t.put b none).store := by
  have hst := put_stored h.valid hok
  have hlayout := h.valid.layout
  rw [h.layout] at hlayout
  have hsize : (t.put b none).store.size = capacity := by
    rw [hst.size, layout_bounded hlayout, h.size, Capacity.clamp]
    omega
  rw [h.put_places hok] at hst
  exact ⟨⟨put_valid h.valid b none, hst.layout.trans h.layout, hsize⟩, hst.layered h.valid⟩

/-- What a run of puts does to a full store. -/
lemma Saturated.run {t : Store ν ρ} {capacity : Nat} (h : t.Saturated capacity)
    {batches : List (Batch ν)} (hok : ∀ k b, batches[k]? = some b →
      ∃ places, ((t.run (puts (batches.take k))).put b none).answer = .ok places) :
    (∀ k b, batches[k]? = some b →
        ((t.run (puts (batches.take k))).put b none).answer = .ok (List.range b.rowCount)) ∧
      t.Layered batches (t.run (puts batches)) := by
  induction batches generalizing t with
  | nil => exact ⟨by simp, layered_nil t⟩
  | cons b batches ih =>
    obtain ⟨places, hplaces⟩ : ∃ places, (t.put b none).answer = .ok places := hok 0 b rfl
    obtain ⟨hfull, hfirst⟩ := h.put hplaces
    obtain ⟨hanswers, hrest⟩ := ih hfull fun k c hc => hok (k + 1) c hc
    refine ⟨fun k c hc => ?_, hfirst.cons hrest⟩
    cases k with
    | zero =>
      obtain rfl : b = c := Option.some.inj hc
      change (t.put b none).answer = _
      rw [hplaces, h.put_places hplaces]
    | succ k => exact hanswers k c hc

/-- However a rolling store became full: when batches are put to it one after another, and no
victims are named, each of them is written to the places from zero on. Afterwards a slot of a column
holds the row of its own number from the last batch that has as many rows, and what it held before
if there is no such batch. So the slots that are beyond all the batches are never overwritten. -/
theorem layers_of_run {config : StoreConfig} {random : ρ} {s : Store ν ρ}
    (h : create config random = .ok s) (calls : List (Call ν)) {capacity : Nat}
    (hcapacity : config.capacity = .bounded capacity) (hpolicy : config.policy = some .rolling)
    (hfull : (s.run calls).size = capacity) (batches : List (Batch ν))
    (hok : ∀ k b, batches[k]? = some b →
      ∃ places, (((s.run calls).run (puts (batches.take k))).put b none).answer = .ok places) :
    let t := s.run calls
    let t' := t.run (puts batches)
    (∀ k b, batches[k]? = some b →
        ((t.run (puts (batches.take k))).put b none).answer = .ok (List.range b.rowCount)) ∧
      t.Layered batches t' ∧
      ∀ bound, (∀ b ∈ batches, b.rowCount ≤ bound) →
        ∀ key column column', t.columns.get? key = some column →
          t'.columns.get? key = some column' → ∀ i, bound ≤ i → column'[i]? = column[i]? := by
  intro t t'
  have hvalid : t.Valid := run_valid (create_valid h) calls
  have hconfig : t.config = config := (run_config s calls).trans (create_config h)
  have hlayout := hvalid.layout
  rw [hconfig] at hlayout
  have hsaturated : t.Saturated capacity :=
    ⟨hvalid, layout_eq_bounded hlayout hcapacity hpolicy, hfull⟩
  obtain ⟨hanswers, hlayered⟩ := hsaturated.run hok
  refine ⟨hanswers, hlayered, ?_⟩
  intro bound hbound key column column' hcolumn hcolumn' i hi
  apply hlayered.bare key column column' hcolumn hcolumn'
  rw [lastReaching?_eq_none_iff]
  exact fun b hb => (hbound b hb).trans hi

def shrinkingBatches : List (Batch Nat) := [pairBatch [10, 11] [20, 21], pairBatch [12] [22]]

/-- A batch of two rows and then one of one row: the first slot shows the second batch, the next one
still shows the first batch, and the last one is not overwritten. -/
theorem layers_of_shrinkingBatches :
    (create pairConfig {} : Except StoreError (Store Nat Random.WordStream)) = .ok pairStore ∧
      (pairStore.run pairCalls).size = 3 ∧
      (((pairStore.run pairCalls).run (puts (shrinkingBatches.take 1))).put
        (pairBatch [12] [22]) none).answer = .ok [0] ∧
      ∀ column, ((pairStore.run pairCalls).run (puts shrinkingBatches)).columns.get? "a" =
          some column →
        column[0]? = some (some 22) ∧ column[1]? = some (some 21) ∧ column[2]? = some (some 9) := by
  have h : (create pairConfig {} : Except StoreError (Store Nat Random.WordStream)) =
      .ok pairStore := rfl
  have hok : ∀ k b, shrinkingBatches[k]? = some b →
      ∃ places, (((pairStore.run pairCalls).run (puts (shrinkingBatches.take k))).put b
        none).answer = .ok places := by
    intro k b hb
    match k with
    | 0 =>
      obtain rfl := Option.some.inj hb
      exact ⟨[0, 1], rfl⟩
    | 1 =>
      obtain rfl := Option.some.inj hb
      exact ⟨[0], rfl⟩
    | k + 2 => simp [shrinkingBatches] at hb
  have hfull : (pairStore.run pairCalls).size = 3 := rfl
  obtain ⟨hanswers, hlayered, hbeyond⟩ :=
    layers_of_run h pairCalls rfl rfl hfull shrinkingBatches hok
  refine ⟨h, hfull, hanswers 1 (pairBatch [12] [22]) rfl, fun column hcolumn => ⟨?_, ?_, ?_⟩⟩
  · have hlast : lastReaching? shrinkingBatches 0 = some (pairBatch [12] [22]) := rfl
    obtain ⟨values, v, hvalues, hv, hslot⟩ := hlayered.covered "a" column hcolumn 0 _ hlast
    have hget : (pairBatch [12] [22]).get? "a" = some [22] := rfl
    rw [hget] at hvalues
    obtain rfl := Option.some.inj hvalues
    rw [hslot, ← hv]
    rfl
  · have hlast : lastReaching? shrinkingBatches 1 = some (pairBatch [10, 11] [20, 21]) := rfl
    obtain ⟨values, v, hvalues, hv, hslot⟩ := hlayered.covered "a" column hcolumn 1 _ hlast
    have hget : (pairBatch [10, 11] [20, 21]).get? "a" = some [20, 21] := rfl
    rw [hget] at hvalues
    obtain rfl := Option.some.inj hvalues
    rw [hslot, ← hv]
    rfl
  · have hbound : ∀ b ∈ shrinkingBatches, b.rowCount ≤ 2 := by decide
    have hbefore : (pairStore.run pairCalls).columns.get? "a" =
        some [some 10, some 6, some 9] := rfl
    rw [hbeyond 2 hbound "a" _ column hbefore hcolumn 2 le_rfl]
    rfl

end Store

end ExperienceCollection
