import ExperienceCollection.Proofs.Store.Draws

/-!
# Reading back what was put

A put that succeeds answers with one place for each row. Each place holds the last row that was
sent there, and all other slots are as they were. If no place repeats, reading the places that a
put has answered with gives back its batch. Places repeat only if the caller asks for it.
-/

namespace ExperienceCollection

variable {ν ρ : Type}

/-- Where no place repeats, every row is the last one at its place. -/
lemma lastAt_of_nodup {places : List Nat} {i r : Nat} (hn : places.Nodup)
    (hr : places[r]? = some i) : LastAt places i r := by
  refine ⟨hr, ?_⟩
  intro k hk he
  obtain ⟨hlt, -⟩ := List.getElem?_eq_some_iff.mp hr
  exact hk.ne ((List.getElem?_inj hlt hn).mp (hr.trans he.symm))

namespace Column

lemma getElem?_eq_of_slot {column column' : Column ν} {i : Nat}
    (hlt : i < column'.length ↔ i < column.length) (h : column'.slot i = column.slot i) :
    column'[i]? = column[i]? := by
  by_cases hi : i < column.length
  · have hi' := hlt.mpr hi
    rw [slot, slot, List.getElem?_eq_getElem hi, List.getElem?_eq_getElem hi'] at h
    rw [List.getElem?_eq_getElem hi, List.getElem?_eq_getElem hi']
    exact congrArg some h
  · rw [List.getElem?_eq_none (Nat.not_lt.mp hi),
      List.getElem?_eq_none (Nat.not_lt.mp (mt hlt.mp hi))]

/-- Different places give back the values written there. -/
lemma Stored.project {column column' : Column ν} {values : List ν} {places : List Nat}
    (h : column.Stored values places column') (hlen : places.length = values.length)
    (hn : places.Nodup) : column'.project places = values.map some := by
  rw [project_eq_map]
  apply List.ext_getElem
  · rw [List.length_map, List.length_map, hlen]
  · intro r hr hr'
    rw [List.length_map] at hr hr'
    have hlast : LastAt places places[r] r := lastAt_of_nodup hn (List.getElem?_eq_getElem hr)
    rw [List.getElem_map, List.getElem_map]
    exact (h.written _ r hlast).trans (List.getElem?_eq_getElem hr')

end Column

namespace Store

/-- A slot that is not written keeps its contents, empty or not. -/
lemma Stored.getElem?_kept {s s' : Store ν ρ} {b : Batch ν} {places : List Nat}
    (h : s.Stored b places s') (hs : s.Valid) {column column' : Column ν} {values : List ν}
    (hlen : column.length = s.physicalLength) (hlen' : column'.length = s'.physicalLength)
    (hst : column.Stored values places column') {i : Nat} (hi : i ∉ places) :
    column'[i]? = column[i]? := by
  apply Column.getElem?_eq_of_slot _ (hst.kept i hi)
  have hle := h.size_le hs
  rw [hlen, hlen', physicalLength, physicalLength, h.layout]
  cases s.layout with
  | bounded capacity policy => rfl
  | unbounded =>
    dsimp only
    constructor
    · intro hlt
      by_contra hge
      exact hi (h.placement.covers i (Nat.not_lt.mp hge) hlt)
    · intro hlt
      omega

lemma Valid.columnLength_eq {s : Store ν ρ} (hs : s.Valid) (hne : s.columns.keys ≠ []) :
    s.columnLength = s.physicalLength := by
  cases hentries : s.columns.entries with
  | nil => exact (hne (by rw [KeyMap.keys, hentries]; rfl)).elim
  | cons e rest =>
    have hget : s.columns.get? e.1 = some e.2 := by
      rw [KeyMap.get?, hentries]
      exact List.lookup_cons_self
    rw [columnLength, KeyMap.values, hentries]
    exact hs.length e.1 e.2 hget

/-- A store without columns takes no rows, so a place that was written lies in a column. -/
lemma Stored.below_columnLength {s s' : Store ν ρ} {b : Batch ν} {places : List Nat}
    (h : s.Stored b places s') (hs' : s'.Valid) {i : Nat} (hi : i ∈ places) :
    i < s'.columnLength := by
  have hne : s'.columns.keys ≠ [] := by
    intro hnil
    have hb : b.entries = [] := by
      apply List.map_eq_nil_iff.mp
      exact h.schema.trans (h.keys.symm.trans hnil)
    have hrows : b.rowCount = 0 := by rw [Batch.rowCount, KeyMap.values, hb]; rfl
    have hlen := h.placement.length
    rw [hrows] at hlen
    rw [List.length_eq_zero_iff.mp hlen] at hi
    exact List.not_mem_nil hi
  rw [hs'.columnLength_eq hne]
  exact (h.placement.below i hi).trans_le hs'.size_le

/-- Reading the places of a put, if none repeats, gives back the batch. -/
lemma Stored.get_places {s s' : Store ν ρ} {b : Batch ν} {places : List Nat}
    (h : s.Stored b places s') (hs' : s'.Valid) (hn : places.Nodup) :
    s'.get (some places) = .ok (b.map fun _ values => values.map some) := by
  have hbounds : places.find? (fun i => s'.columnLength ≤ i) = none := by
    rw [List.find?_eq_none]
    intro i hi
    have hlt := h.below_columnLength hs' hi
    simpa using hlt
  rw [Store.get, hbounds]
  dsimp only
  congr 1
  apply KeyMap.ext_get?
  · rw [KeyMap.keys_map, KeyMap.keys_map, h.keys, h.schema]
  · intro key
    rw [KeyMap.get?_map, KeyMap.get?_map]
    cases hcolumn' : s'.columns.get? key with
    | none =>
      have hkey : key ∉ b.keys := by
        rw [h.schema, ← h.keys, KeyMap.mem_keys_iff, hcolumn']
        simp
      have hvalues : b.get? key = none := by simpa [KeyMap.mem_keys_iff] using hkey
      rw [hvalues]
      rfl
    | some column' =>
      obtain ⟨column, values, -, hvalues, -, hst⟩ := h.column key column' hcolumn'
      have hlen : places.length = values.length := by
        rw [h.placement.length, h.rows key values hvalues]
      rw [hvalues, Option.map_some, Option.map_some, hst.project hlen hn]

section

variable [Random.Source ρ]

/-- Places repeat only in a put that overflows its store with victims that repeat a place or were
not in use. -/
lemma put_nodup {s : Store ν ρ} (hs : s.Valid) {b : Batch ν} {victims : Option (List Nat)}
    {places : List Nat} (hok : (s.put b victims).answer = .ok places)
    (hv : ∀ limit, s.config.capacity = .bounded limit → limit < s.size + b.rowCount →
      ∀ vs, victims = some vs → vs.Nodup ∧ ∀ i ∈ vs, i < s.size) : places.Nodup := by
  have hputs := put_puts s b victims
  generalize s.put b victims = reply at hputs hok
  cases hputs with
  | appends added schema count layout =>
    obtain rfl := Except.ok.inj hok
    exact List.nodup_range'
  | writes added capacity policy places' random schema count layout plan =>
    obtain rfl := Except.ok.inj hok
    obtain ⟨rfl, -⟩ := Batch.length_of_commonLength count
    have hlayout := hs.layout
    rw [layout] at hlayout
    exact planIndexes_nodup plan (hv capacity (layout_bounded hlayout))
  | _ => cases hok

/-- Whatever happened before: a put that succeeds answers with one place for each row, within the
columns. In every column each of these places holds the last value that was sent there and the other
slots are as before. If the store chose the places itself, if the batch did not overflow it, or if
the victims are different places in use, then no place repeats and reading the places gives back the
batch. -/
theorem read_back_of_run {config : StoreConfig} {random : ρ} {s : Store ν ρ}
    (h : create config random = .ok s) (calls : List (Call ν)) {batch : Batch ν}
    {victims : Option (List Nat)} {places : List Nat}
    (hok : ((s.run calls).put batch victims).answer = .ok places) :
    let t := s.run calls
    let t' := (t.put batch victims).store
    places.length = batch.rowCount ∧ (∀ i ∈ places, i < t'.physicalLength) ∧
      t'.columns.keys = batch.keys ∧
      (∀ key column', t'.columns.get? key = some column' →
        ∃ column values, t.columns.get? key = some column ∧ batch.get? key = some values ∧
          values.length = batch.rowCount ∧ column'.length = t'.physicalLength ∧
          (∀ i ∈ places, ∃ r v, LastAt places i r ∧ values[r]? = some v ∧
            column'[i]? = some (some v)) ∧
          ∀ i, i ∉ places → column'[i]? = column[i]?) ∧
      (victims = none ∨ config.capacity = .unbounded ∨
          (∃ limit, config.capacity = .bounded limit ∧ t.size + batch.rowCount ≤ limit) ∨
          (∃ vs, victims = some vs ∧ vs.Nodup ∧ ∀ i ∈ vs, i < t.size) →
        places.Nodup ∧
          t'.get (some places) = .ok (batch.map fun _ values => values.map some)) := by
  intro t t'
  have hvalid : t.Valid := run_valid (create_valid h) calls
  have hvalid' : t'.Valid := put_valid hvalid batch victims
  have hst : t.Stored batch places t' := put_stored hvalid hok
  have hconfig : t.config = config := (run_config s calls).trans (create_config h)
  refine ⟨hst.placement.length, ?_, hst.keys.trans hst.schema.symm, ?_, ?_⟩
  · intro i hi
    exact (hst.placement.below i hi).trans_le hvalid'.size_le
  · intro key column' hcolumn'
    obtain ⟨column, values, hcolumn, hvalues, hlen', hslots⟩ := hst.column key column' hcolumn'
    have hrows := hst.rows key values hvalues
    refine ⟨column, values, hcolumn, hvalues, hrows, hlen', ?_, ?_⟩
    · intro i hi
      obtain ⟨r, hr⟩ := exists_lastAt hi
      have hlt : r < values.length := by
        rw [hrows, ← hst.placement.length]
        exact (List.getElem?_eq_some_iff.mp hr.1).1
      have hv : values[r]? = some values[r] := List.getElem?_eq_getElem hlt
      refine ⟨r, values[r], hr, hv, Column.slot_eq_some.mp ?_⟩
      rw [hslots.written i r hr, hv]
    · intro i hi
      exact hst.getElem?_kept hvalid (hvalid.length key column hcolumn) hlen' hslots hi
  · intro hchoice
    have hnodup : places.Nodup := by
      apply put_nodup hvalid hok
      intro limit hlimit hover vs hvs
      rw [hconfig] at hlimit
      rcases hchoice with hnone | hunbounded | ⟨limit', hlimit', hfit⟩ | ⟨vs', hvs', hdistinct⟩
      · rw [hvs] at hnone
        cases hnone
      · rw [hlimit] at hunbounded
        cases hunbounded
      · rw [hlimit] at hlimit'
        cases hlimit'
        exact absurd hover (Nat.not_lt.mpr hfit)
      · rw [hvs] at hvs'
        cases hvs'
        exact hdistinct
    exact ⟨hnodup, hst.get_places hvalid' hnodup⟩

/-- A full store is left to pick two of its three places. -/
theorem read_back_of_lotteryCalls :
    (create lotteryConfig {} : Except StoreError (Store Nat Random.WordStream)) =
        .ok lotteryStore ∧
      ((lotteryStore.run lotteryCalls).put (pairBatch [7, 8] [9, 10]) none).answer = .ok [0, 2] ∧
      ((lotteryStore.run lotteryCalls).put (pairBatch [7, 8] [9, 10]) none).store.get
          (some [0, 2]) =
        .ok ((pairBatch [7, 8] [9, 10]).map fun _ values => values.map some) := by
  have h : (create lotteryConfig {} : Except StoreError (Store Nat Random.WordStream)) =
      .ok lotteryStore := rfl
  have hok : ((lotteryStore.run lotteryCalls).put (pairBatch [7, 8] [9, 10]) none).answer =
      .ok [0, 2] := congrArg Except.ok next_victims
  obtain ⟨-, -, -, -, hread⟩ := read_back_of_run h lotteryCalls hok
  exact ⟨h, hok, (hread (.inl rfl)).2⟩

end

end Store

end ExperienceCollection
