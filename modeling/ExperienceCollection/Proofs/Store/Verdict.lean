import ExperienceCollection.Proofs.Store.History

/-!
# The verdict on a put

Whether a put succeeds is decided by the configuration, the size of the store, the batch and the
victims that are named. A put that fails reports the first of its faults: another set of columns,
columns of different lengths, more rows than a bounded store holds, and, if the batch overflows it,
the wrong number of victims or a victim outside the store.
-/

namespace ExperienceCollection

variable {ν ρ : Type}

/-- `sorted` lists the given names, each of them once and in ascending order. -/
structure Sorts (sorted names : List String) : Prop where
  ascending : sorted.Pairwise (· < ·)
  mem : ∀ name, name ∈ sorted ↔ name ∈ names

lemma Sorts.unique {ks ls names : List String} (hk : Sorts ks names) (hl : Sorts ls names) :
    ks = ls := by
  apply KeyMap.eq_of_ascending hk.ascending hl.ascending
  have hkn : ks.Nodup := hk.ascending.imp Std.ne_of_lt
  have hln : ls.Nodup := hl.ascending.imp Std.ne_of_lt
  rw [List.perm_ext_iff_of_nodup hkn hln]
  intro name
  rw [hk.mem, hl.mem]

lemma KeyMap.sorts_keys {α : Type} (m : KeyMap α) : Sorts m.keys m.keys :=
  ⟨m.ascending, fun _ => .rfl⟩

namespace Batch

/-- The batch names the given columns and no others, with `count` values for each. -/
structure Conforms (b : Batch ν) (names : List String) (count : Nat) : Prop where
  keys : ∀ key, key ∈ b.keys ↔ key ∈ names
  rows : ∀ key values, b.get? key = some values → values.length = count

/-- The column of the least name, `reference`, has `expected` values, and `odd` is the least name of
a column with another number of values, `actual`. -/
structure Ragged (b : Batch ν) (reference : String) (expected : Nat) (odd : String)
    (actual : Nat) : Prop where
  first : ∃ values, b.get? reference = some values ∧ values.length = expected
  first_least : ∀ key, key ∈ b.keys → reference ≤ key
  other : ∃ values, b.get? odd = some values ∧ values.length = actual
  differs : actual ≠ expected
  other_least : ∀ key values, b.get? key = some values → values.length ≠ expected → odd ≤ key

/-- Names are needed here: a batch without any has zero values for each, and any other number. -/
lemma Conforms.commonLength {b : Batch ν} {names : List String} {count : Nat}
    (h : b.Conforms names count) (hne : names ≠ []) : b.commonLength = .ok count := by
  obtain ⟨name, hname⟩ := List.exists_mem_of_ne_nil names hne
  have hkey := (h.keys name).mpr hname
  cases hb : b.entries with
  | nil =>
    rw [KeyMap.keys, hb] at hkey
    cases hkey
  | cons e rest =>
    obtain ⟨reference, first⟩ := e
    have hlen {key : String} {values : List ν} (hmem : (key, values) ∈ b.entries) :
        values.length = count := h.rows key values (KeyMap.get?_eq_some_iff.mpr hmem)
    have hfirst : first.length = count := hlen (hb ▸ List.mem_cons_self)
    have hnone : (rest.find? fun e => e.2.length ≠ first.length) = none := by
      rw [List.find?_eq_none]
      rintro ⟨key, values⟩ hmem
      have heq : values.length = first.length :=
        (hlen (hb ▸ List.mem_cons_of_mem _ hmem)).trans hfirst.symm
      simpa using heq
    rw [Batch.commonLength, hb]
    dsimp only
    rw [hnone, ← hfirst]

/-- A batch without a common length is refused for the first of its columns that differs. -/
lemma ragged_of_commonLength {b : Batch ν} {e : StoreError} (h : b.commonLength = .error e) :
    ∃ reference expected odd actual, e = .columnLengthMismatch reference expected odd actual ∧
      b.Ragged reference expected odd actual := by
  cases hb : b.entries with
  | nil =>
    rw [commonLength, hb] at h
    cases h
  | cons e' rest =>
    obtain ⟨reference, first⟩ := e'
    rw [commonLength, hb] at h
    dsimp only at h
    have hfirst : (b.entries.find? fun _ => true) = some (reference, first) := by rw [hb]; rfl
    obtain ⟨hget, -, hleast⟩ := KeyMap.least_of_find? (p := fun _ => true) hfirst
    cases hfind : rest.find? fun e => e.2.length ≠ first.length with
    | none =>
      rw [hfind] at h
      cases h
    | some o =>
      obtain ⟨odd, other⟩ := o
      rw [hfind] at h
      have hodd : (b.entries.find? fun e => e.2.length ≠ first.length) = some (odd, other) := by
        rw [hb, List.find?_cons_of_neg (by simp), hfind]
      obtain ⟨hgeto, hdiffers, hleasto⟩ :=
        KeyMap.least_of_find? (p := fun values : List ν => values.length ≠ first.length) hodd
      refine ⟨reference, first.length, odd, other.length, (Except.error.inj h).symm,
        ⟨first, hget, rfl⟩, ?_, ⟨other, hgeto, rfl⟩, of_decide_eq_true hdiffers, ?_⟩
      · intro key hkey
        obtain ⟨values, hvalues⟩ := KeyMap.exists_get?_of_mem_keys hkey
        exact hleast key values hvalues rfl
      · intro key values hvalues hne
        exact hleasto key values hvalues (decide_eq_true hne)

/-- A batch is ragged in one way only. -/
lemma Ragged.unique {b : Batch ν} {reference reference' odd odd' : String}
    {expected expected' actual actual' : Nat} (h : b.Ragged reference expected odd actual)
    (h' : b.Ragged reference' expected' odd' actual') :
    StoreError.columnLengthMismatch reference expected odd actual =
      .columnLengthMismatch reference' expected' odd' actual' := by
  obtain ⟨first, hfirst, rfl⟩ := h.first
  obtain ⟨first', hfirst', rfl⟩ := h'.first
  have href : reference = reference' := String.le_antisymm
    (h.first_least reference' (KeyMap.mem_keys_of_get? hfirst'))
    (h'.first_least reference (KeyMap.mem_keys_of_get? hfirst))
  subst href
  obtain rfl : first = first' := Option.some.inj (hfirst.symm.trans hfirst')
  obtain ⟨other, hother, rfl⟩ := h.other
  obtain ⟨other', hother', rfl⟩ := h'.other
  have hodd : odd = odd' := String.le_antisymm
    (h.other_least odd' other' hother' h'.differs) (h'.other_least odd other hother h.differs)
  subst hodd
  obtain rfl : other = other' := Option.some.inj (hother.symm.trans hother')
  rfl

lemma Ragged.commonLength {b : Batch ν} {reference odd : String} {expected actual : Nat}
    (h : b.Ragged reference expected odd actual) :
    b.commonLength = .error (.columnLengthMismatch reference expected odd actual) := by
  cases hcount : b.commonLength with
  | ok count =>
    obtain ⟨-, hrows⟩ := length_of_commonLength hcount
    obtain ⟨first, hfirst, hexpected⟩ := h.first
    obtain ⟨other, hother, hactual⟩ := h.other
    rw [hrows _ _ hfirst] at hexpected
    rw [hrows _ _ hother] at hactual
    exact (h.differs (hactual.symm.trans hexpected)).elim
  | error e =>
    obtain ⟨_, _, _, _, rfl, h'⟩ := ragged_of_commonLength hcount
    rw [h'.unique h]

end Batch

namespace Store

/-- A batch of `added` rows that a put takes. Victims are counted and located only if the batch
overflows a bounded store. -/
structure Admits (config : StoreConfig) (size : Nat) (b : Batch ν) (victims : Option (List Nat))
    (added : Nat) : Prop where
  conforms : b.Conforms config.keys added
  bound : ∀ capacity, config.capacity = .bounded capacity → added ≤ capacity
  named : ∀ capacity vs, config.capacity = .bounded capacity → capacity < size + added →
    victims = some vs → vs.length = size + added - capacity ∧ ∀ i ∈ vs, i < capacity

/-- The error of a put that is refused. Each of them comes only where those before it do not. -/
inductive Refuses (config : StoreConfig) (size : Nat) (b : Batch ν) (victims : Option (List Nat)) :
    StoreError → Prop where
  | schema (expected actual : List String) (columns : Sorts expected config.keys)
      (names : Sorts actual b.keys) (differs : ¬∀ key, key ∈ b.keys ↔ key ∈ config.keys) :
      Refuses config size b victims (.schemaMismatch expected actual)
  | ragged (reference : String) (expected : Nat) (odd : String) (actual : Nat)
      (names : ∀ key, key ∈ b.keys ↔ key ∈ config.keys)
      (ragged : b.Ragged reference expected odd actual) :
      Refuses config size b victims (.columnLengthMismatch reference expected odd actual)
  | exceeds (added capacity : Nat) (conforms : b.Conforms config.keys added)
      (bounded : config.capacity = .bounded capacity) (excess : capacity < added) :
      Refuses config size b victims (.capacityExceeded added capacity)
  | miscounts (added capacity : Nat) (vs : List Nat) (conforms : b.Conforms config.keys added)
      (bounded : config.capacity = .bounded capacity) (bound : added ≤ capacity)
      (excess : capacity < size + added) (given : victims = some vs)
      (count : vs.length ≠ size + added - capacity) :
      Refuses config size b victims
        (.overwriteCountMismatch (size + added - capacity) vs.length)
  | misplaces (added capacity : Nat) (front back : List Nat) (index : Nat)
      (conforms : b.Conforms config.keys added) (bounded : config.capacity = .bounded capacity)
      (bound : added ≤ capacity) (excess : capacity < size + added)
      (given : victims = some (front ++ index :: back))
      (count : (front ++ index :: back).length = size + added - capacity)
      (below : ∀ i ∈ front, i < capacity) (beyond : capacity ≤ index) :
      Refuses config size b victims (.indexOutOfBounds index capacity)

lemma create_keys_ne {config : StoreConfig} {random : ρ} {s : Store ν ρ}
    (h : create config random = .ok s) : config.keys ≠ [] := by
  intro hnil
  have hv : config.validate = .error (.invalidConfig .noColumns) := if_pos hnil
  rw [create, hv] at h
  cases h

lemma Valid.sorts_keys {s : Store ν ρ} (hs : s.Valid) : Sorts s.columns.keys s.config.keys :=
  ⟨s.columns.ascending, hs.keys⟩

/-- The schema check compares sets of names. -/
lemma checkSchema_eq_ok_iff {s : Store ν ρ} (hs : s.Valid) {b : Batch ν} :
    s.checkSchema b = .ok () ↔ ∀ key, key ∈ b.keys ↔ key ∈ s.config.keys := by
  constructor
  · intro h key
    rw [checkSchema_ok h, hs.keys]
  · intro h
    have hkeys : b.keys = s.columns.keys := Sorts.unique ⟨b.ascending, h⟩ hs.sorts_keys
    have hsize : b.size = s.columns.size := by
      rw [← KeyMap.length_keys, hkeys, KeyMap.length_keys]
    have hall : b.keys.all s.columns.contains = true := by
      rw [hkeys, List.all_eq_true]
      exact fun key hkey => List.contains_iff_mem.mpr hkey
    rw [checkSchema, hsize, hall]
    simp

lemma checkSchema_eq_error_iff {s : Store ν ρ} (hs : s.Valid) {b : Batch ν} {e : StoreError} :
    s.checkSchema b = .error e ↔
      e = s.schemaMismatch b ∧ ¬∀ key, key ∈ b.keys ↔ key ∈ s.config.keys := by
  rw [← checkSchema_eq_ok_iff hs, checkSchema]
  split <;> simp [eq_comm]

lemma conforms_of_check {s : Store ν ρ} (hs : s.Valid) {b : Batch ν} {added : Nat}
    (hschema : s.checkSchema b = .ok ()) (hcount : b.commonLength = .ok added) :
    b.Conforms s.config.keys added := by
  obtain ⟨rfl, hrows⟩ := Batch.length_of_commonLength hcount
  exact ⟨(checkSchema_eq_ok_iff hs).mp hschema, hrows⟩

/-- A batch that is taken is not refused. -/
lemma Admits.not_refuses {config : StoreConfig} {size added : Nat} {b : Batch ν}
    {victims : Option (List Nat)} {e : StoreError} (hne : config.keys ≠ [])
    (h : Admits config size b victims added) : ¬Refuses config size b victims e := by
  have hcount := h.conforms.commonLength hne
  have hsame {n : Nat} (hn : b.Conforms config.keys n) : n = added :=
    Except.ok.inj ((hn.commonLength hne).symm.trans hcount)
  intro hr
  cases hr with
  | schema expected actual columns names differs => exact differs h.conforms.keys
  | ragged reference expected odd actual names ragged =>
    rw [ragged.commonLength] at hcount
    cases hcount
  | exceeds n capacity conforms bounded excess =>
    obtain rfl := hsame conforms
    exact excess.not_ge (h.bound capacity bounded)
  | miscounts n capacity vs conforms bounded bound excess given count =>
    obtain rfl := hsame conforms
    exact count (h.named capacity vs bounded excess given).1
  | misplaces n capacity front back index conforms bounded bound excess given count below beyond =>
    obtain rfl := hsame conforms
    have hlt := (h.named capacity _ bounded excess given).2 index (by simp)
    exact hlt.not_ge beyond

section

variable [Random.Source ρ] {s : Store ν ρ} {b : Batch ν} {victims : Option (List Nat)}

lemma Plans.refuses {capacity added : Nat} {policy : Policy} {random random' : ρ} {e : StoreError}
    {config : StoreConfig} {size : Nat}
    (h : Plans capacity size added policy victims random (.error e, random'))
    (hconforms : b.Conforms config.keys added) (hbounded : config.capacity = .bounded capacity) :
    Refuses config size b victims e := by
  cases h with
  | exceeds excess => exact .exceeds added capacity hconforms hbounded excess
  | miscounts named bound excess given count =>
    exact .miscounts added capacity named hconforms hbounded bound excess given count
  | misplaces named index bound excess given count first =>
    obtain ⟨hbeyond, front, back, rfl, hfront⟩ := List.find?_eq_some_iff_append.mp first
    refine .misplaces added capacity front back index hconforms hbounded bound excess given count
      ?_ (of_decide_eq_true hbeyond)
    simpa using hfront

/-- What a put answers is what its fault, or the want of one, calls for. -/
lemma Puts.verdict {reply : Reply ν ρ (List Nat)} (h : Puts s b victims reply) (hs : s.Valid) :
    (∀ places, reply.answer = .ok places → ∃ added, Admits s.config s.size b victims added) ∧
      ∀ e, reply.answer = .error e → Refuses s.config s.size b victims e := by
  have hlayout := hs.layout
  cases h with
  | schema e schema =>
    refine ⟨nofun, fun e' he => ?_⟩
    obtain rfl := Except.error.inj he
    obtain ⟨rfl, hdiffers⟩ := (checkSchema_eq_error_iff hs).mp schema
    exact .schema _ _ hs.sorts_keys b.sorts_keys hdiffers
  | ragged e schema count =>
    refine ⟨nofun, fun e' he => ?_⟩
    obtain rfl := Except.error.inj he
    obtain ⟨_, _, _, _, rfl, hragged⟩ := Batch.ragged_of_commonLength count
    exact .ragged _ _ _ _ ((checkSchema_eq_ok_iff hs).mp schema) hragged
  | appends added schema count layout =>
    rw [layout] at hlayout
    have hunbounded := layout_unbounded hlayout
    refine ⟨fun _ _ => ⟨added, conforms_of_check hs schema count, ?_, ?_⟩, nofun⟩ <;>
      simp [hunbounded]
  | refuses added capacity policy e schema count layout plan =>
    rw [layout] at hlayout
    have hplans := planIndexes_plans capacity s.size added policy victims s.random
    rw [plan] at hplans
    refine ⟨nofun, fun e' he => ?_⟩
    obtain rfl := Except.error.inj he
    exact hplans.refuses (conforms_of_check hs schema count) (layout_bounded hlayout)
  | writes added capacity policy places random schema count layout plan =>
    rw [layout] at hlayout
    have hplans := planIndexes_plans capacity s.size added policy victims s.random
    rw [plan] at hplans
    obtain ⟨hbound, hnamed⟩ := hplans.of_ok
    have hsame {limit : Nat} (hlimit : s.config.capacity = .bounded limit) : capacity = limit :=
      Capacity.bounded.inj ((layout_bounded hlayout).symm.trans hlimit)
    refine ⟨fun _ _ => ⟨added, conforms_of_check hs schema count, ?_, ?_⟩, nofun⟩
    · intro limit hlimit
      exact hsame hlimit ▸ hbound
    · intro limit vs hlimit
      exact hsame hlimit ▸ fun hover hvs => hnamed hover vs hvs

lemma put_of_unbounded (hs : s.Valid) (hne : s.config.keys ≠ []) {added : Nat}
    (hb : b.Conforms s.config.keys added) (hl : s.layout = .unbounded) :
    s.put b victims =
      { answer := .ok (List.range' s.size added)
        store := { s with columns := s.columns.append b, size := s.size + added } } := by
  rw [put, (checkSchema_eq_ok_iff hs).mpr hb.keys, hb.commonLength hne]
  dsimp only
  rw [hl]

/-- A batch of the right form is written to the places that were planned. -/
lemma put_of_plan (hs : s.Valid) (hne : s.config.keys ≠ []) {added capacity : Nat}
    {policy : Policy} (hb : b.Conforms s.config.keys added)
    (hl : s.layout = .bounded capacity policy) {places : List Nat} {random : ρ}
    (hplan : Plans capacity s.size added policy victims s.random (.ok places, random)) :
    s.put b victims =
      { answer := .ok places
        store :=
          { s with
            columns := s.columns.write places b
            size := min capacity (s.size + added)
            random } } := by
  rw [put, (checkSchema_eq_ok_iff hs).mpr hb.keys, hb.commonLength hne]
  dsimp only
  rw [hl]
  dsimp only
  rw [hplan.eq]

lemma answer_of_plan (hs : s.Valid) (hne : s.config.keys ≠ []) {added capacity : Nat}
    (hb : b.Conforms s.config.keys added) (hbounded : s.config.capacity = .bounded capacity)
    {e : StoreError} (h : ∀ policy : Policy,
      Plans capacity s.size added policy victims s.random (.error e, s.random)) :
    (s.put b victims).answer = .error e := by
  have hlayout := hs.layout
  rw [put, (checkSchema_eq_ok_iff hs).mpr hb.keys, hb.commonLength hne]
  dsimp only
  cases hl : s.layout with
  | unbounded =>
    rw [hl] at hlayout
    cases (layout_unbounded hlayout).symm.trans hbounded
  | bounded limit policy =>
    rw [hl] at hlayout
    obtain rfl : limit = capacity :=
      Capacity.bounded.inj ((layout_bounded hlayout).symm.trans hbounded)
    dsimp only
    rw [(h policy).eq]

lemma Refuses.answer {e : StoreError} (hs : s.Valid) (hne : s.config.keys ≠ [])
    (h : Refuses s.config s.size b victims e) : (s.put b victims).answer = .error e := by
  cases h with
  | schema expected actual columns names differs =>
    obtain rfl := columns.unique hs.sorts_keys
    obtain rfl := names.unique b.sorts_keys
    rw [put, (checkSchema_eq_error_iff hs).mpr ⟨rfl, differs⟩]
    rfl
  | ragged reference expected odd actual names ragged =>
    rw [put, (checkSchema_eq_ok_iff hs).mpr names, ragged.commonLength]
  | exceeds added capacity conforms bounded excess =>
    exact answer_of_plan hs hne conforms bounded fun _ => .exceeds excess
  | miscounts added capacity vs conforms bounded bound excess given count =>
    exact answer_of_plan hs hne conforms bounded fun _ => .miscounts vs bound excess given count
  | misplaces added capacity front back index conforms bounded bound excess given count below
      beyond =>
    have hfirst : ((front ++ index :: back).find? fun i => capacity ≤ i) = some index := by
      refine List.find?_eq_some_iff_append.mpr ⟨decide_eq_true beyond, front, back, rfl, ?_⟩
      simpa using below
    exact answer_of_plan hs hne conforms bounded fun _ =>
      .misplaces _ index bound excess given count hfirst

/-- Victims are not looked at unless a batch overflows a bounded store. -/
lemma put_eq_of_fits (hs : s.Valid) (hne : s.config.keys ≠ [])
    (h : ∀ limit added, s.config.capacity = .bounded limit → b.Conforms s.config.keys added →
      s.size + added ≤ limit) (victims' : Option (List Nat)) :
    s.put b victims' = s.put b victims := by
  cases hschema : s.checkSchema b with
  | error e => rw [put, put, hschema]
  | ok _ =>
    cases hcount : b.commonLength with
    | error e => rw [put, put, hschema, hcount]
    | ok added =>
      have hb := conforms_of_check hs hschema hcount
      have hlayout := hs.layout
      cases hl : s.layout with
      | unbounded => rw [put_of_unbounded hs hne hb hl, put_of_unbounded hs hne hb hl]
      | bounded limit policy =>
        rw [hl] at hlayout
        have hfit := h limit added (layout_bounded hlayout) hb
        rw [put_of_plan hs hne hb hl (.fits hfit), put_of_plan hs hne hb hl (.fits hfit)]

/-- Whatever happened before, a put succeeds if and only if its batch has the declared columns, all
of one length, and, in a bounded store, no more rows than the capacity and, where it overflows the
store with victims named, as many of them as overflow, all below the capacity. Otherwise it answers
with the first of its faults. Victims have no effect on the answer or on the store if the store has
no bound, or if the batch fits. -/
theorem verdict_of_run {config : StoreConfig} {random : ρ} {s : Store ν ρ}
    (h : create config random = .ok s) (calls : List (Call ν)) (batch : Batch ν)
    (victims : Option (List Nat)) :
    let t := s.run calls
    ((∃ places, (t.put batch victims).answer = .ok places) ↔
        ∃ added, Admits config t.size batch victims added) ∧
      (∀ e, (t.put batch victims).answer = .error e ↔ Refuses config t.size batch victims e) ∧
      (config.capacity = .unbounded ∨
          (∃ limit, config.capacity = .bounded limit ∧
            ∀ added, batch.Conforms config.keys added → t.size + added ≤ limit) →
        ∀ victims', t.put batch victims' = t.put batch victims) := by
  intro t
  have hvalid : t.Valid := run_valid (create_valid h) calls
  have hconfig : t.config = config := (run_config s calls).trans (create_config h)
  have hne := create_keys_ne h
  have hverdict := (put_puts t batch victims).verdict hvalid
  rw [← hconfig] at hne ⊢
  refine ⟨⟨fun ⟨places, hok⟩ => hverdict.1 places hok, fun ⟨added, hadmits⟩ => ?_⟩,
    fun e => ⟨hverdict.2 e, Refuses.answer hvalid hne⟩, fun hfits => ?_⟩
  · cases hanswer : (t.put batch victims).answer with
    | ok places => exact ⟨places, rfl⟩
    | error e => exact (hadmits.not_refuses hne (hverdict.2 e hanswer)).elim
  · apply put_eq_of_fits hvalid hne
    intro limit added hlimit hconforms
    rcases hfits with hunbounded | ⟨limit', hlimit', hfit⟩
    · cases hunbounded.symm.trans hlimit
    · obtain rfl := Capacity.bounded.inj (hlimit'.symm.trans hlimit)
      exact hfit added hconforms

/-- Three victims, one of them outside, for the two rows that overflow a full store: the wrong
number is reported first. A batch with no rows fits, whatever victims are named for it. -/
theorem verdict_of_overflowing_run :
    (create pairConfig {} : Except StoreError (Store Nat Random.WordStream)) = .ok pairStore ∧
      Refuses pairConfig 3 (pairBatch [7, 8] [9, 10]) (some [5, 0, 1])
        (.overwriteCountMismatch 2 3) ∧
      (pairStore.run pairCalls).put (pairBatch [] []) (some [5, 0, 1]) =
        (pairStore.run pairCalls).put (pairBatch [] []) none := by
  have h : (create pairConfig {} : Except StoreError (Store Nat Random.WordStream)) =
      .ok pairStore := rfl
  obtain ⟨-, hrefuses, -⟩ := verdict_of_run h pairCalls (pairBatch [7, 8] [9, 10]) (some [5, 0, 1])
  obtain ⟨-, -, hvictims⟩ := verdict_of_run h pairCalls (pairBatch [] []) none
  refine ⟨h, (hrefuses _).mp rfl, hvictims (.inr ⟨3, rfl, ?_⟩) _⟩
  intro added hconforms
  have hzero := hconforms.rows "a" [] rfl
  have hsize : (pairStore.run pairCalls).size = 3 := rfl
  rw [hsize, ← hzero]
  rfl

end

end Store

end ExperienceCollection
