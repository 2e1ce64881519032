import ExperienceCollection.Proofs.Store.Invariant

/-!
# Histories of a store

A history is a list of calls of any kind, made one after another on a store. Whatever the calls
are and whether they succeed, the columns keep their names and their length, the slots in use are
filled, and the size counts the rows put since the last `clear`, up to the capacity.
-/

namespace ExperienceCollection

/-- A call of a store. -/
inductive Call (ν : Type) where
  | put (batch : Batch ν) (victims : Option (List Nat))
  | update (indexes : List Nat) (batch : Batch ν)
  | get (indexes : Option (List Nat))
  | getByKey (key : String)
  | record (index : Nat)
  | dumps
  | clear

/-- What a call answers. -/
inductive Answer (ν : Type) where
  | places (answer : Except StoreError (List Nat))
  | columns (answer : Except StoreError (Columns ν))
  | column (answer : Except StoreError (Column ν))
  | record (answer : Except StoreError (KeyMap (Option ν)))
  | cleared

namespace Store

variable {ν ρ : Type} [Random.Source ρ]

/-- Makes one call: its answer, and the store after it. -/
def perform (s : Store ν ρ) : Call ν → Answer ν × Store ν ρ
  | .put batch victims =>
    let reply := s.put batch victims
    (.places reply.answer, reply.store)
  | .update indexes batch =>
    let reply := s.update indexes batch
    (.places reply.answer, reply.store)
  | .get indexes => (.columns (s.get indexes), s)
  | .getByKey key => (.column (s.getByKey key), s)
  | .record index => (.record (s.record index), s)
  | .dumps => (.columns (.ok s.dumps), s)
  | .clear => (.cleared, s.clear)

/-- The store after a call. -/
def after (s : Store ν ρ) (call : Call ν) : Store ν ρ := (s.perform call).2

/-- The store after the calls of a history. -/
def run (s : Store ν ρ) (calls : List (Call ν)) : Store ν ρ := calls.foldl after s

@[simp] lemma run_nil (s : Store ν ρ) : s.run [] = s := rfl

@[simp] lemma run_cons (s : Store ν ρ) (call : Call ν) (calls : List (Call ν)) :
    s.run (call :: calls) = (s.after call).run calls := rfl

lemma run_concat (s : Store ν ρ) (calls : List (Call ν)) (call : Call ν) :
    s.run (calls ++ [call]) = (s.run calls).after call := by
  simp [run]

/-- The rows that a call adds: those of a put that succeeds. -/
def rowsAdded (s : Store ν ρ) : Call ν → Nat
  | .put batch victims =>
    match (s.put batch victims).answer with
    | .ok _ => batch.rowCount
    | .error _ => 0
  | _ => 0

/-- The rows put in a history that starts with `n` rows, counted anew from each `clear`. -/
def rowsPut (s : Store ν ρ) (n : Nat) : List (Call ν) → Nat
  | [] => n
  | .clear :: calls => rowsPut s.clear 0 calls
  | call :: calls => rowsPut (s.after call) (n + s.rowsAdded call) calls

lemma after_config (s : Store ν ρ) (call : Call ν) : (s.after call).config = s.config := by
  cases call with
  | put batch victims => exact (put_puts s batch victims).config_eq
  | update indexes batch =>
    change (s.update indexes batch).store.config = s.config
    rcases update_store s indexes batch with h | h <;> rw [h]
  | _ => rfl

lemma run_config (s : Store ν ρ) (calls : List (Call ν)) : (s.run calls).config = s.config := by
  induction calls generalizing s with
  | nil => rfl
  | cons call calls ih => rw [run_cons, ih, after_config]

theorem after_valid {s : Store ν ρ} (hs : s.Valid) (call : Call ν) : (s.after call).Valid := by
  cases call with
  | put batch victims => exact put_valid hs batch victims
  | update indexes batch => exact update_valid hs indexes batch
  | clear => exact clear_valid hs
  | _ => exact hs

theorem run_valid {s : Store ν ρ} (hs : s.Valid) (calls : List (Call ν)) : (s.run calls).Valid := by
  induction calls generalizing s with
  | nil => exact hs
  | cons call calls ih => exact ih (after_valid hs call)

/-- A call other than `clear` adds its rows to the size, up to the capacity. -/
lemma after_size {s : Store ν ρ} (hs : s.Valid) {n : Nat}
    (hn : s.size = s.config.capacity.clamp n) {call : Call ν} (hc : call ≠ .clear) :
    (s.after call).size = s.config.capacity.clamp (n + s.rowsAdded call) := by
  cases call with
  | put batch victims =>
    change (s.put batch victims).store.size = _
    cases h : (s.put batch victims).answer with
    | error e => simp [rowsAdded, h, put_error h, hn]
    | ok places =>
      have hrows : s.rowsAdded (.put batch victims) = batch.rowCount := by simp [rowsAdded, h]
      rw [(put_stored hs h).size, hrows, hn, Capacity.clamp_clamp_add]
  | update indexes batch =>
    change (s.update indexes batch).store.size = _
    rcases update_store s indexes batch with h | h <;> rw [h] <;> exact hn
  | clear => exact (hc rfl).elim
  | _ => exact hn

theorem run_size {s : Store ν ρ} (hs : s.Valid) {n : Nat}
    (hn : s.size = s.config.capacity.clamp n) (calls : List (Call ν)) :
    (s.run calls).size = s.config.capacity.clamp (s.rowsPut n calls) := by
  induction calls generalizing s n with
  | nil => exact hn
  | cons call calls ih =>
    have hstep := ih (after_valid hs call) (n := n + s.rowsAdded call)
    rw [after_config] at hstep
    cases call with
    | clear =>
      have hzero : s.clear.size = s.clear.config.capacity.clamp 0 := (Capacity.clamp_zero _).symm
      exact ih (clear_valid hs) hzero
    | _ => exact hstep (after_size hs hn (by simp))

/-- After any history of an accepted configuration the columns are the declared ones, they have
the length that the capacity asks for, the slots below the size are filled, and the size is the
number of rows put since the last `clear`, up to the capacity. -/
theorem shape_of_run {config : StoreConfig} {random : ρ} {s : Store ν ρ}
    (h : create config random = .ok s) (calls : List (Call ν)) :
    (∀ key, key ∈ (s.run calls).columns.keys ↔ key ∈ config.keys) ∧
      (∀ key column, (s.run calls).columns.get? key = some column →
        column.length = config.capacity.columnLength (s.run calls).size ∧
        ∀ i, i < (s.run calls).size → ∃ v, column[i]? = some (some v)) ∧
      (s.run calls).size = config.capacity.clamp (s.rowsPut 0 calls) := by
  have hv := create_valid h
  have hr := run_valid hv calls
  have hc : (s.run calls).config = config := by rw [run_config, create_config h]
  refine ⟨hc ▸ hr.keys, ?_, ?_⟩
  · intro key column hcolumn
    refine ⟨?_, ?_⟩
    · rw [hr.length key column hcolumn, hr.physicalLength_eq, hc]
    · intro i hi
      obtain ⟨v, hslot⟩ := Option.isSome_iff_exists.mp (hr.filled key column hcolumn i hi)
      exact ⟨v, Column.slot_eq_some.mp hslot⟩
  · have hsize : s.size = s.config.capacity.clamp 0 := by
      rw [create_size h, Capacity.clamp_zero]
    rw [run_size hv hsize calls, create_config h]

/-- Two columns of three slots each, overwritten in turn. -/
def pairConfig : StoreConfig := ⟨["s", "a"], .bounded 3, some .rolling⟩

def pairStore : Store Nat Random.WordStream where
  config := pairConfig
  layout := .bounded 3 .rolling
  columns := pairConfig.emptyColumns
  size := 0
  random := {}

def pairBatch (s a : List Nat) : Batch Nat := .ofList [("s", s), ("a", a)]

/-- Fills the store, fails, clears, writes past the size and overflows. -/
def pairCalls : List (Call Nat) :=
  [.put (pairBatch [1, 2, 3] [4, 5, 6]) none, .put (pairBatch [7, 8] [9]) none, .clear,
    .update [2] (pairBatch [1] [2]), .put (pairBatch [3, 4] [5, 6]) none,
    .put (pairBatch [7, 8] [9, 10]) none]

theorem shape_of_overflowing_run :
    (create pairConfig {} : Except StoreError (Store Nat Random.WordStream)) = .ok pairStore ∧
      (∀ key, key ∈ (pairStore.run pairCalls).columns.keys ↔ key ∈ ["s", "a"]) ∧
      (∀ column, (pairStore.run pairCalls).columns.get? "a" = some column →
        column.length = 3 ∧ ∀ i, i < 3 → ∃ v, column[i]? = some (some v)) ∧
      pairStore.rowsPut 0 pairCalls = 4 ∧ (pairStore.run pairCalls).size = 3 := by
  have h : (create pairConfig {} : Except StoreError (Store Nat Random.WordStream)) =
      .ok pairStore := rfl
  obtain ⟨hkeys, hcolumns, hsize⟩ := shape_of_run h pairCalls
  have hrows : pairStore.rowsPut 0 pairCalls = 4 := rfl
  have hthree : (pairStore.run pairCalls).size = 3 := by rw [hsize, hrows]; rfl
  refine ⟨h, hkeys, ?_, hrows, hthree⟩
  intro column hcolumn
  rw [← hthree]
  exact hcolumns "a" column hcolumn

end Store

end ExperienceCollection
