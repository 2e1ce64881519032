import ExperienceCollection.Proofs.Store.History
import ExperienceCollection.Proofs.Store.Word

/-!
# Stores on machine words

The calls of a store once more, now with sizes and places that are machine words and with every
operation on them checked: sums, differences, casts and remainders, the count of a sample, and the
places at which slots are read and written. Within the columns, reading and writing on words is the
same as with exact numbers.
-/

namespace ExperienceCollection

variable {ν ρ : Type}

lemma mapM_eq_ok {α β : Type} {f : α → Except Fault β} {g : α → β} {l : List α}
    (h : ∀ a ∈ l, f a = .ok (g a)) : l.mapM f = .ok (l.map g) := by
  induction l with
  | nil => rfl
  | cons a l ih =>
    obtain ⟨ha, hl⟩ := List.forall_mem_cons.mp h
    rw [List.mapM_cons, ha, ih hl]
    rfl

namespace Column

/-- Writes a value to a slot, which has to lie in the column. -/
def setWord (column : Column ν) (i : UInt64) (v : ν) : Except Fault (Column ν) :=
  if i.toNat < column.length then .ok (column.set i.toNat (some v))
  else .error (.outside i.toNat column.length)

def writeWords (column : Column ν) (places : List UInt64) (values : List ν) :
    Except Fault (Column ν) :=
  (places.zip values).foldlM (fun column w => column.setWord w.1 w.2) column

/-- Reads a slot, which has to lie in the column. -/
def readWord (column : Column ν) (i : UInt64) : Except Fault (Option ν) :=
  match column[i.toNat]? with
  | some slot => .ok slot
  | none => .error (.outside i.toNat column.length)

def projectWords (column : Column ν) (places : List UInt64) : Except Fault (Column ν) :=
  places.mapM column.readWord

/-- Only the places that get a value have to lie in the column. -/
lemma writeWords_ofNats {column : Column ν} {places : List Nat} {values : List ν}
    (hwords : ∀ i ∈ places, i < 2 ^ 64) (hlt : ∀ i ∈ places.take values.length, i < column.length) :
    column.writeWords (Word.ofNats places) values = .ok (column.write places values) := by
  induction places generalizing column values with
  | nil =>
    rw [write_nil_left]
    rfl
  | cons i places ih =>
    cases values with
    | nil =>
      rw [write_nil_right]
      rfl
    | cons v values =>
      obtain ⟨hi, hwords⟩ := List.forall_mem_cons.mp hwords
      obtain ⟨hilt, hlt⟩ := List.forall_mem_cons.mp hlt
      have hset : column.setWord (.ofNat i) v = .ok (column.set i (some v)) := by
        rw [setWord, Word.toNat_ofNat hi, if_pos hilt]
      have hrest : writeWords (column.set i (some v)) (Word.ofNats places) values =
          .ok (write (column.set i (some v)) places values) := by
        apply ih hwords
        rwa [List.length_set]
      rw [write_cons, ← hrest, writeWords, Word.ofNats, List.map_cons, List.zip_cons_cons,
        List.foldlM_cons, hset]
      rfl

lemma readWord_ofNat {column : Column ν} {i : Nat} (hi : i < 2 ^ 64) (hlt : i < column.length) :
    column.readWord (.ofNat i) = .ok (column[i]?).join := by
  rw [readWord, Word.toNat_ofNat hi, List.getElem?_eq_getElem hlt]
  rfl

lemma projectWords_ofNats {column : Column ν} {places : List Nat}
    (hwords : ∀ i ∈ places, i < 2 ^ 64) (hlt : ∀ i ∈ places, i < column.length) :
    column.projectWords (Word.ofNats places) = .ok (column.project places) := by
  rw [projectWords, Word.ofNats, List.mapM_map, project_eq_map]
  apply mapM_eq_ok
  intro i hi
  exact readWord_ofNat (hwords i hi) (hlt i hi)

end Column

namespace Columns

/-- Writes the values of one column of a batch, if there is such a column. -/
def writeEntry (places : List UInt64) (columns : Columns ν) (e : String × List ν) :
    Except Fault (Columns ν) :=
  match columns.get? e.1 with
  | none => .ok columns
  | some column => do
    let column ← column.writeWords places e.2
    return columns.modify e.1 fun _ => column

def writeWords (columns : Columns ν) (places : List UInt64) (b : Batch ν) :
    Except Fault (Columns ν) :=
  b.entries.foldlM (writeEntry places) columns

/-- Reads something from every column. -/
def readWords {α : Type} (columns : Columns ν) (read : Column ν → Except Fault α) :
    Except Fault (KeyMap α) := do
  let entries ← columns.entries.mapM fun e => do
    let answer ← read e.2
    return (e.1, answer)
  return .ofList entries

/-- All columns have this length. -/
def Uniform (columns : Columns ν) (length : Nat) : Prop :=
  ∀ key column, columns.get? key = some column → column.length = length

lemma Uniform.modify {columns : Columns ν} {length : Nat} (h : columns.Uniform length)
    (key : String) (places : List Nat) (values : List ν) :
    Uniform (columns.modify key fun column => column.write places values) length := by
  intro x column hcolumn
  rw [KeyMap.get?_modify] at hcolumn
  split at hcolumn
  · obtain ⟨column', hcolumn', rfl⟩ := Option.map_eq_some_iff.mp hcolumn
    rw [Column.length_write]
    exact h x column' hcolumn'
  · exact h x column hcolumn

lemma writeEntry_ofNats {columns : Columns ν} {length : Nat} {places : List Nat}
    {e : String × List ν} (hcolumns : columns.Uniform length) (hwords : ∀ i ∈ places, i < 2 ^ 64)
    (hlt : ∀ i ∈ places.take e.2.length, i < length) :
    writeEntry (Word.ofNats places) columns e =
      .ok (columns.modify e.1 fun column => column.write places e.2) := by
  rw [writeEntry]
  cases hcolumn : columns.get? e.1 with
  | none =>
    have hnone : columns.modify e.1 (fun column => column.write places e.2) =
        columns.modify e.1 id :=
      KeyMap.modify_congr fun column h => nomatch hcolumn.symm.trans h
    dsimp only
    rw [hnone, KeyMap.modify_id]
  | some column =>
    rw [← hcolumns e.1 column hcolumn] at hlt
    dsimp only
    rw [Column.writeWords_ofNats hwords hlt]
    apply congrArg Except.ok
    apply KeyMap.modify_congr
    intro column' hcolumn'
    rw [Option.some.inj (hcolumn.symm.trans hcolumn')]

lemma writeWords_ofNats {columns : Columns ν} {length : Nat} {places : List Nat} {b : Batch ν}
    (hcolumns : columns.Uniform length) (hwords : ∀ i ∈ places, i < 2 ^ 64)
    (hlt : ∀ e ∈ b.entries, ∀ i ∈ places.take e.2.length, i < length) :
    columns.writeWords (Word.ofNats places) b = .ok (columns.write places b) := by
  have hfold (es : List (String × List ν)) (columns : Columns ν) (hcolumns : columns.Uniform length)
      (hes : ∀ e ∈ es, ∀ i ∈ places.take e.2.length, i < length) :
      es.foldlM (writeEntry (Word.ofNats places)) columns = .ok (es.foldl
        (fun columns e => columns.modify e.1 fun column => column.write places e.2) columns) := by
    induction es generalizing columns with
    | nil => rfl
    | cons e es ih =>
      obtain ⟨he, hes⟩ := List.forall_mem_cons.mp hes
      rw [List.foldlM_cons, writeEntry_ofNats hcolumns hwords he]
      exact ih _ (hcolumns.modify e.1 places e.2) hes
  have hwrite : columns.write places b = columns.map fun key column =>
      (b.get? key).elim column fun values => column.write places values := by
    rw [write, update]
    congr 1
    funext key column
    cases b.get? key <;> rfl
  rw [writeWords, hfold b.entries columns hcolumns hlt, hwrite]
  apply congrArg Except.ok
  exact KeyMap.foldl_modify b.nodup_keys columns fun column values => column.write places values

lemma readWords_eq_ok {α : Type} {columns : Columns ν} {read : Column ν → Except Fault α}
    {answer : Column ν → α}
    (h : ∀ key column, columns.get? key = some column → read column = .ok (answer column)) :
    columns.readWords read = .ok (columns.map fun _ => answer) := by
  have hentries : (columns.entries.mapM fun e => do
      let a ← read e.2
      return (e.1, a)) = Except.ok (columns.map fun _ => answer).entries := by
    apply mapM_eq_ok
    intro e he
    rw [h e.1 e.2 (KeyMap.get?_eq_some_iff.mpr he)]
    rfl
  rw [readWords, hentries]
  change Except.ok _ = _
  rw [KeyMap.ofList_entries]

end Columns

namespace Store

/-- A copy of all columns, or of the slots at the given places. -/
def getWords (s : Store ν ρ) (places : Option (List UInt64)) :
    Except Fault (Except StoreError (Columns ν)) :=
  match places with
  | none => .ok (.ok s.columns)
  | some places =>
    let length := UInt64.ofNat s.columnLength
    match places.find? fun i => length ≤ i with
    | some index => .ok (.error (.indexOutOfBounds index.toNat length.toNat))
    | none => do
      let columns ← s.columns.readWords fun column => column.projectWords places
      return .ok columns

def recordWords (s : Store ν ρ) (index : UInt64) :
    Except Fault (Except StoreError (KeyMap (Option ν))) :=
  let length := UInt64.ofNat s.columnLength
  if length ≤ index then .ok (.error (.indexOutOfBounds index.toNat length.toNat))
  else do
    let record ← s.columns.readWords fun column => column.readWord index
    return .ok record

/-- Overwrites the values at the given places in the columns that the batch names. -/
def updateWords (s : Store ν ρ) (places : List UInt64) (b : Batch ν) :
    Except Fault (Reply ν ρ (List Nat)) :=
  match b.commonLength with
  | .error e => .ok { answer := .error e, store := s }
  | .ok count =>
    let added := UInt64.ofNat count
    match b.keys.find? fun key => !s.columns.contains key with
    | some key =>
      .ok { answer := .error (s.schemaMismatch b), store := s, log := [.unknownColumn key] }
    | none =>
      let length := UInt64.ofNat s.physicalLength
      match (places.take added.toNat).find? fun i => length ≤ i with
      | some index =>
        .ok { answer := .error (.indexOutOfBounds index.toNat length.toNat), store := s }
      | none => do
        let columns ← s.columns.writeWords places b
        return { answer := .ok (places.map UInt64.toNat), store := { s with columns } }

/-- The places of a rolling write, counted on signed words. -/
def rollingWords (capacity size added : UInt64) : Except Fault (List UInt64) := do
  let ring ← Word.toSigned capacity
  let filled ← Word.toSigned size
  let first ← Word.subSigned filled ring
  let last ← Word.addSigned first (← Word.toSigned added)
  (Word.signedRange first last).mapM fun i => do
    let place ← Word.remainder i ring
    Word.place place capacity

/-- Different places below the length; more than there are cannot be drawn. -/
def sampleWords [Random.Source ρ] (length amount : UInt64) (random : ρ) :
    Except Fault (List UInt64 × ρ) :=
  if length < amount then .error (.oversample length.toNat amount.toNat)
  else
    let (places, random) := Random.sample length.toNat amount.toNat random
    .ok (Word.ofNats places, random)

/-- The places of a batch that overflows its store. -/
def overwriteWords [Random.Source ρ] (capacity : UInt64) (policy : Policy)
    (size added overflow : UInt64) (victims : Option (List UInt64)) (random : ρ) :
    Except Fault (Except StoreError (List UInt64) × ρ) :=
  let free := Word.range size capacity
  match victims, policy with
  | some victims, _ =>
    if victims.length ≠ overflow.toNat then
      .ok (.error (.overwriteCountMismatch overflow.toNat victims.length), random)
    else match victims.find? fun i => capacity ≤ i with
      | some index => .ok (.error (.indexOutOfBounds index.toNat capacity.toNat), random)
      | none => .ok (.ok (free ++ victims), random)
  | none, .rolling => do
    let places ← rollingWords capacity size added
    return (.ok places, random)
  | none, .random => do
    let (victims, random) ← sampleWords size overflow random
    return (.ok (free ++ victims), random)

/-- The places a batch of `added` items is written to in a bounded store. -/
def planWords [Random.Source ρ] (capacity : UInt64) (policy : Policy) (size added : UInt64)
    (victims : Option (List UInt64)) (random : ρ) :
    Except Fault (Except StoreError (List UInt64) × ρ) :=
  if capacity < added then
    .ok (.error (.capacityExceeded added.toNat capacity.toNat), random)
  else do
    let total ← Word.add size added
    if total ≤ capacity then return (.ok (Word.range size total), random)
    else
      let overflow ← Word.excess total capacity
      overwriteWords capacity policy size added overflow victims random

/-- Adds a batch and answers with the places written, in the order of the values. -/
def putWords [Random.Source ρ] (s : Store ν ρ) (b : Batch ν) (victims : Option (List UInt64)) :
    Except Fault (Reply ν ρ (List Nat)) :=
  match s.checkSchema b, b.commonLength with
  | .error e, _ => .ok { answer := .error e, store := s }
  | .ok _, .error e => .ok { answer := .error e, store := s }
  | .ok _, .ok count =>
    let size := UInt64.ofNat s.size
    let added := UInt64.ofNat count
    match s.layout with
    | .unbounded => do
      let total ← Word.add size added
      return {
        answer := .ok ((Word.range size total).map UInt64.toNat)
        store := { s with columns := s.columns.append b, size := total.toNat } }
    | .bounded limit policy => do
      let capacity := UInt64.ofNat limit
      match ← planWords capacity policy size added victims s.random with
      | (.error e, random) => return { answer := .error e, store := { s with random } }
      | (.ok places, random) =>
        let columns ← s.columns.writeWords places b
        let total ← Word.add size added
        return {
          answer := .ok (places.map UInt64.toNat)
          store := { s with columns, size := (min capacity total).toNat, random } }

/-- Makes one call on words. The calls that count nothing are as ever. -/
def performWords [Random.Source ρ] (s : Store ν ρ) :
    Call ν → Except Fault (Answer ν × Store ν ρ)
  | .put batch victims => do
    let reply ← s.putWords batch (victims.map Word.ofNats)
    return (.places reply.answer, reply.store)
  | .update indexes batch => do
    let reply ← s.updateWords (Word.ofNats indexes) batch
    return (.places reply.answer, reply.store)
  | .get indexes => do
    let answer ← s.getWords (indexes.map Word.ofNats)
    return (.columns answer, s)
  | .record index => do
    let answer ← s.recordWords (.ofNat index)
    return (.record answer, s)
  | .getByKey key => .ok (s.perform (.getByKey key))
  | .dumps => .ok (s.perform .dumps)
  | .clear => .ok (s.perform .clear)

/-- The answers to a history on words, and the store after it. -/
def runWords [Random.Source ρ] (s : Store ν ρ) :
    List (Call ν) → Except Fault (List (Answer ν) × Store ν ρ)
  | [] => .ok ([], s)
  | call :: calls => do
    let (answer, s) ← s.performWords call
    let (answers, s) ← runWords s calls
    return (answer :: answers, s)

end Store

end ExperienceCollection
