import ExperienceCollection.Proofs.Store.Update

/-!
# Updates of different cells

An update writes the cells, each a column and a place in it, for which it has a value, and leaves
all others alone. What it writes depends on its own values only. So two updates that write no cell
in common may be made in either order, and an update that is made again at once changes nothing.
-/

namespace ExperienceCollection

variable {ν ρ : Type}

/-- The batch has a value for place `i` of the column, if its values are paired with `indexes`. -/
def Batch.Touches (b : Batch ν) (indexes : List Nat) (key : String) (i : Nat) : Prop :=
  ∃ values, b.get? key = some values ∧ i ∈ indexes.take values.length

namespace Store

/-- The slot at place `i` of a column, `none` where there is no such slot. -/
def cell (s : Store ν ρ) (key : String) (i : Nat) : Option (Option ν) :=
  (s.columns.get? key).bind fun column => column[i]?

lemma cell_eq {s : Store ν ρ} {key : String} {column : Column ν}
    (h : s.columns.get? key = some column) (i : Nat) : s.cell key i = column[i]? := by
  rw [cell, h, Option.bind_some]

lemma cell_of_notMem {s : Store ν ρ} {key : String} (h : key ∉ s.columns.keys) (i : Nat) :
    s.cell key i = none := by
  rw [KeyMap.mem_keys_iff, Option.not_isSome_iff_eq_none] at h
  rw [cell, h, Option.bind_none]

/-- Columns are known by their names and by their cells. -/
lemma columns_ext {s t : Store ν ρ} (hkeys : s.columns.keys = t.columns.keys)
    (hcells : ∀ key i, s.cell key i = t.cell key i) : s.columns = t.columns := by
  apply KeyMap.ext_get? hkeys
  intro key
  by_cases hkey : key ∈ s.columns.keys
  · obtain ⟨column, hcolumn⟩ := KeyMap.exists_get?_of_mem_keys hkey
    obtain ⟨column', hcolumn'⟩ := KeyMap.exists_get?_of_mem_keys (hkeys ▸ hkey)
    have hsame : column = column' := by
      apply List.ext_getElem?
      intro i
      rw [← cell_eq hcolumn, ← cell_eq hcolumn', hcells]
    rw [hcolumn, hcolumn', hsame]
  · have hkey' : key ∉ t.columns.keys := hkeys ▸ hkey
    rw [KeyMap.mem_keys_iff, Option.not_isSome_iff_eq_none] at hkey hkey'
    rw [hkey, hkey']

section

variable {s s' t t' : Store ν ρ} {indexes : List Nat} {b : Batch ν} {count : Nat} {key : String}
  {i : Nat}

lemma Amends.cell_of_not_touches (h : s.Amends indexes b count s') (hb : b.Uniform count)
    (hi : ¬b.Touches indexes key i) : s'.cell key i = s.cell key i := by
  by_cases hnamed : key ∈ b.keys
  · obtain ⟨values, hvalues⟩ := KeyMap.exists_get?_of_mem_keys hnamed
    have hplace : i ∉ indexes.take count := by
      intro hmem
      rw [← hb.rows key values hvalues] at hmem
      exact hi ⟨values, hvalues, hmem⟩
    by_cases hkey : key ∈ s.columns.keys
    · obtain ⟨column, hcolumn⟩ := KeyMap.exists_get?_of_mem_keys hkey
      obtain ⟨column', hcolumn'⟩ := KeyMap.exists_get?_of_mem_keys (h.keys ▸ hkey)
      rw [cell_eq hcolumn, cell_eq hcolumn']
      exact h.kept key column column' hcolumn hcolumn' i hplace
    · rw [cell_of_notMem hkey, cell_of_notMem (h.keys ▸ hkey)]
  · rw [cell, cell, h.unnamed key hnamed]

/-- What an update writes to a cell does not depend on the store. -/
lemma Amends.cell_of_touches (h : s.Amends indexes b count s') (h' : t.Amends indexes b count t')
    (hb : b.Uniform count) (hkeys : s'.columns.keys = t'.columns.keys)
    (hi : b.Touches indexes key i) : s'.cell key i = t'.cell key i := by
  obtain ⟨values, hvalues, hmem⟩ := hi
  rw [hb.rows key values hvalues] at hmem
  obtain ⟨r, hr⟩ := exists_lastAt hmem
  by_cases hkey : key ∈ s'.columns.keys
  · obtain ⟨column, hcolumn⟩ := KeyMap.exists_get?_of_mem_keys hkey
    obtain ⟨column', hcolumn'⟩ := KeyMap.exists_get?_of_mem_keys (hkeys ▸ hkey)
    obtain ⟨v, hv, hslot⟩ := h.written key values column hvalues hcolumn i r hr
    obtain ⟨v', hv', hslot'⟩ := h'.written key values column' hvalues hcolumn' i r hr
    obtain rfl : v = v' := Option.some.inj (hv.symm.trans hv')
    rw [cell_eq hcolumn, cell_eq hcolumn', hslot, hslot']
  · rw [cell_of_notMem hkey, cell_of_notMem (hkeys ▸ hkey)]

/-- An update of what it has written itself writes it again. -/
lemma Amends.again (h : s.Amends indexes b count t) (h' : t.Amends indexes b count t')
    (hb : b.Uniform count) : t' = t := by
  have hcolumns : t'.columns = t.columns := by
    apply columns_ext h'.keys
    intro key i
    by_cases hi : b.Touches indexes key i
    · exact h'.cell_of_touches h hb h'.keys hi
    · exact h'.cell_of_not_touches hb hi
  cases t
  cases t'
  rw [Store.mk.injEq]
  exact ⟨h'.config, h'.layout, hcolumns, h'.size, h'.random⟩

/-- Two updates without a cell in common, in the one order by way of `t` and in the other by way of
`t'`, leave the same store. -/
lemma Amends.comm {indexes' : List Nat} {b' : Batch ν} {count' : Nat} {u u' : Store ν ρ}
    (hst : s.Amends indexes b count t) (htu : t.Amends indexes' b' count' u)
    (hst' : s.Amends indexes' b' count' t') (htu' : t'.Amends indexes b count u')
    (hb : b.Uniform count) (hb' : b'.Uniform count')
    (hapart : ∀ key i, b.Touches indexes key i → ¬b'.Touches indexes' key i) : u = u' := by
  have hkeys : u.columns.keys = u'.columns.keys := by rw [htu.keys, hst.keys, htu'.keys, hst'.keys]
  have hcells : ∀ key i, u.cell key i = u'.cell key i := by
    intro key i
    by_cases hi : b.Touches indexes key i
    · have hi' := hapart key i hi
      calc
        u.cell key i = t.cell key i := htu.cell_of_not_touches hb' hi'
        _ = u'.cell key i := hst.cell_of_touches htu' hb (htu.keys.symm.trans hkeys) hi
    · calc
        u.cell key i = t'.cell key i := by
          by_cases hi' : b'.Touches indexes' key i
          · exact htu.cell_of_touches hst' hb' (hkeys.trans htu'.keys) hi'
          · rw [htu.cell_of_not_touches hb' hi', hst.cell_of_not_touches hb hi,
              hst'.cell_of_not_touches hb' hi']
        _ = u'.cell key i := (htu'.cell_of_not_touches hb hi).symm
  have hcolumns := columns_ext hkeys hcells
  have hconfig : u.config = u'.config := by rw [htu.config, hst.config, htu'.config, hst'.config]
  have hlayout : u.layout = u'.layout := by rw [htu.layout, hst.layout, htu'.layout, hst'.layout]
  have hsize : u.size = u'.size := by rw [htu.size, hst.size, htu'.size, hst'.size]
  have hrandom : u.random = u'.random := by rw [htu.random, hst.random, htu'.random, hst'.random]
  cases u
  cases u'
  rw [Store.mk.injEq]
  exact ⟨hconfig, hlayout, hcolumns, hsize, hrandom⟩

/-- Whether an update is permitted does not depend on what updates have written before. -/
lemma Amends.permits (h : s.Amends indexes b count t) {indexes' : List Nat} {b' : Batch ν}
    {count' : Nat} (hp : Permits s.config s.physicalLength indexes' b' count') :
    Permits t.config t.physicalLength indexes' b' count' := by
  have hlength : t.physicalLength = s.physicalLength := by
    rw [physicalLength, physicalLength, h.layout, h.size]
  rwa [h.config, hlength]

lemma exists_permits {places : List Nat} (hs : s.Valid)
    (hok : (s.update indexes b).answer = .ok places) :
    ∃ count, Permits s.config s.physicalLength indexes b count :=
  ((update_updates s indexes b).verdict hs).1 places hok

lemma Updates.of_permits {reply : Reply ν ρ (List Nat)} (h : Updates s indexes b reply)
    (hs : s.Valid) (hp : Permits s.config s.physicalLength indexes b count) :
    reply = { answer := .ok indexes, store := reply.store } ∧
      s.Amends indexes b count reply.store := by
  obtain ⟨-, hrejects⟩ := h.verdict hs
  cases h with
  | writes added hcount declared below =>
    obtain rfl := (Batch.commonLength_eq_ok_iff.mp hcount).unique hp.uniform
    exact ⟨rfl, amends_of_write hs hp.uniform below⟩
  | _ => exact (hp.not_rejects (hrejects _ rfl)).elim

/-- An update that is permitted succeeds, without a word in the log. -/
lemma Permits.exists_update (hp : Permits s.config s.physicalLength indexes b count)
    (hs : s.Valid) :
    ∃ t, s.update indexes b = { answer := .ok indexes, store := t } ∧ t.Valid ∧
      s.Amends indexes b count t := by
  obtain ⟨hreply, hamends⟩ := (update_updates s indexes b).of_permits hs hp
  exact ⟨_, hreply, update_valid hs indexes b, hamends⟩

end

variable [Random.Source ρ]

/-- Whatever happened before, an update that succeeds may be made again at once: it succeeds again
with the same answer, and changes nothing. Two updates that both succeed and do not write the same
cell may be made one after the other in either order: both succeed with the answers they give on
their own, and leave the same store. -/
theorem commutation_of_run {config : StoreConfig} {random : ρ} {s : Store ν ρ}
    (h : create config random = .ok s) (calls : List (Call ν)) (indexes : List Nat)
    (batch : Batch ν) :
    let t := s.run calls
    ∀ places, (t.update indexes batch).answer = .ok places →
      (t.update indexes batch).store.update indexes batch =
          { answer := .ok places, store := (t.update indexes batch).store } ∧
        ∀ indexes' batch' places', (t.update indexes' batch').answer = .ok places' →
          (∀ key i, batch.Touches indexes key i → ¬batch'.Touches indexes' key i) →
          ∃ u,
            (t.update indexes batch).store.update indexes' batch' =
                { answer := .ok places', store := u } ∧
              (t.update indexes' batch').store.update indexes batch =
                { answer := .ok places, store := u } := by
  intro t places hok
  have hvalid : t.Valid := run_valid (create_valid h) calls
  obtain ⟨count, hpermits⟩ := exists_permits hvalid hok
  obtain ⟨one, hone, honeValid, honeAmends⟩ := hpermits.exists_update hvalid
  rw [hone] at hok ⊢
  obtain rfl := Except.ok.inj hok
  refine ⟨?_, ?_⟩
  · obtain ⟨again, hagain, -, hagainAmends⟩ :=
      (honeAmends.permits hpermits).exists_update honeValid
    rw [hagain, honeAmends.again hagainAmends hpermits.uniform]
  · intro indexes' batch' places' hok' hapart
    obtain ⟨count', hpermits'⟩ := exists_permits hvalid hok'
    obtain ⟨other, hother, hotherValid, hotherAmends⟩ := hpermits'.exists_update hvalid
    rw [hother] at hok' ⊢
    obtain rfl := Except.ok.inj hok'
    obtain ⟨both, hboth, -, hbothAmends⟩ :=
      (honeAmends.permits hpermits').exists_update honeValid
    obtain ⟨both', hboth', -, hbothAmends'⟩ :=
      (hotherAmends.permits hpermits).exists_update hotherValid
    have hsame : both = both' := honeAmends.comm hbothAmends hotherAmends hbothAmends'
      hpermits.uniform hpermits'.uniform hapart
    exact ⟨both, hboth, hsame ▸ hboth'⟩

/-- Each of two updates lists a place of the other in the column that both write, but behind its
last value. A place that comes twice keeps its second value in either order. -/
theorem commutation_of_listedPlaces :
    let t := pairStore.run pairCalls
    let first : Batch Nat := .ofList [("s", [7, 8, 9])]
    let second : Batch Nat := .ofList [("a", [6]), ("s", [5])]
    (create pairConfig {} : Except StoreError (Store Nat Random.WordStream)) = .ok pairStore ∧
      (t.update [2, 0, 2, 1] first).store.update [2, 0, 2, 1] first =
        { answer := .ok [2, 0, 2, 1], store := (t.update [2, 0, 2, 1] first).store } ∧
      ∃ u,
        (t.update [2, 0, 2, 1] first).store.update [1, 2] second =
            { answer := .ok [1, 2], store := u } ∧
          (t.update [1, 2] second).store.update [2, 0, 2, 1] first =
            { answer := .ok [2, 0, 2, 1], store := u } ∧
          u.columns.get? "s" = some [some 8, some 5, some 9] := by
  intro t first second
  have h : (create pairConfig {} : Except StoreError (Store Nat Random.WordStream)) =
      .ok pairStore := rfl
  have hfirst : (t.update [2, 0, 2, 1] first).answer = .ok [2, 0, 2, 1] := rfl
  have hsecond : (t.update [1, 2] second).answer = .ok [1, 2] := rfl
  have hapart : ∀ key i, first.Touches [2, 0, 2, 1] key i → ¬second.Touches [1, 2] key i := by
    intro key i hi hi'
    obtain ⟨values, hvalues, hi⟩ := hi
    obtain ⟨values', hvalues', hi'⟩ := hi'
    have hthree : first.Uniform 3 := Batch.commonLength_eq_ok_iff.mp rfl
    have hone : second.Uniform 1 := Batch.commonLength_eq_ok_iff.mp rfl
    rw [hthree.rows key values hvalues] at hi
    rw [hone.rows key values' hvalues'] at hi'
    obtain rfl : i = 1 := List.mem_singleton.mp hi'
    exact absurd hi (by decide)
  obtain ⟨hagain, hcomm⟩ := commutation_of_run h pairCalls [2, 0, 2, 1] first _ hfirst
  obtain ⟨u, hu, hu'⟩ := hcomm [1, 2] second _ hsecond hapart
  refine ⟨h, hagain, u, hu, hu', ?_⟩
  have hstore : u = ((t.update [2, 0, 2, 1] first).store.update [1, 2] second).store := by rw [hu]
  rw [hstore]
  rfl

end Store

end ExperienceCollection
