import ExperienceCollection.Proofs.Store.History

/-!
# Creation of a store

A configuration makes a store if it has columns, declares none of them twice, and has a policy in
case it is bounded. Otherwise it is refused for the first of these faults, of several columns that
are declared twice for the one whose second declaration comes first. The check of a configuration
finds all of this out, and nothing is left to go wrong after it.
-/

namespace ExperienceCollection

/-- The search stops at the first name that was met before it. -/
lemma firstRepeated?_go_eq_some_iff {met keys : List String} {key : String} :
    firstRepeated?.go met keys = some key ↔
      ∃ front back, keys = front ++ key :: back ∧ firstRepeated?.go met front = none ∧
        (key ∈ met ∨ key ∈ front) := by
  induction keys generalizing met with
  | nil => simp [firstRepeated?.go]
  | cons k keys ih =>
    by_cases hk : k ∈ met
    · rw [firstRepeated?.go, if_pos hk]
      constructor
      · intro h
        obtain rfl := Option.some.inj h
        exact ⟨[], keys, rfl, rfl, .inl hk⟩
      · rintro ⟨front, back, hsplit, hfront, -⟩
        cases front with
        | nil => rw [(List.cons.inj hsplit).1]
        | cons j front =>
          obtain ⟨rfl, -⟩ := List.cons.inj hsplit
          rw [firstRepeated?.go, if_pos hk] at hfront
          cases hfront
    · rw [firstRepeated?.go, if_neg hk, ih]
      constructor
      · rintro ⟨front, back, rfl, hfront, hkey⟩
        refine ⟨k :: front, back, rfl, ?_, ?_⟩
        · rwa [firstRepeated?.go, if_neg hk]
        · rw [List.mem_cons] at hkey ⊢
          tauto
      · rintro ⟨front, back, hsplit, hfront, hkey⟩
        cases front with
        | nil =>
          obtain ⟨rfl, -⟩ := List.cons.inj hsplit
          exact (hkey.elim hk List.not_mem_nil).elim
        | cons j front =>
          obtain ⟨rfl, rfl⟩ := List.cons.inj hsplit
          rw [firstRepeated?.go, if_neg hk] at hfront
          refine ⟨front, back, rfl, hfront, ?_⟩
          rw [List.mem_cons] at hkey ⊢
          tauto

lemma firstRepeated?_go_eq_none_iff {met keys : List String} :
    firstRepeated?.go met keys = none ↔ keys.Nodup ∧ ∀ key ∈ keys, key ∉ met := by
  induction keys generalizing met with
  | nil => simp [firstRepeated?.go]
  | cons k keys ih =>
    by_cases hk : k ∈ met
    · rw [firstRepeated?.go, if_pos hk]
      simp [hk]
    · rw [firstRepeated?.go, if_neg hk, ih, List.nodup_cons, List.forall_mem_cons]
      constructor
      · rintro ⟨hnodup, hfresh⟩
        have hfresh' : k ∉ keys := fun hmem => hfresh k hmem List.mem_cons_self
        exact ⟨⟨hfresh', hnodup⟩, hk, fun j hj hmet => hfresh j hj (List.mem_cons_of_mem k hmet)⟩
      · rintro ⟨⟨hfresh, hnodup⟩, -, hmet⟩
        refine ⟨hnodup, fun j hj hmem => ?_⟩
        rcases List.mem_cons.mp hmem with rfl | hmem
        · exact hfresh hj
        · exact hmet j hj hmem

lemma firstRepeated?_eq_none_iff {keys : List String} :
    firstRepeated? keys = none ↔ keys.Nodup := by
  rw [firstRepeated?, firstRepeated?_go_eq_none_iff]
  simp

lemma firstRepeated?_eq_some_iff {keys : List String} {key : String} :
    firstRepeated? keys = some key ↔
      ∃ front back, keys = front ++ key :: back ∧ front.Nodup ∧ key ∈ front := by
  rw [firstRepeated?, firstRepeated?_go_eq_some_iff]
  simp only [firstRepeated?_go_eq_none_iff, List.not_mem_nil, not_false_eq_true, implies_true,
    and_true, false_or]

/-- The text of the error names the column. -/
lemma StoreError.message_duplicateColumn (key : String) :
    (invalidConfig (.duplicateColumn key)).message =
      "Invalid configuration for 'keys': duplicate column '" ++ key ++ "'" := by
  have hparts : (invalidConfig (.duplicateColumn key)).message =
      "Invalid configuration for '" ++ "keys" ++ "': " ++
        ("duplicate column '" ++ key ++ "'") := rfl
  rw [hparts, ← String.append_assoc, ← String.append_assoc]
  rfl

namespace StoreConfig

/-- A configuration of which a store can be made. -/
structure Usable (c : StoreConfig) : Prop where
  columns : c.keys ≠ []
  distinct : c.keys.Nodup
  policy : c.capacity = .unbounded ∨ c.policy.isSome

/-- The fault for which a configuration is refused. Each of them comes only where those before it do
not, and a column that is declared again only where none was before it. -/
inductive Faulty (c : StoreConfig) : ConfigFault → Prop where
  | noColumns (empty : c.keys = []) : Faulty c .noColumns
  | duplicateColumn (front back : List String) (key : String)
      (split : c.keys = front ++ key :: back) (distinct : front.Nodup) (again : key ∈ front) :
      Faulty c (.duplicateColumn key)
  | policyRequired (limit : Nat) (columns : c.keys ≠ []) (distinct : c.keys.Nodup)
      (bounded : c.capacity = .bounded limit) (missing : c.policy = none) :
      Faulty c .policyRequired

lemma Usable.validate {c : StoreConfig} (h : c.Usable) : c.validate = .ok () := by
  have hbound : ¬(c.capacity.isBounded ∧ c.policy = none) := by
    rintro ⟨hbounded, hmissing⟩
    rcases h.policy with hunbounded | hpolicy
    · rw [hunbounded] at hbounded
      cases hbounded
    · rw [hmissing] at hpolicy
      cases hpolicy
  rw [StoreConfig.validate, if_neg h.columns, firstRepeated?_eq_none_iff.mpr h.distinct]
  exact if_neg hbound

lemma Faulty.validate {c : StoreConfig} {fault : ConfigFault} (h : c.Faulty fault) :
    c.validate = .error (.invalidConfig fault) := by
  cases h with
  | noColumns empty => exact if_pos empty
  | duplicateColumn front back key split distinct again =>
    have hcolumns : c.keys ≠ [] := by
      rw [split]
      exact List.append_ne_nil_of_right_ne_nil front (List.cons_ne_nil key back)
    have hfirst := firstRepeated?_eq_some_iff.mpr ⟨front, back, split, distinct, again⟩
    rw [StoreConfig.validate, if_neg hcolumns, hfirst]
  | policyRequired limit columns distinct bounded missing =>
    have hbound : c.capacity.isBounded ∧ c.policy = none := by
      rw [bounded]
      exact ⟨rfl, missing⟩
    rw [StoreConfig.validate, if_neg columns, firstRepeated?_eq_none_iff.mpr distinct]
    exact if_pos hbound

lemma usable_or_faulty (c : StoreConfig) : c.Usable ∨ ∃ fault, c.Faulty fault := by
  by_cases hcolumns : c.keys = []
  · exact .inr ⟨_, .noColumns hcolumns⟩
  · cases hfirst : firstRepeated? c.keys with
    | some key =>
      obtain ⟨front, back, hsplit, hdistinct, hagain⟩ := firstRepeated?_eq_some_iff.mp hfirst
      exact .inr ⟨_, .duplicateColumn front back key hsplit hdistinct hagain⟩
    | none =>
      have hdistinct := firstRepeated?_eq_none_iff.mp hfirst
      cases hcapacity : c.capacity with
      | unbounded => exact .inl ⟨hcolumns, hdistinct, .inl hcapacity⟩
      | bounded limit =>
        cases hpolicy : c.policy with
        | some policy =>
          exact .inl ⟨hcolumns, hdistinct, .inr (by rw [hpolicy, Option.isSome_some])⟩
        | none => exact .inr ⟨_, .policyRequired limit hcolumns hdistinct hcapacity hpolicy⟩

lemma validate_eq_ok_iff {c : StoreConfig} : c.validate = .ok () ↔ c.Usable := by
  refine ⟨fun h => ?_, Usable.validate⟩
  rcases c.usable_or_faulty with husable | ⟨fault, hfaulty⟩
  · exact husable
  · rw [hfaulty.validate] at h
    cases h

lemma validate_eq_error_iff {c : StoreConfig} {e : StoreError} :
    c.validate = .error e ↔ ∃ fault, e = .invalidConfig fault ∧ c.Faulty fault := by
  constructor
  · intro h
    rcases c.usable_or_faulty with husable | ⟨fault, hfaulty⟩
    · rw [husable.validate] at h
      cases h
    · rw [hfaulty.validate] at h
      exact ⟨fault, (Except.error.inj h).symm, hfaulty⟩
  · rintro ⟨fault, rfl, hfaulty⟩
    exact hfaulty.validate

/-- A configuration that passes the check has a layout. -/
lemma Usable.exists_layout {c : StoreConfig} (h : c.Usable) : ∃ layout, c.layout = .ok layout := by
  unfold StoreConfig.layout
  split
  · exact ⟨_, rfl⟩
  · exact ⟨_, rfl⟩
  · rename_i hbounded hmissing
    rcases h.policy with hunbounded | hpolicy
    · rw [hbounded] at hunbounded
      cases hunbounded
    · rw [hmissing] at hpolicy
      cases hpolicy

/-- A new store has one column for each name. -/
lemma size_emptyColumns {ν : Type} {c : StoreConfig} (h : c.keys.Nodup) :
    (c.emptyColumns : Columns ν).size = c.keys.length := by
  have hperm : (c.emptyColumns : Columns ν).keys.Perm c.keys := by
    rw [List.perm_ext_iff_of_nodup (KeyMap.nodup_keys _) h]
    intro key
    rw [KeyMap.mem_keys_iff, get?_emptyColumns]
    by_cases hkey : key ∈ c.keys
    · simp [hkey]
    · simp [hkey]
  rw [← KeyMap.length_keys, hperm.length_eq]

end StoreConfig

namespace Store

variable {ν ρ : Type}

lemma create_of_usable {config : StoreConfig} (h : config.Usable) (random : ρ) :
    ∃ s : Store ν ρ, create config random = .ok s := by
  obtain ⟨layout, hlayout⟩ := h.exists_layout
  rw [create, h.validate, hlayout]
  exact ⟨_, rfl⟩

lemma create_of_faulty {config : StoreConfig} {fault : ConfigFault} (h : config.Faulty fault)
    (random : ρ) :
    (create config random : Except StoreError (Store ν ρ)) = .error (.invalidConfig fault) := by
  rw [create, h.validate]
  rfl

/-- A store is made of a configuration if and only if it has columns, declares none of them twice,
and has a policy in case it is bounded. Otherwise the configuration is refused for the first of its
faults, and the same error comes from its check; once the check is passed, the layout is there. A
new store has the columns of its configuration, in the order in which they are declared, it has no
items, and all its slots, as many as its capacity asks for, are free. -/
theorem creation_of_config (config : StoreConfig) (random : ρ) :
    ((∃ s : Store ν ρ, create config random = .ok s) ↔
        config.keys ≠ [] ∧ config.keys.Nodup ∧
          (config.capacity = .unbounded ∨ config.policy.isSome)) ∧
      (∀ e, (create config random : Except StoreError (Store ν ρ)) = .error e ↔
        ∃ fault, e = .invalidConfig fault ∧ config.Faulty fault) ∧
      (∀ e, (create config random : Except StoreError (Store ν ρ)) = .error e ↔
        config.validate = .error e) ∧
      (∀ key, (StoreError.invalidConfig (.duplicateColumn key)).message =
        "Invalid configuration for 'keys': duplicate column '" ++ key ++ "'") ∧
      (config.validate = .ok () → ∀ e, config.layout ≠ .error e) ∧
      ∀ s : Store ν ρ, create config random = .ok s →
        s.config = config ∧ s.random = random ∧ s.size = 0 ∧
          s.columns.size = s.config.keys.length ∧
          ∀ key, s.columns.get? key =
            if key ∈ config.keys then
              some (List.replicate (config.capacity.columnLength 0) none)
            else none := by
  have husable {s : Store ν ρ} (h : create config random = .ok s) : config.Usable := by
    rcases config.usable_or_faulty with husable | ⟨fault, hfaulty⟩
    · exact husable
    · rw [create_of_faulty hfaulty] at h
      cases h
  have herror (e : StoreError) :
      (create config random : Except StoreError (Store ν ρ)) = .error e ↔
        config.validate = .error e := by
    rcases config.usable_or_faulty with husable | ⟨fault, hfaulty⟩
    · obtain ⟨s, hs⟩ := create_of_usable (ν := ν) husable random
      rw [hs, husable.validate]
      exact ⟨nofun, nofun⟩
    · rw [create_of_faulty hfaulty, hfaulty.validate]
      simp
  refine ⟨⟨?_, ?_⟩, ?_, herror, ?_, ?_, ?_⟩
  · rintro ⟨s, hs⟩
    exact ⟨(husable hs).columns, (husable hs).distinct, (husable hs).policy⟩
  · rintro ⟨hcolumns, hdistinct, hpolicy⟩
    exact create_of_usable ⟨hcolumns, hdistinct, hpolicy⟩ random
  · intro e
    rw [herror, StoreConfig.validate_eq_error_iff]
  · exact StoreError.message_duplicateColumn
  · intro hvalid e hlayout
    obtain ⟨layout, hok⟩ := (StoreConfig.validate_eq_ok_iff.mp hvalid).exists_layout
    rw [hok] at hlayout
    cases hlayout
  · intro s hs
    obtain ⟨layout, -, rfl⟩ := create_eq hs
    refine ⟨rfl, rfl, rfl, StoreConfig.size_emptyColumns (husable hs).distinct, fun key => ?_⟩
    rw [StoreConfig.get?_emptyColumns]
    cases config.capacity with
    | _ => rfl

/-- Three columns are declared twice, and a policy is missing as well. The column declared again
first is not the one declared first, nor the first in order of name. -/
theorem creation_of_tangledColumns :
    let tangled : StoreConfig := ⟨["c", "b", "a", "b", "a", "c"], .bounded 2, none⟩
    (create tangled ({} : Random.WordStream) : Except StoreError (Store Nat _)) =
        .error (.invalidConfig (.duplicateColumn "b")) ∧
      (create pairConfig {} : Except StoreError (Store Nat Random.WordStream)) = .ok pairStore ∧
      pairStore.config.keys = ["s", "a"] ∧ pairStore.columns.size = 2 ∧
      pairStore.columns.get? "a" = some [none, none, none] := by
  intro tangled
  have hfaulty : tangled.Faulty (.duplicateColumn "b") := by
    apply StoreConfig.Faulty.duplicateColumn ["c", "b", "a"] ["a", "c"]
    · rfl
    · decide
    · decide
  have h : (create pairConfig {} : Except StoreError (Store Nat Random.WordStream)) =
      .ok pairStore := rfl
  obtain ⟨-, hrefused, -⟩ := creation_of_config (ν := Nat) tangled ({} : Random.WordStream)
  obtain ⟨-, -, -, -, -, hnew⟩ := creation_of_config (ν := Nat) pairConfig ({} : Random.WordStream)
  obtain ⟨hconfig, -, -, hcount, hcolumns⟩ := hnew pairStore h
  exact ⟨(hrefused _).mpr ⟨_, rfl, hfaulty⟩, h, by rw [hconfig]; rfl, hcount, hcolumns "a"⟩

end Store

end ExperienceCollection
