import ExperienceCollection.Json.Tree
import ExperienceCollection.Proofs.Json.Numeral
import ExperienceCollection.Proofs.Json.Token

/-!
# Reading trees back

A tree is read from its text again, if its numerals and its literals are legible. Commas and colons
keep the words of a tree apart, and a value is complete with its last token, whatever containers
are open around it.
-/

namespace ExperienceCollection.Json

lemma Apart.append_cons {l m : List Token} {s : Token} (hs : s.isWord = false) (hl : Apart l)
    (hm : Apart m) : Apart (l ++ s :: m) := by
  apply List.isChain_split.mpr
  refine ⟨?_, ?_⟩
  · apply List.isChain_append.mpr
    refine ⟨hl, List.isChain_singleton s, ?_⟩
    intro x _ y hy
    obtain rfl := Option.some.inj hy
    exact .inr hs
  · apply List.isChain_cons.mpr
    exact ⟨fun _ _ => .inl hs, hm⟩

namespace Tree

/-! ## Tokens of a tree -/

mutual
theorem apart_tokens : ∀ t : Tree, Apart t.tokens
  | .null => List.isChain_singleton _
  | .bool _ => List.isChain_singleton _
  | .number _ => List.isChain_singleton _
  | .text _ => List.isChain_singleton _
  | .array items => by
    have hitems := (apart_itemTokens items).append_cons (s := .closeArray) rfl List.isChain_nil
    exact Apart.append_cons (l := []) rfl List.isChain_nil hitems
  | .object members => by
    have hmembers :=
      (apart_memberTokens members).append_cons (s := .closeObject) rfl List.isChain_nil
    exact Apart.append_cons (l := []) rfl List.isChain_nil hmembers

theorem apart_itemTokens : ∀ items : List Tree, Apart (itemTokens items)
  | [] => List.isChain_nil
  | [item] => item.apart_tokens
  | item :: next :: items => item.apart_tokens.append_cons rfl (apart_itemTokens (next :: items))

theorem apart_memberTokens : ∀ members : List (Literal × Tree), Apart (memberTokens members)
  | [] => List.isChain_nil
  | [(name, value)] =>
    Apart.append_cons (l := [.text name]) rfl (List.isChain_singleton _) value.apart_tokens
  | (name, value) :: next :: members => by
    have hrest := value.apart_tokens.append_cons (s := .comma) rfl
      (apart_memberTokens (next :: members))
    exact Apart.append_cons (l := [.text name]) rfl (List.isChain_singleton _) hrest
end

lemma itemTokens_cons_cons (item next : Tree) (items : List Tree) :
    itemTokens (item :: next :: items) =
      item.tokens ++ .comma :: itemTokens (next :: items) := rfl

lemma memberTokens_cons_cons (name : Literal) (value : Tree) (next : Literal × Tree)
    (members : List (Literal × Tree)) :
    memberTokens ((name, value) :: next :: members) =
      .text name :: .colon :: (value.tokens ++ .comma :: memberTokens (next :: members)) := rfl

lemma mem_itemTokens {items : List Tree} {token : Token} (h : token ∈ itemTokens items) :
    token = .comma ∨ ∃ item ∈ items, token ∈ item.tokens := by
  induction items with
  | nil => cases h
  | cons item items ih =>
    cases items with
    | nil => exact .inr ⟨item, List.mem_cons_self, h⟩
    | cons next items =>
      rcases List.mem_append.mp h with h | h
      · exact .inr ⟨item, List.mem_cons_self, h⟩
      · rcases List.mem_cons.mp h with rfl | h
        · exact .inl rfl
        · rcases ih h with hcomma | ⟨t, ht, htoken⟩
          · exact .inl hcomma
          · exact .inr ⟨t, List.mem_cons_of_mem item ht, htoken⟩

lemma mem_memberTokens {members : List (Literal × Tree)} {token : Token}
    (h : token ∈ memberTokens members) :
    token = .comma ∨ token = .colon ∨
      ∃ m ∈ members, token = .text m.1 ∨ token ∈ m.2.tokens := by
  induction members with
  | nil => cases h
  | cons m members ih =>
    obtain ⟨name, value⟩ := m
    cases members with
    | nil =>
      rcases List.mem_cons.mp h with htext | h
      · exact .inr (.inr ⟨_, List.mem_cons_self, .inl htext⟩)
      · rcases List.mem_cons.mp h with hcolon | h
        · exact .inr (.inl hcolon)
        · exact .inr (.inr ⟨_, List.mem_cons_self, .inr h⟩)
    | cons next members =>
      rcases List.mem_cons.mp h with htext | h
      · exact .inr (.inr ⟨_, List.mem_cons_self, .inl htext⟩)
      · rcases List.mem_cons.mp h with hcolon | h
        · exact .inr (.inl hcolon)
        · rcases List.mem_append.mp h with h | h
          · exact .inr (.inr ⟨_, List.mem_cons_self, .inr h⟩)
          · rcases List.mem_cons.mp h with hcomma | h
            · exact .inl hcomma
            · rcases ih h with hcomma | hcolon | ⟨m, hm, htoken⟩
              · exact .inl hcomma
              · exact .inr (.inl hcolon)
              · exact .inr (.inr ⟨m, List.mem_cons_of_mem _ hm, htoken⟩)

/-- A tree of which every token is legible. -/
def Legible (t : Tree) : Prop := ∀ token ∈ t.tokens, token.Legible

instance (t : Tree) : Decidable t.Legible :=
  inferInstanceAs (Decidable (∀ token ∈ t.tokens, token.Legible))

lemma legible_of_token {t : Tree} {token : Token} (ht : t.tokens = [token])
    (h : token.Legible) : t.Legible := by
  intro s hs
  rw [ht] at hs
  rw [List.mem_singleton.mp hs]
  exact h

lemma legible_null : Legible .null := legible_of_token rfl trivial

lemma legible_bool (b : Bool) : Legible (.bool b) := legible_of_token rfl trivial

lemma legible_ofNat (n : Nat) : (ofNat n).Legible :=
  legible_of_token rfl (Numeral.ofChars?_ofNat n)

lemma legible_ofInt (i : Int) : Legible (.number (Numeral.ofInt i)) :=
  legible_of_token rfl (Numeral.ofChars?_ofInt i)

lemma legible_ofString (s : String) : (ofString s).Legible :=
  legible_of_token rfl (Json.legible_ofString s)

lemma legible_array {items : List Tree} (h : ∀ item ∈ items, item.Legible) :
    Legible (.array items) := by
  intro token ht
  rcases List.mem_cons.mp ht with rfl | ht
  · trivial
  · rcases List.mem_append.mp ht with ht | ht
    · rcases mem_itemTokens ht with rfl | ⟨item, hitem, ht⟩
      · trivial
      · exact h item hitem token ht
    · rw [List.mem_singleton.mp ht]
      trivial

lemma mem_memberTokens_of_mem {members : List (Literal × Tree)} {m : Literal × Tree} {token : Token}
    (hm : m ∈ members) (h : token = .text m.1 ∨ token ∈ m.2.tokens) :
    token ∈ memberTokens members := by
  induction members with
  | nil => cases hm
  | cons first members ih =>
    obtain ⟨name, value⟩ := first
    cases members with
    | nil =>
      obtain rfl := List.mem_singleton.mp hm
      rcases h with rfl | h
      · exact List.mem_cons_self
      · exact List.mem_cons_of_mem _ (List.mem_cons_of_mem _ h)
    | cons next members =>
      rw [memberTokens_cons_cons]
      rcases List.mem_cons.mp hm with rfl | hm
      · rcases h with rfl | h
        · exact List.mem_cons_self
        · have hvalue := List.mem_append_left (.comma :: memberTokens (next :: members)) h
          exact List.mem_cons_of_mem _ (List.mem_cons_of_mem _ hvalue)
      · have hrest := List.mem_append_right value.tokens (List.mem_cons_of_mem .comma (ih hm))
        exact List.mem_cons_of_mem _ (List.mem_cons_of_mem _ hrest)

/-- An object is legible if its names and its values are. -/
lemma legible_object_iff {members : List (Literal × Tree)} :
    Legible (.object members) ↔ ∀ m ∈ members, (Token.text m.1).Legible ∧ m.2.Legible := by
  constructor
  · intro h m hm
    have hinside {token : Token} (htoken : token = .text m.1 ∨ token ∈ m.2.tokens) :
        token.Legible := by
      have hmember := List.mem_append_left [.closeObject] (mem_memberTokens_of_mem hm htoken)
      exact h token (List.mem_cons_of_mem _ hmember)
    exact ⟨hinside (.inl rfl), fun token htoken => hinside (.inr htoken)⟩
  · intro h token ht
    rcases List.mem_cons.mp ht with rfl | ht
    · trivial
    · rcases List.mem_append.mp ht with ht | ht
      · rcases mem_memberTokens ht with rfl | rfl | ⟨m, hm, rfl | htoken⟩
        · trivial
        · trivial
        · exact (h m hm).1
        · exact (h m hm).2 token htoken
      · rw [List.mem_singleton.mp ht]
        trivial

lemma legible_ofMembers {members : List (String × Tree)} (h : ∀ m ∈ members, m.2.Legible) :
    (ofMembers members).Legible := by
  apply legible_object_iff.mpr
  intro m hm
  obtain ⟨source, hsource, rfl⟩ := List.mem_map.mp hm
  exact ⟨Json.legible_ofString source.1, h source hsource⟩

/-! ## Reading -/

lemma exists_tokens_eq_cons (t : Tree) :
    ∃ first rest, t.tokens = first :: rest ∧ first ≠ .closeArray := by
  cases t with
  | _ => exact ⟨_, _, rfl, nofun⟩

/-- The first item of an array is read like any other. -/
lemma read_firstItem (item : Tree) (items : List Tree) (frames : List Frame) :
    (itemTokens (item :: items) ++ [Token.closeArray]).foldlM Reading.step ⟨frames, .firstItem⟩ =
      (itemTokens (item :: items) ++ [Token.closeArray]).foldlM Reading.step
        ⟨.array [] :: frames, .value⟩ := by
  obtain ⟨first, rest, htokens, hfirst⟩ := item.exists_tokens_eq_cons
  have hitems : ∃ rest, itemTokens (item :: items) = first :: rest := by
    cases items with
    | nil => exact ⟨rest, htokens⟩
    | cons next items =>
      rw [itemTokens_cons_cons, htokens]
      exact ⟨_, rfl⟩
  obtain ⟨rest, hitems⟩ := hitems
  have hstep : Reading.step ⟨frames, .firstItem⟩ first =
      Reading.step ⟨.array [] :: frames, .value⟩ first := by
    cases first with
    | closeArray => contradiction
    | _ => rfl
  rw [hitems, List.cons_append, List.foldlM_cons, hstep, List.foldlM_cons]

lemma read_append {l : List Token} {r s : Reading} (h : l.foldlM Reading.step r = some s)
    (m : List Token) : (l ++ m).foldlM Reading.step r = m.foldlM Reading.step s := by
  rw [List.foldlM_append, h]
  rfl

lemma read_cons {token : Token} {r s : Reading} (h : Reading.step r token = some s)
    (m : List Token) : (token :: m).foldlM Reading.step r = m.foldlM Reading.step s :=
  read_append (l := [token]) (h ▸ bind_pure _) m

mutual
theorem read_tokens : ∀ (t : Tree) (frames : List Frame),
    t.tokens.foldlM Reading.step ⟨frames, .value⟩ = some ⟨frames, .after t⟩
  | .null, _ => rfl
  | .bool _, _ => rfl
  | .number _, _ => rfl
  | .text _, _ => rfl
  | .array [], _ => rfl
  | .array (item :: items), frames => by
    rw [tokens, read_cons (s := ⟨frames, .firstItem⟩) rfl, read_firstItem]
    exact read_itemTokens (item :: items) frames [] (List.cons_ne_nil _ _)
  | .object [], _ => rfl
  | .object ((name, value) :: members), frames => by
    have hmembers := read_memberTokens ((name, value) :: members) frames [] (List.cons_ne_nil _ _)
    have hfirst : ∃ more, memberTokens ((name, value) :: members) = .text name :: more := by
      cases members with
      | nil => exact ⟨_, rfl⟩
      | cons next members => exact ⟨_, rfl⟩
    obtain ⟨more, hmore⟩ := hfirst
    rw [hmore] at hmembers
    rw [tokens, read_cons (s := ⟨frames, .firstName⟩) rfl, hmore]
    -- The first name of an object is read like any other.
    exact hmembers

/-- The items of an array are read one after another, behind those that were read before. -/
theorem read_itemTokens : ∀ (items : List Tree) (frames : List Frame) (read : List Tree),
    items ≠ [] →
      (itemTokens items ++ [Token.closeArray]).foldlM Reading.step ⟨.array read :: frames, .value⟩ =
        some ⟨frames, .after (.array (read.reverse ++ items))⟩
  | [], _, _, h => absurd rfl h
  | [item], frames, read, _ => by
    rw [itemTokens, read_append (read_tokens item _), ← List.reverse_cons]
    rfl
  | item :: next :: items, frames, read, _ => by
    have hrest := read_itemTokens (next :: items) frames (item :: read) (List.cons_ne_nil _ _)
    rw [itemTokens_cons_cons, List.append_assoc, read_append (read_tokens item _), List.cons_append,
      read_cons (s := ⟨.array (item :: read) :: frames, .value⟩) rfl, hrest, List.reverse_cons,
      List.append_assoc]
    rfl

theorem read_memberTokens : ∀ (members : List (Literal × Tree)) (frames : List Frame)
    (read : List (Literal × Tree)), members ≠ [] →
      (memberTokens members ++ [Token.closeObject]).foldlM Reading.step ⟨frames, .name read⟩ =
        some ⟨frames, .after (.object (read.reverse ++ members))⟩
  | [], _, _, h => absurd rfl h
  | [(name, value)], frames, read, _ => by
    rw [memberTokens, List.cons_append, List.cons_append,
      read_cons (s := ⟨frames, .colon read name⟩) rfl,
      read_cons (s := ⟨.object read name :: frames, .value⟩) rfl,
      read_append (read_tokens value _), ← List.reverse_cons]
    rfl
  | (name, value) :: next :: members, frames, read, _ => by
    have hrest := read_memberTokens (next :: members) frames ((name, value) :: read)
      (List.cons_ne_nil _ _)
    rw [memberTokens_cons_cons, List.cons_append, List.cons_append,
      read_cons (s := ⟨frames, .colon read name⟩) rfl,
      read_cons (s := ⟨.object read name :: frames, .value⟩) rfl, List.append_assoc,
      read_append (read_tokens value _), List.cons_append,
      read_cons (s := ⟨frames, .name ((name, value) :: read)⟩) rfl, hrest, List.reverse_cons,
      List.append_assoc]
    rfl
end

/-- A legible tree is read from its text. -/
theorem parse?_print {t : Tree} (h : t.Legible) : parse? t.print = some t := by
  have hscan := Token.scan?_chars h t.apart_tokens
  have hread := t.read_tokens []
  rw [parse?, print, String.toList_ofList, hscan, Option.bind_eq_bind, Option.bind_some, ofTokens?,
    hread]
  rfl

/-! ## Depth -/

mutual
/-- How many containers stand inside one another. -/
def depth : Tree → Nat
  | .array items => itemsDepth items + 1
  | .object members => membersDepth members + 1
  | _ => 0

def itemsDepth : List Tree → Nat
  | [] => 0
  | item :: items => max item.depth (itemsDepth items)

def membersDepth : List (Literal × Tree) → Nat
  | [] => 0
  | (_, value) :: members => max value.depth (membersDepth members)
end

lemma itemsDepth_le_iff {items : List Tree} {levels : Nat} :
    itemsDepth items ≤ levels ↔ ∀ item ∈ items, item.depth ≤ levels := by
  induction items with
  | nil => simp [itemsDepth]
  | cons item items ih => rw [itemsDepth, Nat.max_le, ih, List.forall_mem_cons]

lemma membersDepth_le_iff {members : List (Literal × Tree)} {levels : Nat} :
    membersDepth members ≤ levels ↔ ∀ m ∈ members, m.2.depth ≤ levels := by
  induction members with
  | nil => simp [membersDepth]
  | cons m members ih => rw [membersDepth, Nat.max_le, ih, List.forall_mem_cons]

/-- What can be read within some levels opens one of them and leaves the others to its items. -/
lemma depth_array_le {items : List Tree} {levels : Nat} (h : depth (.array items) ≤ levels) :
    ∃ inner, levels = inner + 1 ∧ ∀ item ∈ items, item.depth ≤ inner := by
  cases levels with
  | zero => cases h
  | succ inner => exact ⟨inner, rfl, itemsDepth_le_iff.mp (Nat.le_of_succ_le_succ h)⟩

lemma depth_object_le {members : List (Literal × Tree)} {levels : Nat}
    (h : depth (.object members) ≤ levels) :
    ∃ inner, levels = inner + 1 ∧ ∀ m ∈ members, m.2.depth ≤ inner := by
  cases levels with
  | zero => cases h
  | succ inner => exact ⟨inner, rfl, membersDepth_le_iff.mp (Nat.le_of_succ_le_succ h)⟩

lemma depth_ofMembers_le {members : List (String × Tree)} {levels : Nat}
    (h : (ofMembers members).depth ≤ levels) :
    ∃ inner, levels = inner + 1 ∧ ∀ m ∈ members, m.2.depth ≤ inner := by
  obtain ⟨inner, hlevels, hmembers⟩ := depth_object_le h
  exact ⟨inner, hlevels, fun m hm => hmembers _ (List.mem_map_of_mem hm)⟩

end Tree

end ExperienceCollection.Json
