import TeslatlasSdk.Scripts.StrictJsonPieces

/-!
# What strict JSON accepts

`parseStrictJson` accepts the JSON texts without duplicate keys, and returns what `JSON.parse` does.
-/

open Text Json

namespace Json

/-- No object in the tree has two members with one key. -/
inductive DuplicateFree : JsonTree Scalar → Prop where
  | leaf (x : Scalar) : DuplicateFree (.leaf x)
  | array {items : List (JsonTree Scalar)} (h : ∀ item ∈ items, DuplicateFree item) :
      DuplicateFree (.array items)
  | object {members : List (JsString × JsonTree Scalar)} (hkeys : (members.map Prod.fst).Nodup)
      (h : ∀ m ∈ members, DuplicateFree m.2) : DuplicateFree (.object members)

end Json

namespace Scripts

/-- The value of a syntax tree. -/
def treeValue (tree : JsonTree Scalar) : Value := tree.settle.map Scalar.toPrimitive

/-- `rest` is what is left of `s` behind the tokens. -/
def Reads (s : JsString) (tokens : List Token) (rest : JsString) : Prop :=
  lex s = (lex rest).map (tokens ++ ·)

theorem Reads.trans {s t u : JsString} {first second : List Token} (h₁ : Reads s first t)
    (h₂ : Reads t second u) : Reads s (first ++ second) u := by
  rw [Reads, h₁, h₂, Option.map_map]
  congr 1
  funext tokens
  exact (List.append_assoc _ _ _).symm

theorem Reads.whitespace {s : JsString} {tokens : List Token} {rest : JsString}
    (h : Reads (whitespace s) tokens rest) : Reads s tokens rest := by
  rw [Reads, ← lex_whitespace]
  exact h

theorem reads_mark (mark : Token) {s : JsString} {taken : Taken Unit s}
    (hm : punctuation (tokenUnit mark) = some mark) (h : takeUnit (tokenUnit mark) s = some taken) :
    Reads s [mark] taken.rest := by
  have hs := takeUnit_eq_some h
  have hread : Reads (whitespace s) [mark] taken.rest := by
    rw [Reads, hs, lex_punctuation (whitespace_head hs) hm]
    rfl
  exact hread.whitespace

theorem reads_string {n : Nat} {s : JsString} {taken : Taken JsString s}
    (h : string n s = .ok taken) : Reads s [.scalar (.string taken.value)] taken.rest := by
  obtain ⟨t, rfl, ht⟩ := string_eq_ok h
  have hscalar : matchScalar (quote :: t) = some (.string taken.value, taken.rest) := by
    rw [matchScalar, if_pos rfl, ht]
    rfl
  exact lex_scalar rfl rfl hscalar

theorem matchToken_head {u : CodeUnit} {s : JsString} {r : Scalar × JsString}
    (h : matchToken (u :: s) = some r) :
    u ≠ quote ∧ isJsonWhiteSpace u = false ∧ punctuation u = none := by
  have hunits : ∀ m < 128, (isDigit (UInt16.ofNat m) = true ∨ UInt16.ofNat m = minus) →
      UInt16.ofNat m ≠ quote ∧ isJsonWhiteSpace (UInt16.ofNat m) = false ∧
        punctuation (UInt16.ofNat m) = none := by decide
  unfold matchToken at h
  split at h
  · next r' hl =>
    obtain rfl | rfl | rfl := matchLiteral_head hl
    · decide
    · decide
    · decide
  · by_cases hd : isDigit u = true ∨ u = minus
    · have hlt : u.toNat < 128 := by
        obtain hd | rfl := hd
        · have hu : u ≤ 0x39 := by
            simp only [isDigit, Bool.and_eq_true, decide_eq_true_eq] at hd
            exact hd.2
          have hn : u.toNat ≤ 0x39 := hu
          omega
        · decide
      have hu := hunits u.toNat hlt
      rw [UInt16.ofNat_toNat] at hu
      exact hu hd
    · rw [not_or] at hd
      rw [matchNumber_eq_none (Bool.not_eq_true _ ▸ hd.1) hd.2] at h
      cases h

theorem reads_token {n : Nat} {s : JsString} {taken : Taken Value s} (h : token n s = .ok taken) :
    ∃ x, taken.value = .leaf (Scalar.toPrimitive x) ∧ Reads s [.scalar x] taken.rest := by
  obtain ⟨x, hx, hvalue⟩ := token_eq_ok h
  refine ⟨x, hvalue, ?_⟩
  cases s with
  | nil => exact absurd taken.shorter (Nat.not_lt_zero _)
  | cons u t =>
    obtain ⟨hq, hw, hp⟩ := matchToken_head hx
    rw [matchToken_eq hq] at hx
    exact lex_scalar hw hp hx

/-! ## One step of each function -/

variable {n : Nat}

theorem value_eq_ok {s : JsString} {taken : Taken Value s} (h : value n s = .ok taken) :
    ∃ here, valueHere n (whitespace s) = .ok here ∧ here.value = taken.value ∧
      here.rest = taken.rest := by
  rw [value] at h
  split at h
  · next v rest hlt hhere =>
    obtain rfl := Except.ok.inj h
    exact ⟨_, hhere, rfl, rfl⟩
  · cases h

/-- The first round of the loop over the members. -/
structure FirstMember (n : Nat) (keys : List JsString) (s : JsString) where
  key : JsString
  value : Value
  afterKey : JsString
  afterColon : JsString
  afterValue : JsString
  shorterKey : afterKey.length < (whitespace s).length
  shorterColon : afterColon.length < afterKey.length
  shorterValue : afterValue.length < afterColon.length
  readsKey : string n (whitespace s) = .ok ⟨key, afterKey, shorterKey⟩
  fresh : key ∉ keys
  readsColon : takeUnit colon afterKey = some ⟨(), afterColon, shorterColon⟩
  readsValue : Scripts.value n afterColon = .ok ⟨value, afterValue, shorterValue⟩

theorem members_eq_ok {keys : List JsString} {result : List (JsString × Value)} {s : JsString}
    {taken : Taken (List (JsString × Value)) s} (h : members n keys result s = .ok taken) :
    ∃ first : FirstMember n keys s,
      (∃ hlt, takeUnit closeBrace first.afterValue = some ⟨(), taken.rest, hlt⟩ ∧
        taken.value = defineMember first.key first.value result) ∨
      (∃ afterComma hlt, takeUnit comma first.afterValue = some ⟨(), afterComma, hlt⟩ ∧
        ∃ later, members n (first.key :: keys) (defineMember first.key first.value result)
          afterComma = .ok later ∧ later.value = taken.value ∧ later.rest = taken.rest) := by
  cases s with
  | nil =>
    rw [members] at h
    cases h
  | cons u s =>
    rw [members] at h
    split at h
    · cases h
    · next key afterKey h₁ hkey =>
      split at h
      · cases h
      · next hfresh =>
        split at h
        · cases h
        · next _ afterColon h₂ hcolon =>
          split at h
          · cases h
          · next v afterValue h₃ hvalue =>
            refine ⟨⟨key, v, afterKey, afterColon, afterValue, h₁, h₂, h₃, hkey, hfresh, hcolon,
              hvalue⟩, ?_⟩
            split at h
            · next _ rest h₄ hclose =>
              obtain rfl := Except.ok.inj h
              exact .inl ⟨h₄, hclose, rfl⟩
            · split at h
              · cases h
              · next _ afterComma h₄ hcomma =>
                split at h
                · next result' rest h₅ hmembers =>
                  obtain rfl := Except.ok.inj h
                  exact .inr ⟨afterComma, h₄, hcomma, _, hmembers, rfl, rfl⟩
                · cases h

theorem items_eq_ok {result : List Value} {s : JsString} {taken : Taken (List Value) s}
    (h : items n result s = .ok taken) :
    ∃ v afterValue h₁, value n s = .ok ⟨v, afterValue, h₁⟩ ∧
      ((∃ hlt, takeUnit closeBracket afterValue = some ⟨(), taken.rest, hlt⟩ ∧
        taken.value = result ++ [v]) ∨
      (∃ afterComma hlt, takeUnit comma afterValue = some ⟨(), afterComma, hlt⟩ ∧
        ∃ later, items n (result ++ [v]) afterComma = .ok later ∧ later.value = taken.value ∧
          later.rest = taken.rest)) := by
  cases s with
  | nil =>
    rw [items] at h
    cases h
  | cons u s =>
    rw [items] at h
    split at h
    · cases h
    · next v afterValue h₁ hvalue =>
      refine ⟨v, afterValue, h₁, hvalue, ?_⟩
      split at h
      · next _ rest h₂ hclose =>
        obtain rfl := Except.ok.inj h
        exact .inl ⟨h₂, hclose, rfl⟩
      · split at h
        · cases h
        · next _ afterComma h₂ hcomma =>
          split at h
          · next result' rest h₃ hitems =>
            obtain rfl := Except.ok.inj h
            exact .inr ⟨afterComma, h₂, hcomma, _, hitems, rfl, rfl⟩
          · cases h

/-! ## Soundness -/

def ValueSound (n : Nat) (s : JsString) : Prop :=
  ∀ {taken : Taken Value s}, value n s = .ok taken →
    ∃ tree, DuplicateFree tree ∧ taken.value = treeValue tree ∧
      Reads s (treeTokens tree) taken.rest

/-- Members in the order in which they have been read. -/
def memberValues (done members : List (JsString × JsonTree Scalar)) : List (JsString × Value) :=
  JsonTree.mapMembers Scalar.toPrimitive (JsonTree.settleMembers done members)

def MembersSound (n : Nat) (s : JsString) : Prop :=
  ∀ {keys : List JsString} {done : List (JsString × JsonTree Scalar)}
    {taken : Taken (List (JsString × Value)) s},
    members n keys (memberValues done []) s = .ok taken →
      ∃ ms, ms ≠ [] ∧ (ms.map Prod.fst).Nodup ∧ (∀ key ∈ ms.map Prod.fst, key ∉ keys) ∧
        (∀ m ∈ ms, DuplicateFree m.2) ∧ taken.value = memberValues done ms ∧
        Reads s (commaTokens (memberTokens ms) ++ [.closeBrace]) taken.rest

def ItemsSound (n : Nat) (s : JsString) : Prop :=
  ∀ {result : List Value} {taken : Taken (List Value) s}, items n result s = .ok taken →
    ∃ its, its ≠ [] ∧ (∀ item ∈ its, DuplicateFree item) ∧
      taken.value = result ++ its.map treeValue ∧
      Reads s (commaTokens (itemTokens its) ++ [.closeBracket]) taken.rest

theorem defineMember_memberValues (done : List (JsString × JsonTree Scalar)) (key : JsString)
    (tree : JsonTree Scalar) :
    defineMember key (treeValue tree) (memberValues done []) =
      memberValues (defineMember key tree.settle done) [] := by
  rw [memberValues, JsonTree.settleMembers, JsonTree.mapMembers_eq, memberValues,
    JsonTree.settleMembers, JsonTree.mapMembers_eq, JsonTree.defineMember_map]
  rfl

theorem memberValues_cons (done members : List (JsString × JsonTree Scalar)) (key : JsString)
    (tree : JsonTree Scalar) :
    memberValues (defineMember key tree.settle done) members =
      memberValues done ((key, tree) :: members) := rfl

theorem treeValue_array (its : List (JsonTree Scalar)) :
    treeValue (.array its) = .array (its.map treeValue) := by
  rw [treeValue, JsonTree.settle, JsonTree.map, JsonTree.mapItems_eq, JsonTree.settleItems_eq,
    List.map_map]
  rfl

theorem treeValue_object (ms : List (JsString × JsonTree Scalar)) :
    treeValue (.object ms) = .object (memberValues [] ms) := rfl

theorem itemsSound_step {s : JsString} (hvalue : ValueSound n s)
    (ih : ∀ t : JsString, t.length < s.length → ItemsSound n t) : ItemsSound n s := by
  intro result taken h
  obtain ⟨v, afterValue, h₁, hv, hend⟩ := items_eq_ok h
  obtain ⟨tree, hfree, hv', hreads⟩ := hvalue hv
  simp only at hv' hreads
  subst hv'
  obtain ⟨hlt, hclose, htaken⟩ | ⟨afterComma, hlt, hcomma, later, hlater, hvalues, hrest⟩ := hend
  · have hmark := reads_mark .closeBracket rfl hclose
    refine ⟨[tree], List.cons_ne_nil _ _, ?_, htaken, hreads.trans hmark⟩
    intro item hitem
    rw [List.mem_singleton.mp hitem]
    exact hfree
  · obtain ⟨its, hne, hits, hitsValue, hitsReads⟩ := ih afterComma (by omega) hlater
    have hmark := reads_mark .comma rfl hcomma
    rw [hrest] at hitsReads
    rw [hvalues] at hitsValue
    refine ⟨tree :: its, List.cons_ne_nil _ _, List.forall_mem_cons.mpr ⟨hfree, hits⟩, ?_, ?_⟩
    · rw [hitsValue, List.append_assoc, List.map_cons, List.singleton_append]
    · rw [itemTokens, commaTokens_cons _ (itemTokens_ne_nil hne), List.append_assoc]
      exact hreads.trans (hmark.trans hitsReads)

theorem membersSound_step {s : JsString}
    (hvalue : ∀ t : JsString, t.length < s.length → ValueSound n t)
    (ih : ∀ t : JsString, t.length < s.length → MembersSound n t) : MembersSound n s := by
  intro keys done taken h
  have hle := whitespace_length s
  obtain ⟨⟨key, v, afterKey, afterColon, afterValue, h₁, h₂, h₃, hkey, hfresh, hcolon, hv⟩, hend⟩ :=
    members_eq_ok h
  obtain ⟨tree, hfree, hv', hreads⟩ := hvalue afterColon (by omega) hv
  simp only at hv' hreads hend
  subst hv'
  have hmember : Reads s (.scalar (.string key) :: .colon :: treeTokens tree) afterValue :=
    ((reads_string hkey).trans ((reads_mark .colon rfl hcolon).trans hreads)).whitespace
  rw [defineMember_memberValues] at hend
  obtain ⟨hlt, hclose, htaken⟩ | ⟨afterComma, hlt, hcomma, later, hlater, hvalues, hrest⟩ := hend
  · have hmark := reads_mark .closeBrace rfl hclose
    have hnodup : [key].Nodup := List.nodup_cons.mpr ⟨List.not_mem_nil, List.nodup_nil⟩
    refine ⟨[(key, tree)], List.cons_ne_nil _ _, hnodup, ?_, ?_, htaken, hmember.trans hmark⟩
    · intro k hk
      rw [List.mem_singleton.mp hk]
      exact hfresh
    · intro m hm
      rw [List.mem_singleton.mp hm]
      exact hfree
  · obtain ⟨ms, hne, hnodup, hkeys, hms, hmsValue, hmsReads⟩ := ih afterComma (by omega) hlater
    have hmark := reads_mark .comma rfl hcomma
    rw [hrest] at hmsReads
    rw [hvalues] at hmsValue
    refine ⟨(key, tree) :: ms, List.cons_ne_nil _ _, ?_, ?_,
      List.forall_mem_cons.mpr ⟨hfree, hms⟩, hmsValue.trans (memberValues_cons _ _ _ _), ?_⟩
    · exact List.nodup_cons.mpr ⟨fun hk => hkeys key hk List.mem_cons_self, hnodup⟩
    · rw [List.map_cons, List.forall_mem_cons]
      exact ⟨hfresh, fun k hk hmem => hkeys k hk (List.mem_cons_of_mem _ hmem)⟩
    · rw [memberTokens, commaTokens_cons _ (memberTokens_ne_nil hne), List.append_assoc]
      exact hmember.trans (hmark.trans hmsReads)

theorem valueHere_sound {s : JsString}
    (hmembers : ∀ t : JsString, t.length < s.length → MembersSound n t)
    (hitems : ∀ t : JsString, t.length < s.length → ItemsSound n t) {taken : Taken Value s}
    (h : valueHere n s = .ok taken) :
    ∃ tree, DuplicateFree tree ∧ taken.value = treeValue tree ∧
      Reads s (treeTokens tree) taken.rest := by
  cases s with
  | nil => exact absurd taken.shorter (Nat.not_lt_zero _)
  | cons u t =>
    have hlt : (whitespace t).length < (u :: t).length := Nat.lt_succ_of_le (whitespace_length t)
    rw [valueHere] at h
    split at h
    · split at h
      · next value rest hrest hvalue =>
        obtain rfl := Except.ok.inj h
        exact ⟨.leaf (.string value), .leaf _, rfl, reads_string hvalue⟩
      · cases h
    split at h
    · next hu =>
      subst hu
      have hopen : Reads (0x7B :: t) [.openBrace] t := lex_punctuation rfl rfl t
      split at h
      · next _ rest hrest hclose =>
        obtain rfl := Except.ok.inj h
        have hnone : ∀ m ∈ ([] : List (JsString × JsonTree Scalar)), DuplicateFree m.2 :=
          fun m hm => absurd hm List.not_mem_nil
        exact ⟨.object [], .object List.nodup_nil hnone, rfl,
          hopen.trans (reads_mark .closeBrace rfl hclose)⟩
      · split at h
        · next result rest hrest hread =>
          obtain rfl := Except.ok.inj h
          obtain ⟨ms, -, hnodup, -, hms, hvalue, hreads⟩ :=
            @hmembers (whitespace t) hlt [] [] _ hread
          refine ⟨.object ms, .object hnodup hms, ?_, hopen.trans hreads.whitespace⟩
          rw [treeValue_object, ← hvalue]
        · cases h
    split at h
    · next hu =>
      subst hu
      have hopen : Reads (0x5B :: t) [.openBracket] t := lex_punctuation rfl rfl t
      split at h
      · next _ rest hrest hclose =>
        obtain rfl := Except.ok.inj h
        have hnone : ∀ item ∈ ([] : List (JsonTree Scalar)), DuplicateFree item :=
          fun item hitem => absurd hitem List.not_mem_nil
        exact ⟨.array [], .array hnone, rfl, hopen.trans (reads_mark .closeBracket rfl hclose)⟩
      · split at h
        · next result rest hrest hread =>
          obtain rfl := Except.ok.inj h
          obtain ⟨its, -, hits, hvalue, hreads⟩ := hitems (whitespace t) hlt hread
          refine ⟨.array its, .array hits, ?_, hopen.trans hreads.whitespace⟩
          rw [treeValue_array]
          exact congrArg JsonTree.array hvalue
        · cases h
    · obtain ⟨x, hvalue, hreads⟩ := reads_token h
      exact ⟨.leaf x, .leaf x, hvalue, hreads⟩

theorem valueSound_step {s : JsString}
    (hmembers : ∀ t : JsString, t.length < s.length → MembersSound n t)
    (hitems : ∀ t : JsString, t.length < s.length → ItemsSound n t) : ValueSound n s := by
  intro taken h
  obtain ⟨here, hhere, hvalue, hrest⟩ := value_eq_ok h
  have hle := whitespace_length s
  obtain ⟨tree, hfree, hv, hreads⟩ := valueHere_sound
    (fun t ht => hmembers t (Nat.lt_of_lt_of_le ht hle))
    (fun t ht => hitems t (Nat.lt_of_lt_of_le ht hle)) hhere
  rw [hvalue] at hv
  rw [hrest] at hreads
  exact ⟨tree, hfree, hv, hreads.whitespace⟩

-- What the scanner accepts are the tokens of a tree without duplicate keys.
theorem scan_sound (n : Nat) (s : JsString) : ValueSound n s ∧ MembersSound n s ∧ ItemsSound n s := by
  induction hs : s.length using Nat.strongRecOn generalizing s with
  | ind length ih =>
    have hvalue : ∀ t : JsString, t.length < s.length → ValueSound n t :=
      fun t ht => (ih t.length (hs ▸ ht) t rfl).1
    have hmembers : ∀ t : JsString, t.length < s.length → MembersSound n t :=
      fun t ht => (ih t.length (hs ▸ ht) t rfl).2.1
    have hitems : ∀ t : JsString, t.length < s.length → ItemsSound n t :=
      fun t ht => (ih t.length (hs ▸ ht) t rfl).2.2
    have hhere : ValueSound n s := valueSound_step hmembers hitems
    exact ⟨hhere, membersSound_step hvalue hmembers, itemsSound_step hhere hitems⟩

/-! ## Completeness -/

/-- Wherever the tokens of the tree come next, the tree's value is read. -/
def ValueComplete (n : Nat) (tree : JsonTree Scalar) : Prop :=
  ∀ (s : JsString) (tokens : List Token), lex s = some (treeTokens tree ++ tokens) →
    ∃ rest hlt, value n s = .ok ⟨treeValue tree, rest, hlt⟩ ∧ lex rest = some tokens

theorem value_of_valueHere {s t rest : JsString} {v : Value} {hlt : rest.length < t.length}
    (hs : whitespace s = t) (h : valueHere n t = .ok ⟨v, rest, hlt⟩) :
    ∃ hlt', value n s = .ok ⟨v, rest, hlt'⟩ := by
  subst hs
  refine ⟨Nat.lt_of_lt_of_le hlt (whitespace_length s), ?_⟩
  rw [value, h]

-- A text of tokens is not empty.
theorem exists_cons_of_lex {s : JsString} {token : Token} {tokens : List Token}
    (h : lex s = some (token :: tokens)) : ∃ u t, s = u :: t := by
  cases s with
  | nil =>
    rw [lex.eq_def] at h
    cases h
  | cons u t => exact ⟨u, t, rfl⟩

theorem treeTokens_head (tree : JsonTree Scalar) :
    ∃ token tokens, treeTokens tree = token :: tokens ∧ token ≠ .closeBracket := by
  cases tree with
  | leaf x => exact ⟨.scalar x, [], rfl, nofun⟩
  | array its => exact ⟨.openBracket, _, rfl, nofun⟩
  | object ms => exact ⟨.openBrace, _, rfl, nofun⟩

theorem items_complete {its : List (JsonTree Scalar)} (hne : its ≠ [])
    (hread : ∀ item ∈ its, ValueComplete n item) {result : List Value} {s : JsString}
    {tokens : List Token}
    (h : lex s = some (commaTokens (itemTokens its) ++ (.closeBracket :: tokens))) :
    ∃ rest hlt, items n result s = .ok ⟨result ++ its.map treeValue, rest, hlt⟩ ∧
      lex rest = some tokens := by
  induction its generalizing result s with
  | nil => exact absurd rfl hne
  | cons item its ih =>
    obtain ⟨first, later, hfirst, -⟩ := treeTokens_head item
    have hitem := hread item List.mem_cons_self
    cases its with
    | nil =>
      have hs : lex s = some (treeTokens item ++ .closeBracket :: tokens) := h
      obtain ⟨u, t, rfl⟩ := exists_cons_of_lex (by rw [hs, hfirst]; rfl)
      obtain ⟨afterValue, h₁, hvalue, hafter⟩ := hitem _ _ hs
      obtain ⟨rest, h₂, hclose, hrest⟩ := takeUnit_mark .closeBracket rfl hafter
      refine ⟨rest, Nat.lt_trans h₂ h₁, ?_, hrest⟩
      rw [items, hvalue]
      simp only [show takeUnit closeBracket afterValue = _ from hclose]
      rfl
    | cons next its =>
      have hcomma : commaTokens (itemTokens (item :: next :: its)) =
          treeTokens item ++ .comma :: commaTokens (itemTokens (next :: its)) := rfl
      rw [hcomma, List.append_assoc] at h
      obtain ⟨u, t, rfl⟩ := exists_cons_of_lex (by rw [h, hfirst]; rfl)
      obtain ⟨afterValue, h₁, hvalue, hafter⟩ := hitem _ _ h
      have hopen := takeUnit_other .closeBracket rfl hafter (by decide)
      obtain ⟨afterComma, h₂, hmark, hnext⟩ := takeUnit_mark .comma rfl hafter
      obtain ⟨rest, h₃, hitems, hrest⟩ := @ih (List.cons_ne_nil _ _)
        (fun i hi => hread i (List.mem_cons_of_mem _ hi)) (result ++ [treeValue item]) _ hnext
      refine ⟨rest, by omega, ?_, hrest⟩
      rw [items, hvalue]
      simp only [show takeUnit closeBracket afterValue = _ from hopen,
        show takeUnit comma afterValue = _ from hmark, hitems]
      rw [List.append_assoc]
      rfl

theorem string_complete (n : Nat) {s : JsString} {key : JsString} {tokens : List Token}
    (h : lex s = some (.scalar (.string key) :: tokens)) :
    ∃ rest hlt, string n (whitespace s) = .ok ⟨key, rest, hlt⟩ ∧ lex rest = some tokens := by
  obtain ⟨u, t, rest, hs, hfirst, hrest⟩ := lex_eq_cons h
  cases hfirst with
  | punctuation hp => exact absurd rfl ((punctuation_eq_some hp).2 _)
  | scalar hp hx =>
    obtain ⟨rfl, ht⟩ := matchScalar_string hx
    rw [hs]
    obtain ⟨hlt, hstring⟩ := string_of_lexString n ht
    exact ⟨rest, hlt, hstring, hrest⟩

theorem members_complete {ms : List (JsString × JsonTree Scalar)} (hne : ms ≠ [])
    (hread : ∀ m ∈ ms, ValueComplete n m.2) (hnodup : (ms.map Prod.fst).Nodup)
    {keys : List JsString} (hkeys : ∀ key ∈ ms.map Prod.fst, key ∉ keys)
    {done : List (JsString × JsonTree Scalar)} {s : JsString} {tokens : List Token}
    (h : lex s = some (commaTokens (memberTokens ms) ++ (.closeBrace :: tokens))) :
    ∃ rest hlt, members n keys (memberValues done []) s =
        .ok ⟨memberValues done ms, rest, hlt⟩ ∧ lex rest = some tokens := by
  induction ms generalizing keys done s with
  | nil => exact absurd rfl hne
  | cons m ms ih =>
    obtain ⟨key, tree⟩ := m
    have hmember := hread (key, tree) List.mem_cons_self
    rw [List.map_cons, List.nodup_cons] at hnodup
    rw [List.map_cons, List.forall_mem_cons] at hkeys
    have hle := whitespace_length s
    -- The first member, and the mark behind it.
    obtain ⟨mark, later, hlex, hlater⟩ : ∃ mark later,
        lex s = some (.scalar (.string key) :: .colon :: (treeTokens tree ++ mark :: later)) ∧
          (ms = [] ∧ mark = .closeBrace ∧ later = tokens ∨
            ms ≠ [] ∧ mark = .comma ∧
              later = commaTokens (memberTokens ms) ++ (.closeBrace :: tokens)) := by
      cases ms with
      | nil => exact ⟨.closeBrace, tokens, h, .inl ⟨rfl, rfl, rfl⟩⟩
      | cons next ms =>
        refine ⟨.comma, _, ?_, .inr ⟨List.cons_ne_nil _ _, rfl, rfl⟩⟩
        rw [h, memberTokens, commaTokens_cons _ (memberTokens_ne_nil (List.cons_ne_nil _ _)),
          List.append_assoc]
        rfl
    obtain ⟨afterKey, h₁, hkey, hafterKey⟩ := string_complete n hlex
    obtain ⟨afterColon, h₂, hcolon, hafterColon⟩ := takeUnit_mark .colon rfl hafterKey
    obtain ⟨afterValue, h₃, hvalue, hafterValue⟩ := hmember _ _ hafterColon
    obtain ⟨u, t, rfl⟩ := exists_cons_of_lex hlex
    obtain ⟨rfl, rfl, rfl⟩ | ⟨hne', rfl, rfl⟩ := hlater
    · obtain ⟨rest, h₄, hclose, hrest⟩ := takeUnit_mark .closeBrace rfl hafterValue
      refine ⟨rest, by omega, ?_, hrest⟩
      rw [members, hkey]
      simp only [if_neg hkeys.1, show takeUnit colon afterKey = _ from hcolon, hvalue,
        show takeUnit closeBrace afterValue = _ from hclose, defineMember_memberValues]
      rfl
    · have hopen := takeUnit_other .closeBrace rfl hafterValue (by decide)
      obtain ⟨afterComma, h₄, hcomma, hnext⟩ := takeUnit_mark .comma rfl hafterValue
      have hfresh : ∀ k ∈ ms.map Prod.fst, k ∉ key :: keys := by
        intro k hk hmem
        obtain rfl | hmem := List.mem_cons.mp hmem
        · exact hnodup.1 hk
        · exact hkeys.2 k hk hmem
      obtain ⟨rest, h₅, hmembers, hrest⟩ := @ih hne'
        (fun m hm => hread m (List.mem_cons_of_mem _ hm)) hnodup.2 _ hfresh
        (defineMember key tree.settle done) _ hnext
      refine ⟨rest, by omega, ?_, hrest⟩
      rw [members, hkey]
      simp only [if_neg hkeys.1, show takeUnit colon afterKey = _ from hcolon, hvalue,
        show takeUnit closeBrace afterValue = _ from hopen,
        show takeUnit comma afterValue = _ from hcomma, defineMember_memberValues, hmembers]
      rfl

theorem valueHere_scalar (n : Nat) {u : CodeUnit} {t rest : JsString} {x : Scalar}
    (hp : punctuation u = none) (hx : matchScalar (u :: t) = some (x, rest)) :
    ∃ hlt, valueHere n (u :: t) = .ok ⟨.leaf x.toPrimitive, rest, hlt⟩ := by
  by_cases hq : u = quote
  · subst hq
    rw [matchScalar, if_pos rfl] at hx
    obtain ⟨⟨read, rest'⟩, hr, heq⟩ := Option.map_eq_some_iff.mp hx
    obtain ⟨rfl, rfl⟩ := Prod.mk.inj heq
    obtain ⟨hlt, hstring⟩ := string_of_lexString n hr
    refine ⟨hlt, ?_⟩
    rw [valueHere, if_pos rfl, hstring]
    rfl
  · have hbrace : u ≠ 0x7B := by
      rintro rfl
      cases hp
    have hbracket : u ≠ 0x5B := by
      rintro rfl
      cases hp
    rw [← matchToken_eq hq] at hx
    obtain ⟨hlt, htoken⟩ := token_of_eq n hx
    exact ⟨hlt, by rw [valueHere, if_neg hq, if_neg hbrace, if_neg hbracket, htoken]⟩

theorem lex_whitespace_eq {s : JsString} {tokens : Option (List Token)} (h : lex s = tokens) :
    lex (whitespace s) = tokens := (lex_whitespace s).trans h

theorem valueHere_array (n : Nat) {t : JsString} {its : List (JsonTree Scalar)}
    {tokens : List Token} (hread : ∀ item ∈ its, ValueComplete n item)
    (h : lex t = some (commaTokens (itemTokens its) ++ (.closeBracket :: tokens))) :
    ∃ rest hlt, valueHere n (0x5B :: t) = .ok ⟨treeValue (.array its), rest, hlt⟩ ∧
      lex rest = some tokens := by
  cases its with
  | nil =>
    obtain ⟨rest, hlt, hclose, hrest⟩ := takeUnit_mark .closeBracket rfl h
    refine ⟨rest, Nat.lt_succ_of_lt hlt, ?_, hrest⟩
    rw [valueHere, if_neg (by decide), if_neg (by decide), if_pos rfl,
      show takeUnit closeBracket t = _ from hclose]
    rfl
  | cons item its =>
    obtain ⟨first, later, hfirst, hne⟩ := treeTokens_head item
    obtain ⟨later', hlater'⟩ : ∃ later', commaTokens (itemTokens (item :: its)) ++
        (.closeBracket :: tokens) = first :: later' := by
      cases its with
      | nil => exact ⟨_, by rw [itemTokens, itemTokens, commaTokens, hfirst, List.cons_append]⟩
      | cons next its =>
        rw [itemTokens, commaTokens_cons _ (itemTokens_ne_nil (List.cons_ne_nil _ _)), hfirst]
        exact ⟨_, rfl⟩
    have hopen := takeUnit_other .closeBracket rfl (h.trans (congrArg some hlater')) hne
    obtain ⟨rest, hlt, hitems, hrest⟩ := @items_complete n _ (List.cons_ne_nil _ _) hread [] _ _
      (lex_whitespace_eq h)
    have hle := whitespace_length t
    refine ⟨rest, Nat.lt_succ_of_lt (Nat.lt_of_lt_of_le hlt hle), ?_, hrest⟩
    rw [valueHere, if_neg (by decide), if_neg (by decide), if_pos rfl,
      show takeUnit closeBracket t = _ from hopen]
    simp only [hitems, treeValue_array, List.nil_append]

theorem valueHere_object (n : Nat) {t : JsString} {ms : List (JsString × JsonTree Scalar)}
    {tokens : List Token} (hread : ∀ m ∈ ms, ValueComplete n m.2)
    (hkeys : (ms.map Prod.fst).Nodup)
    (h : lex t = some (commaTokens (memberTokens ms) ++ (.closeBrace :: tokens))) :
    ∃ rest hlt, valueHere n (0x7B :: t) = .ok ⟨treeValue (.object ms), rest, hlt⟩ ∧
      lex rest = some tokens := by
  cases ms with
  | nil =>
    obtain ⟨rest, hlt, hclose, hrest⟩ := takeUnit_mark .closeBrace rfl h
    refine ⟨rest, Nat.lt_succ_of_lt hlt, ?_, hrest⟩
    rw [valueHere, if_neg (by decide), if_pos rfl, show takeUnit closeBrace t = _ from hclose]
    rfl
  | cons m ms =>
    obtain ⟨later, hlater⟩ : ∃ later, commaTokens (memberTokens (m :: ms)) ++
        (.closeBrace :: tokens) = .scalar (.string m.1) :: later := by
      cases ms with
      | nil => exact ⟨_, rfl⟩
      | cons next ms => exact ⟨_, rfl⟩
    have hopen := takeUnit_other .closeBrace rfl (h.trans (congrArg some hlater))
      fun hsame => Token.noConfusion hsame
    obtain ⟨rest, hlt, hmembers, hrest⟩ := @members_complete n _ (List.cons_ne_nil _ _) hread hkeys
      [] (fun key _ => List.not_mem_nil) [] _ _ (lex_whitespace_eq h)
    have hle := whitespace_length t
    refine ⟨rest, Nat.lt_succ_of_lt (Nat.lt_of_lt_of_le hlt hle), ?_, hrest⟩
    rw [valueHere, if_neg (by decide), if_pos rfl, show takeUnit closeBrace t = _ from hopen]
    simp only [show members n [] [] (whitespace t) = _ from hmembers, treeValue_object]

-- An opening mark that comes first, and the text behind it.
theorem whitespace_open (mark : Token) {s : JsString} {tokens : List Token}
    (hm : punctuation (tokenUnit mark) = some mark) (h : lex s = some (mark :: tokens)) :
    ∃ t, whitespace s = tokenUnit mark :: t ∧ lex t = some tokens := by
  obtain ⟨rest, hlt, htake, hrest⟩ := takeUnit_mark mark hm h
  exact ⟨rest, takeUnit_eq_some htake, hrest⟩

theorem value_complete {tree : JsonTree Scalar} (hfree : DuplicateFree tree) :
    ValueComplete n tree := by
  induction tree using JsonTree.induction_tree with
  | leaf x =>
    intro s tokens h
    obtain ⟨u, t, rest, hs, hfirst, hrest⟩ := lex_eq_cons h
    cases hfirst with
    | punctuation hp => exact absurd rfl ((punctuation_eq_some hp).2 _)
    | scalar hp hx =>
      obtain ⟨hlt, hhere⟩ := valueHere_scalar n hp hx
      obtain ⟨hlt', hvalue⟩ := value_of_valueHere hs hhere
      exact ⟨rest, hlt', hvalue, hrest⟩
  | array its ih =>
    intro s tokens h
    cases hfree with
    | array hits =>
      rw [treeTokens, List.cons_append, List.append_assoc] at h
      obtain ⟨t, hs, ht⟩ := whitespace_open .openBracket rfl h
      obtain ⟨rest, hlt, hhere, hrest⟩ :=
        valueHere_array n (fun item hitem => ih item hitem (hits item hitem)) ht
      obtain ⟨hlt', hvalue⟩ := value_of_valueHere hs hhere
      exact ⟨rest, hlt', hvalue, hrest⟩
  | object ms ih =>
    intro s tokens h
    cases hfree with
    | object hkeys hms =>
      rw [treeTokens, List.cons_append, List.append_assoc] at h
      obtain ⟨t, hs, ht⟩ := whitespace_open .openBrace rfl h
      obtain ⟨rest, hlt, hhere, hrest⟩ :=
        valueHere_object n (fun m hm => ih m hm (hms m hm)) hkeys ht
      obtain ⟨hlt', hvalue⟩ := value_of_valueHere hs hhere
      exact ⟨rest, hlt', hvalue, hrest⟩

/-! ## Agreement with `JSON.parse` -/

theorem jsonParse_eq_some {s : JsString} {v : Value} :
    jsonParse s = some v ↔ ∃ tree, parse s = some tree ∧ treeValue tree = v :=
  Option.map_eq_some_iff

theorem parse_eq_some {s : JsString} {tree : JsonTree Scalar} :
    parse s = some tree ↔ lex s = some (treeTokens tree) := by
  rw [parse, Option.bind_eq_some_iff]
  constructor
  · rintro ⟨tokens, htokens, htree⟩
    rw [htokens, parseTokens_eq_some.mp htree]
  · intro h
    exact ⟨_, h, parseTokens_eq_some.mpr rfl⟩

theorem parseStrictJson_agrees (source : JsString) (v : Value) :
    parseStrictJson source = .ok v ↔
      jsonParse source = some v ∧ ∃ tree, parse source = some tree ∧ DuplicateFree tree := by
  constructor
  · intro h
    unfold parseStrictJson at h
    split at h
    · cases h
    · next result rest hlt hvalue =>
      split at h
      · next hend =>
        obtain rfl := Except.ok.inj h
        obtain ⟨tree, hfree, htree, hreads⟩ := (scan_sound source.length source).1 hvalue
        have hnil : lex rest = some [] := by
          rw [← lex_whitespace, hend, lex.eq_def]
        simp only at htree hreads
        rw [Reads, hnil, Option.map_some, List.append_nil] at hreads
        have hparse := parse_eq_some.mpr hreads
        exact ⟨jsonParse_eq_some.mpr ⟨tree, hparse, htree.symm⟩, tree, hparse, hfree⟩
      · cases h
  · rintro ⟨hjson, tree, hparse, hfree⟩
    obtain ⟨tree', hparse', rfl⟩ := jsonParse_eq_some.mp hjson
    obtain rfl := Option.some.inj (hparse.symm.trans hparse')
    have hlex := parse_eq_some.mp hparse
    rw [← List.append_nil (treeTokens tree)] at hlex
    obtain ⟨rest, hlt, hvalue, hrest⟩ := value_complete hfree source [] hlex
    rw [parseStrictJson, hvalue]
    simp only [lex_eq_nil hrest]

end Scripts
