import SettingStore.Proofs.Json.Scan

set_option autoImplicit false

/-! # Reading what was written

The tokens of a tree are parsed into the tree (`readValue_tokens`), and the tree of a
canonical value denotes the value, unless its containers stand deeper than the reader allows
(`ofTree?_tree`). Together: reading the text of a value gives the value back up to that depth
and nothing beyond (`ofText?_text`). The text itself has no control characters below the space
(`visible_text`). The only thing taken for granted is that the binary64 numbers in the value
read back.
-/

namespace SettingStore.Json

/-! ## Parsing -/

/-- No tree starts with the end of a container, and only a string starts with a string. -/
theorem tokens_cases (t : Tree) :
    (∃ pieces, tokens t = [.string pieces]) ∨
      ∃ first others, tokens t = first :: others ∧ first ≠ .closeArray ∧
        ∀ pieces, first ≠ .string pieces := by
  cases t with
  | null => exact Or.inr ⟨.null, [], by rw [tokens], by simp, by simp⟩
  | bool b => exact Or.inr ⟨.bool b, [], by rw [tokens], by simp, by simp⟩
  | number n => exact Or.inr ⟨.number n, [], by rw [tokens], by simp, by simp⟩
  | string pieces => exact Or.inl ⟨pieces, by rw [tokens]⟩
  | array items =>
      cases items with
      | nil => exact Or.inr ⟨.openArray, _, by rw [tokens], by simp, by simp⟩
      | cons t rest => exact Or.inr ⟨.openArray, _, by rw [tokens], by simp, by simp⟩
  | object members =>
      cases members with
      | nil => exact Or.inr ⟨.openObject, _, by rw [tokens], by simp, by simp⟩
      | cons m rest => exact Or.inr ⟨.openObject, _, by rw [tokens], by simp, by simp⟩

/-- An array whose first item comes next. -/
theorem readValue_openArray (frames : List Frame) (t : Tree) (rest : List Token) :
    readValue frames (.openArray :: (tokens t ++ rest))
      = readValue (.array [] :: frames) (tokens t ++ rest) := by
  have hne : ∀ others, tokens t ++ rest = .closeArray :: others → False := by
    intro others h
    rcases tokens_cases t with ⟨pieces, ht⟩ | ⟨first, others', ht, hclose, -⟩
    · rw [ht] at h
      exact absurd (List.cons.inj h).1 (by simp)
    · rw [ht] at h
      exact hclose (List.cons.inj h).1
  rw [readValue]
  exact hne

/-- The next item of an array, if it is not followed by a colon. -/
theorem continueAfter_comma (read : List Tree) (outer : List Frame) (value t : Tree)
    {rest : List Token} (hrest : rest.head? ≠ some .colon) :
    continueAfter (.array read :: outer) value (.comma :: (tokens t ++ rest))
      = readValue (.array (value :: read) :: outer) (tokens t ++ rest) := by
  have hne : ∀ name others, tokens t ++ rest = .string name :: .colon :: others → False := by
    intro name others h
    rcases tokens_cases t with ⟨pieces, ht⟩ | ⟨first, others', ht, -, hstring⟩
    · rw [ht] at h
      have hothers : rest = .colon :: others := (List.cons.inj h).2
      rw [hothers] at hrest
      exact hrest rfl
    · rw [ht] at h
      exact hstring name (List.cons.inj h).1
  rw [continueAfter]
  exact hne

theorem head?_itemTokens_ne_colon (items : List Tree) (rest : List Token) :
    (itemTokens items ++ .closeArray :: rest).head? ≠ some .colon := by
  cases items with
  | nil => simp [itemTokens]
  | cons t others => simp [itemTokens]

mutual

/-- The tokens of a tree are read as the tree. -/
theorem readValue_tokens : ∀ (t : Tree) (frames : List Frame) (rest : List Token),
    readValue frames (tokens t ++ rest) = continueAfter frames t rest
  | .null, frames, rest => by rw [tokens, List.singleton_append, readValue]
  | .bool b, frames, rest => by rw [tokens, List.singleton_append, readValue]
  | .number n, frames, rest => by rw [tokens, List.singleton_append, readValue]
  | .string pieces, frames, rest => by rw [tokens, List.singleton_append, readValue]
  | .array [], frames, rest => by
      rw [tokens, List.cons_append, List.singleton_append, readValue]
  | .array (t :: items), frames, rest => by
      rw [tokens, List.cons_append, List.append_assoc, List.append_assoc, List.singleton_append,
        readValue_openArray, readValue_tokens t, continueAfter_items items]
      rfl
  | .object [], frames, rest => by
      rw [tokens, List.cons_append, List.singleton_append, readValue]
  | .object ((name, t) :: members), frames, rest => by
      rw [tokens, List.cons_append, List.cons_append, List.cons_append, List.append_assoc,
        List.append_assoc, List.singleton_append, readValue, readValue_tokens t,
        continueAfter_members members]
      rfl

/-- The items after the first one, up to the end of the array. -/
theorem continueAfter_items : ∀ (items read : List Tree) (outer : List Frame) (value : Tree)
    (rest : List Token),
    continueAfter (.array read :: outer) value (itemTokens items ++ .closeArray :: rest)
      = continueAfter outer (.array (read.reverse ++ value :: items)) rest
  | [], read, outer, value, rest => by
      rw [itemTokens, List.nil_append, continueAfter, List.reverse_cons]
  | t :: items, read, outer, value, rest => by
      rw [itemTokens, List.cons_append, List.append_assoc,
        continueAfter_comma _ _ _ _ (head?_itemTokens_ne_colon items rest),
        readValue_tokens t, continueAfter_items items, List.reverse_cons, List.append_assoc]
      rfl

/-- The members after the first one, up to the end of the object. -/
theorem continueAfter_members : ∀ (members read : List (List Piece × Tree)) (outer : List Frame)
    (last : List Piece) (value : Tree) (rest : List Token),
    continueAfter (.object read last :: outer) value (memberTokens members ++ .closeObject :: rest)
      = continueAfter outer (.object (read.reverse ++ (last, value) :: members)) rest
  | [], read, outer, last, value, rest => by
      rw [memberTokens, List.nil_append, continueAfter, List.reverse_cons]
  | (name, t) :: members, read, outer, last, value, rest => by
      rw [memberTokens, List.cons_append, List.cons_append, List.cons_append, List.append_assoc,
        continueAfter, readValue_tokens t, continueAfter_members members, List.reverse_cons,
        List.append_assoc]
      rfl

end

/-- The text of a value is parsed into the tree of the value. -/
theorem ofText?_tree {v : Json} (h : ∀ n ∈ numbers v, n.ReadsBack) :
    Tree.ofText? v.text = some (tree v) := by
  have hread := readValue_tokens (tree v) [] []
  rw [List.append_nil] at hread
  rw [Tree.ofText?, text, String.toList_ofList, tokens?_chars h, Option.bind_some, hread,
    continueAfter]

/-! ## Values of trees -/

/-- A member whose name comes after all others is added at the end. -/
theorem setMember_append {name : String} (v : Json) {read : List (String × Json)}
    (h : ∀ m ∈ read, m.1 < name) : setMember name v read = read ++ [(name, v)] := by
  induction read with
  | nil => rfl
  | cons m rest ih =>
      obtain ⟨other, w⟩ := m
      have hlt : other < name := h (other, w) List.mem_cons_self
      rw [setMember, if_neg (String.ne_of_lt hlt).symm, if_neg (String.lt_asymm hlt),
        ih fun m hm => h m (List.mem_cons_of_mem _ hm)]
      rfl

mutual

/-- The tree of a canonical value denotes the value, if its containers do not stand too
deep. -/
theorem ofTree?_tree : ∀ {v : Json}, v.Canonical → (∀ n ∈ numbers v, n.ReadsBack) → ∀ depth,
    ofTree? depth (tree v) = if v.depth ≤ depth then some v else none
  | .null, _, _, depth => by simp [tree, ofTree?, Json.depth]
  | .bool b, _, _, depth => by simp [tree, ofTree?, Json.depth]
  | .number n, _, h, depth => by
      have hn := (numeral_spec (h n (by simp [numbers]))).2
      simp [tree, ofTree?, Json.depth, hn]
  | .string s, _, _, depth => by
      have hs : Piece.text? (pieces s) = some s.toList := text?_pieces s.toList
      simp [tree, ofTree?, Json.depth, hs]
  | .array items, canonical, h, depth => by
      rw [Canonical] at canonical
      have hitems := ofItems?_trees canonical (fun n hn => h n (by simp [numbers, hn])) (depth - 1)
      rw [tree, ofTree?, Json.depth, hitems]
      by_cases hzero : depth = 0
      · rw [if_pos hzero, if_neg (by omega)]
      · rw [if_neg hzero]
        by_cases hdeep : depthList items ≤ depth - 1
        · rw [if_pos hdeep, if_pos (by omega), Option.map_some]
        · rw [if_neg hdeep, if_neg (by omega), Option.map_none]
  | .object members, canonical, h, depth => by
      rw [Canonical] at canonical
      have hincrease : List.Pairwise (·.1 < ·.1) (([] : List (String × Json)) ++ members) :=
        canonical.1
      have hmembers := ofMembers?_trees hincrease canonical.2
        (fun n hn => h n (by simp [numbers, hn])) (depth - 1)
      rw [tree, ofTree?, Json.depth, hmembers]
      by_cases hzero : depth = 0
      · rw [if_pos hzero, if_neg (by omega)]
      · rw [if_neg hzero]
        by_cases hdeep : depthMembers members ≤ depth - 1
        · rw [if_pos hdeep, if_pos (by omega), Option.map_some, List.nil_append]
        · rw [if_neg hdeep, if_neg (by omega), Option.map_none]

/-- The same for the items of an array. -/
theorem ofItems?_trees : ∀ {items : List Json}, CanonicalList items →
    (∀ n ∈ itemNumbers items, n.ReadsBack) → ∀ depth,
    ofItems? depth (itemTrees items) = if depthList items ≤ depth then some items else none
  | [], _, _, depth => by simp [itemTrees, ofItems?, depthList]
  | v :: rest, canonical, h, depth => by
      rw [CanonicalList] at canonical
      have hv := ofTree?_tree canonical.1 (fun n hn => h n (by simp [itemNumbers, hn])) depth
      have hrest := ofItems?_trees canonical.2 (fun n hn => h n (by simp [itemNumbers, hn])) depth
      rw [itemTrees, ofItems?, hv, hrest, depthList]
      by_cases h₁ : v.depth ≤ depth
      · by_cases h₂ : depthList rest ≤ depth
        · rw [if_pos h₁, if_pos h₂, if_pos (by omega)]
        · rw [if_pos h₁, if_neg h₂, if_neg (by omega)]
      · have hdeep : ¬ max v.depth (depthList rest) ≤ depth := by omega
        rw [if_neg h₁, if_neg hdeep]

/-- The same for the members of an object, read after those with lower names. -/
theorem ofMembers?_trees : ∀ {members read : List (String × Json)},
    (read ++ members).Pairwise (·.1 < ·.1) → CanonicalMembers members →
    (∀ n ∈ memberNumbers members, n.ReadsBack) → ∀ depth,
    ofMembers? depth read (memberTrees members)
      = if depthMembers members ≤ depth then some (read ++ members) else none
  | [], read, _, _, _, depth => by simp [memberTrees, ofMembers?, depthMembers]
  | (name, v) :: rest, read, increase, canonical, h, depth => by
      rw [CanonicalMembers] at canonical
      have hname : Piece.text? (pieces name) = some name.toList := text?_pieces name.toList
      have hv := ofTree?_tree canonical.1 (fun n hn => h n (by simp [memberNumbers, hn])) depth
      have hlast : ∀ m ∈ read, m.1 < name := fun m hm =>
        (List.pairwise_append.1 increase).2.2 m hm (name, v) List.mem_cons_self
      have hincrease : (read ++ [(name, v)] ++ rest).Pairwise (·.1 < ·.1) := by
        rw [List.append_assoc]
        exact increase
      have hrest := ofMembers?_trees hincrease canonical.2
        (fun n hn => h n (by simp [memberNumbers, hn])) depth
      rw [memberTrees, ofMembers?, hname, hv, depthMembers]
      by_cases h₁ : v.depth ≤ depth
      · rw [if_pos h₁]
        dsimp only
        rw [String.ofList_toList, setMember_append v hlast, hrest, List.append_assoc]
        by_cases h₂ : depthMembers rest ≤ depth
        · rw [if_pos h₂, if_pos (by omega)]
          rfl
        · rw [if_neg h₂, if_neg (by omega)]
      · rw [if_neg h₁, if_neg (by omega)]

end

/-! ## Numbers of canonical values -/

mutual

/-- The whole numbers in a canonical value fit a word. -/
theorem Canonical.fits : ∀ {v : Json}, v.Canonical → ∀ n : Int, .int n ∈ numbers v → Word.Fits n
  | .number (.int m), canonical, n, h => by
      rw [numbers, List.mem_singleton, Number.int.injEq] at h
      rw [h]
      exact canonical
  | .array items, canonical, n, h => by
      rw [Canonical] at canonical
      exact CanonicalList.fits canonical n (by rwa [numbers] at h)
  | .object members, canonical, n, h => by
      rw [Canonical] at canonical
      exact CanonicalMembers.fits canonical.2 n (by rwa [numbers] at h)
  | .number (.float x), _, n, h => by simp [numbers] at h
  | .null, _, n, h => by simp [numbers] at h
  | .bool b, _, n, h => by simp [numbers] at h
  | .string s, _, n, h => by simp [numbers] at h

theorem CanonicalList.fits : ∀ {items : List Json}, CanonicalList items →
    ∀ n : Int, .int n ∈ itemNumbers items → Word.Fits n
  | [], _, n, h => by simp [itemNumbers] at h
  | v :: rest, canonical, n, h => by
      rw [CanonicalList] at canonical
      rw [itemNumbers, List.mem_append] at h
      rcases h with h | h
      · exact Canonical.fits canonical.1 n h
      · exact CanonicalList.fits canonical.2 n h

theorem CanonicalMembers.fits : ∀ {members : List (String × Json)}, CanonicalMembers members →
    ∀ n : Int, .int n ∈ memberNumbers members → Word.Fits n
  | [], _, n, h => by simp [memberNumbers] at h
  | (name, v) :: rest, canonical, n, h => by
      rw [CanonicalMembers] at canonical
      rw [memberNumbers, List.mem_append] at h
      rcases h with h | h
      · exact Canonical.fits canonical.1 n h
      · exact CanonicalMembers.fits canonical.2 n h

end

/-- Every binary64 number in the value reads back from its text. -/
def FloatsReadBack (v : Json) : Prop :=
  ∀ x : Binary64, .float x ∈ numbers v → (Number.float x).ReadsBack

/-- All numbers in a canonical value read back if the binary64 ones do. -/
theorem readsBack_of_floats {v : Json} (canonical : v.Canonical) (floats : v.FloatsReadBack) :
    ∀ n ∈ numbers v, n.ReadsBack := by
  intro n hn
  cases n with
  | int n => exact Number.readsBack_int (canonical.fits n hn)
  | float x => exact floats x hn

/-- Reading inverts writing up to the depth that reading allows, and gives nothing beyond. -/
theorem ofText?_text {v : Json} (canonical : v.Canonical) (floats : v.FloatsReadBack) :
    ofText? v.text = if v.depth ≤ maxDepth then some v else none := by
  have hnumbers := readsBack_of_floats canonical floats
  rw [ofText?, ofTextWithin?, ofText?_tree hnumbers, Option.bind_some,
    ofTree?_tree canonical hnumbers]

/-! ## The characters of a text -/

/-- Within a string every control character below the space is escaped. -/
theorem visible_stringChar (c : Char) : ∀ d ∈ stringChar c, 0x20 ≤ d.toNat := by
  have hdigit : ∀ n < 16, 0x20 ≤ (hexDigit n).toNat := by decide
  unfold stringChar
  -- Seven characters have an escape of their own, and other controls are written in digits.
  split_ifs with _ _ _ _ _ _ _ hcontrol
  iterate 7 simp
  · have hhigh := hdigit (c.toNat / 16) (by omega)
    have hlow := hdigit (c.toNat % 16) (Nat.mod_lt _ (by decide))
    show ∀ d ∈ ['\\', 'u', '0', '0'] ++ [hexDigit (c.toNat / 16), hexDigit (c.toNat % 16)], _
    refine List.forall_mem_append.2 ⟨by simp, ?_⟩
    exact List.forall_mem_cons.2 ⟨hhigh, List.forall_mem_singleton.2 hlow⟩
  · exact List.forall_mem_singleton.2 (Nat.le_of_not_lt hcontrol)

theorem visible_stringChars (s : String) : ∀ c ∈ stringChars s, 0x20 ≤ c.toNat := by
  refine List.forall_mem_cons.2 ⟨by decide, List.forall_mem_append.2 ⟨fun c hc => ?_, by simp⟩⟩
  obtain ⟨d, -, hd⟩ := List.mem_flatMap.1 hc
  exact visible_stringChar d c hd

theorem visible_of_continuesNumeral {c : Char} (h : continuesNumeral c = true) :
    0x20 ≤ c.toNat := by
  simp only [continuesNumeral, Bool.or_eq_true, beq_iff_eq] at h
  rcases h with ((((hdigit | rfl) | rfl) | rfl) | rfl) | rfl
  · exact Nat.le_trans (by decide) (Char.isDigit_iff_toNat.1 hdigit).1
  all_goals decide

mutual

/-- The text of a value has no control characters below the space, whatever the strings in the
value contain. -/
theorem visible_chars : ∀ {v : Json}, (∀ n ∈ numbers v, n.ReadsBack) →
    ∀ c ∈ v.chars, 0x20 ≤ c.toNat
  | .null, _ => by simp [chars]
  | .bool true, _ => by simp [chars]
  | .bool false, _ => by simp [chars]
  | .number n, h => by
      have hread := h n (by simp [numbers])
      obtain ⟨m, hm, -⟩ := Option.bind_eq_some_iff.1 hread
      intro c hc
      exact visible_of_continuesNumeral ((Numeral.continues_of_ofChars? hm).2 c hc)
  | .string s, _ => visible_stringChars s
  | .array [], _ => by simp [chars]
  | .array (v :: items), h => by
      have hv := visible_chars (v := v) fun n hn => h n (by simp [numbers, itemNumbers, hn])
      have hitems : ∀ c ∈ itemChars items, 0x20 ≤ c.toNat :=
        visible_itemChars fun n hn => h n (by simp [numbers, itemNumbers, hn])
      rw [chars]
      refine List.forall_mem_cons.2 ⟨by decide, ?_⟩
      exact List.forall_mem_append.2 ⟨List.forall_mem_append.2 ⟨hv, hitems⟩, by simp⟩
  | .object [], _ => by simp [chars]
  | .object ((name, v) :: members), h => by
      have hv := visible_chars (v := v) fun n hn => h n (by simp [numbers, memberNumbers, hn])
      have hmembers : ∀ c ∈ memberChars members, 0x20 ≤ c.toNat :=
        visible_memberChars fun n hn => h n (by simp [numbers, memberNumbers, hn])
      rw [chars]
      refine List.forall_mem_cons.2 ⟨by decide, ?_⟩
      refine List.forall_mem_append.2 ⟨visible_stringChars name, ?_⟩
      refine List.forall_mem_cons.2 ⟨by decide, ?_⟩
      exact List.forall_mem_append.2 ⟨List.forall_mem_append.2 ⟨hv, hmembers⟩, by simp⟩

/-- Nor have the items after the first one. -/
theorem visible_itemChars : ∀ {items : List Json}, (∀ n ∈ itemNumbers items, n.ReadsBack) →
    ∀ c ∈ itemChars items, 0x20 ≤ c.toNat
  | [], _ => by simp [itemChars]
  | v :: items, h => by
      have hv := visible_chars (v := v) fun n hn => h n (by simp [itemNumbers, hn])
      have hitems : ∀ c ∈ itemChars items, 0x20 ≤ c.toNat :=
        visible_itemChars fun n hn => h n (by simp [itemNumbers, hn])
      rw [itemChars]
      exact List.forall_mem_cons.2 ⟨by decide, List.forall_mem_append.2 ⟨hv, hitems⟩⟩

/-- Nor have the members after the first one. -/
theorem visible_memberChars : ∀ {members : List (String × Json)},
    (∀ n ∈ memberNumbers members, n.ReadsBack) → ∀ c ∈ memberChars members, 0x20 ≤ c.toNat
  | [], _ => by simp [memberChars]
  | (name, v) :: members, h => by
      have hv := visible_chars (v := v) fun n hn => h n (by simp [memberNumbers, hn])
      have hmembers : ∀ c ∈ memberChars members, 0x20 ≤ c.toNat :=
        visible_memberChars fun n hn => h n (by simp [memberNumbers, hn])
      rw [memberChars]
      refine List.forall_mem_cons.2 ⟨by decide, ?_⟩
      refine List.forall_mem_append.2 ⟨visible_stringChars name, ?_⟩
      exact List.forall_mem_cons.2 ⟨by decide, List.forall_mem_append.2 ⟨hv, hmembers⟩⟩

end

/-- The text of a value whose binary64 numbers read back stands on one line. -/
theorem visible_text {v : Json} (canonical : v.Canonical) (floats : v.FloatsReadBack) :
    ∀ c ∈ v.text.toList, 0x20 ≤ c.toNat := by
  rw [text, String.toList_ofList]
  exact visible_chars (readsBack_of_floats canonical floats)

end SettingStore.Json
