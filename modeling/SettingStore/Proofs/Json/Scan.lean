import SettingStore.Json.Text
import SettingStore.Proofs.Json.Numbers

set_option autoImplicit false

/-! # Scanning what was written

The text of a value is scanned into the tokens of its tree (`scan_chars`), whatever follows
it in the text, as long as that does not continue a number. Scanning takes for granted that
the numbers in the value read back; the whole numbers of a canonical value do.
-/

namespace SettingStore.Json

/-! ## Strings -/

/-- What a written character is scanned into: a control without a short escape is written by
its number. -/
def piece (c : Char) : Piece :=
  if c.toNat < 0x20 ∧ c ∉ ['\x08', '\x0c', '\n', '\r', '\t'] then .unit c.toNat else .char c

theorem hexValue?_hexDigit {n : Nat} (h : n < 16) : hexValue? (hexDigit n) = some n := by
  have hall : ∀ n, n < 16 → hexValue? (hexDigit n) = some n := by decide
  exact hall n h

/-- A control that is written by its number. -/
theorem scan_unit (read : List Piece) {c : Char} (h : c.toNat < 0x20) (rest : List Char) :
    scan (.string read)
        (['\\', 'u', '0', '0', hexDigit (c.toNat / 16), hexDigit (c.toNat % 16)] ++ rest)
      = scan (.string (.unit c.toNat :: read)) rest := by
  have hhigh := hexValue?_hexDigit (show c.toNat / 16 < 16 by omega)
  have hlow := hexValue?_hexDigit (show c.toNat % 16 < 16 by omega)
  have hzero : hexValue? '0' = some 0 := rfl
  have hcode : 16 * (c.toNat / 16) + c.toNat % 16 = c.toNat := by omega
  simp only [List.cons_append, List.nil_append, scan, Char.reduceEq, if_false, if_true, hzero,
    hhigh, hlow, Nat.mul_zero, Nat.zero_add, hcode]

theorem scan_stringChar (read : List Piece) (c : Char) (rest : List Char) :
    scan (.string read) (stringChar c ++ rest) = scan (.string (piece c :: read)) rest := by
  rw [stringChar]
  split
  · rename_i h
    subst h
    rfl
  split
  · rename_i h
    subst h
    rfl
  split
  · rename_i h
    subst h
    rfl
  split
  · rename_i h
    subst h
    rfl
  split
  · rename_i h
    subst h
    rfl
  split
  · rename_i h
    subst h
    rfl
  split
  · rename_i h
    subst h
    rfl
  split
  · rename_i hb hf hn hr ht hcontrol
    have hpiece : piece c = .unit c.toNat := if_pos ⟨hcontrol, by simp [hb, hf, hn, hr, ht]⟩
    rw [hpiece, scan_unit read hcontrol]
  · rename_i hquote hbackslash _ _ _ _ _ hcontrol
    have hpiece : piece c = .char c := if_neg fun h => hcontrol h.1
    rw [hpiece, List.singleton_append, scan, if_neg hquote, if_neg hbackslash, if_neg hcontrol]

/-- The pieces of a written string. -/
def pieces (s : String) : List Piece := s.toList.map piece

theorem scan_flatMap_stringChar (read : List Piece) (cs rest : List Char) :
    scan (.string read) (cs.flatMap stringChar ++ '"' :: rest)
      = before (some (.string (read.reverse ++ cs.map piece))) (scan .between rest) := by
  induction cs generalizing read with
  | nil =>
      rw [List.flatMap_nil, List.nil_append, scan, if_pos rfl, List.map_nil, List.append_nil]
  | cons c cs ih =>
      rw [List.flatMap_cons, List.append_assoc, scan_stringChar, ih, List.reverse_cons,
        List.append_assoc]
      rfl

theorem scan_stringChars (s : String) (rest : List Char) :
    scan .between (stringChars s ++ rest)
      = (scan .between rest).map (Token.string (pieces s) :: ·) := by
  have hbegins : scan .between (stringChars s ++ rest)
      = scan (.string []) (s.toList.flatMap stringChar ++ '"' :: rest) := by
    rw [stringChars, List.cons_append, List.append_assoc]
    rfl
  rw [hbegins, scan_flatMap_stringChar]
  rfl

/-- A code unit that is no half of a pair stands for a character, whatever follows. -/
theorem text?_unit {code : Nat} (hhigh : isHighUnit code = false) (hlow : isLowUnit code = false)
    (rest : List Piece) :
    Piece.text? (.unit code :: rest) = (Piece.text? rest).map (Char.ofNat code :: ·) := by
  cases rest with
  | nil => simp [Piece.text?, hhigh, hlow]
  | cons next others =>
      cases next with
      | unit low => rw [Piece.text?, if_neg (by simp [hhigh]), if_neg (by simp [hlow])]
      | char c =>
          rw [Piece.text?.eq_4 _ _ (by simp), if_neg (by simp [hhigh, hlow])]

/-- The pieces of a written string denote the string. -/
theorem text?_pieces (cs : List Char) : Piece.text? (cs.map piece) = some cs := by
  induction cs with
  | nil => rfl
  | cons c cs ih =>
      rw [List.map_cons]
      by_cases hcontrol : c.toNat < 0x20 ∧ c ∉ ['\x08', '\x0c', '\n', '\r', '\t']
      · have hpiece : piece c = .unit c.toNat := if_pos hcontrol
        have hhigh : isHighUnit c.toNat = false := by
          simp only [isHighUnit, Bool.and_eq_false_iff, decide_eq_false_iff_not]
          omega
        have hlow : isLowUnit c.toNat = false := by
          simp only [isLowUnit, Bool.and_eq_false_iff, decide_eq_false_iff_not]
          omega
        rw [hpiece, text?_unit hhigh hlow, ih, Option.map_some, Char.ofNat_toNat]
      · have hpiece : piece c = .char c := if_neg hcontrol
        rw [hpiece, Piece.text?, ih]
        rfl

/-! ## Numbers -/

/-- The text does not go on with a part of a number. -/
def Breaks (rest : List Char) : Prop := ∀ c, rest.head? = some c → continuesNumeral c = false

theorem breaks_nil : Breaks [] := by
  intro c hc
  exact absurd hc (by simp)

theorem breaks_cons {c : Char} (h : continuesNumeral c = false) (rest : List Char) :
    Breaks (c :: rest) := by
  intro d hd
  rw [List.head?_cons, Option.some.injEq] at hd
  rw [← hd]
  exact h

/-- The token of a number that reads back. -/
def numeral (n : Number) : Numeral := (Numeral.ofChars? n.chars).getD ⟨false, [], [], 0, true⟩

theorem numeral_spec {n : Number} (h : n.ReadsBack) :
    Numeral.ofChars? n.chars = some (numeral n) ∧ Number.ofNumeral? (numeral n) = some n := by
  rw [Number.ReadsBack, Option.bind_eq_some_iff] at h
  obtain ⟨m, hchars, hnumber⟩ := h
  have hm : numeral n = m := by
    rw [numeral, hchars]
    rfl
  rw [hm]
  exact ⟨hchars, hnumber⟩

/-- The scanner reads on to the end of a number. -/
theorem scan_numeral {read cs rest : List Char} (continues : ∀ c ∈ cs, continuesNumeral c = true)
    {m : Numeral} (hm : Numeral.ofChars? (read.reverse ++ cs) = some m) (breaks : Breaks rest) :
    scan (.numeral read) (cs ++ rest) = (scan .between rest).map (.number m :: ·) := by
  induction cs generalizing read with
  | nil =>
      rw [List.append_nil] at hm
      rw [List.nil_append]
      cases rest with
      | nil =>
          have hend : scan (.numeral read) []
              = (Numeral.ofChars? read.reverse).map fun n => [.number n] := rfl
          rw [hend, hm]
          rfl
      | cons c rest =>
          have hc : continuesNumeral c = false := breaks c rfl
          conv =>
            lhs
            rw [scan, if_neg (by simp [hc]), hm]
          rw [scan]
          -- The character that ends the number begins what it would begin between tokens.
          cases begins c <;> rfl
  | cons c cs ih =>
      have hc : continuesNumeral c = true := continues c List.mem_cons_self
      rw [List.cons_append, scan, if_pos hc]
      refine ih (fun d hd => continues d (List.mem_cons_of_mem _ hd)) ?_
      rw [List.reverse_cons, List.append_assoc]
      exact hm

theorem begins_numeral {c : Char} (h : (c.isDigit || c == '-') = true) :
    begins c = some (none, .numeral [c]) := by
  have hspace : isSpace c = false := by
    rcases Bool.or_eq_true_iff.1 h with hdigit | hminus
    · cases hc : isSpace c with
      | false => rfl
      | true =>
          simp only [isSpace, Bool.or_eq_true, beq_iff_eq] at hc
          rcases hc with ((rfl | rfl) | rfl) | rfl <;> exact absurd hdigit (by decide)
    · rw [beq_iff_eq.1 hminus]
      rfl
  unfold begins
  rw [if_neg (by simp [hspace]), if_pos h]

theorem scan_number {n : Number} (h : n.ReadsBack) {rest : List Char} (breaks : Breaks rest) :
    scan .between (n.chars ++ rest) = (scan .between rest).map (.number (numeral n) :: ·) := by
  obtain ⟨hchars, -⟩ := numeral_spec h
  obtain ⟨⟨c, cs, hcs, hfirst⟩, hcontinues⟩ := Numeral.continues_of_ofChars? hchars
  rw [hcs] at hchars hcontinues ⊢
  rw [List.cons_append, scan, begins_numeral hfirst]
  exact scan_numeral (fun d hd => hcontinues d (List.mem_cons_of_mem _ hd)) hchars breaks

/-! ## Values -/

mutual

/-- The numbers in a value. -/
def numbers : Json → List Number
  | .number n => [n]
  | .array items => itemNumbers items
  | .object members => memberNumbers members
  | _ => []

/-- The numbers in the items. -/
def itemNumbers : List Json → List Number
  | [] => []
  | v :: rest => numbers v ++ itemNumbers rest

/-- The numbers in the values of the members. -/
def memberNumbers : List (String × Json) → List Number
  | [] => []
  | (_, v) :: rest => numbers v ++ memberNumbers rest

end

mutual

/-- The tree of the text of a value. -/
def tree : Json → Tree
  | .null => .null
  | .bool b => .bool b
  | .number n => .number (numeral n)
  | .string s => .string (pieces s)
  | .array items => .array (itemTrees items)
  | .object members => .object (memberTrees members)

/-- The trees of the items. -/
def itemTrees : List Json → List Tree
  | [] => []
  | v :: rest => tree v :: itemTrees rest

/-- The trees of the members. -/
def memberTrees : List (String × Json) → List (List Piece × Tree)
  | [] => []
  | (name, v) :: rest => (pieces name, tree v) :: memberTrees rest

end

mutual

/-- The tokens that a tree consists of. -/
def tokens : Tree → List Token
  | .null => [.null]
  | .bool b => [.bool b]
  | .number n => [.number n]
  | .string pieces => [.string pieces]
  | .array [] => [.openArray, .closeArray]
  | .array (t :: rest) => .openArray :: (tokens t ++ itemTokens rest ++ [.closeArray])
  | .object [] => [.openObject, .closeObject]
  | .object ((name, t) :: rest) =>
      .openObject :: .string name :: .colon :: (tokens t ++ memberTokens rest ++ [.closeObject])

/-- The items after the first one, each after a comma. -/
def itemTokens : List Tree → List Token
  | [] => []
  | t :: rest => .comma :: (tokens t ++ itemTokens rest)

/-- The members after the first one, each after a comma. -/
def memberTokens : List (List Piece × Tree) → List Token
  | [] => []
  | (name, t) :: rest => .comma :: .string name :: .colon :: (tokens t ++ memberTokens rest)

end

/-- A token and what follows it. -/
theorem scan_between_cons {c : Char} {token : Token} (h : begins c = some (some token, .between))
    (rest : List Char) :
    scan .between (c :: rest) = (scan .between rest).map (token :: ·) := by
  rw [scan, h]
  rfl

theorem breaks_itemChars (items : List Json) (rest : List Char) :
    Breaks (itemChars items ++ ']' :: rest) := by
  cases items with
  | nil => exact breaks_cons rfl _
  | cons v others => exact breaks_cons rfl _

theorem breaks_memberChars (members : List (String × Json)) (rest : List Char) :
    Breaks (memberChars members ++ '\x7d' :: rest) := by
  cases members with
  | nil => exact breaks_cons rfl _
  | cons m others => exact breaks_cons rfl _

mutual

/-- The text of a value is scanned into the tokens of its tree. -/
theorem scan_chars : ∀ {v : Json}, (∀ n ∈ numbers v, n.ReadsBack) → ∀ {rest : List Char},
    Breaks rest → scan .between (v.chars ++ rest) = (scan .between rest).map (tokens (tree v) ++ ·)
  | .null, _, _, _ => rfl
  | .bool true, _, _, _ => rfl
  | .bool false, _, _, _ => rfl
  | .number n, h, _, breaks => by
      rw [chars, scan_number (h n (by simp [numbers])) breaks]
      rfl
  | .string s, _, rest, _ => by
      rw [chars, scan_stringChars]
      rfl
  | .array [], _, _, _ => by
      rw [chars, List.cons_append, scan_between_cons rfl, List.cons_append, scan_between_cons rfl,
        Option.map_map]
      rfl
  | .array (v :: items), h, rest, _ => by
      have hv := scan_chars (v := v) (fun n hn => h n (by simp [numbers, itemNumbers, hn]))
        (breaks_itemChars items rest)
      have hothers : ∀ n ∈ itemNumbers items, n.ReadsBack := fun n hn =>
        h n (by simp [numbers, itemNumbers, hn])
      have hitems := scan_itemChars hothers rest
      rw [chars, List.cons_append, scan_between_cons rfl, List.append_assoc, List.append_assoc,
        List.singleton_append, hv, hitems]
      simp [tree, itemTrees, tokens, Function.comp_def]
  | .object [], _, _, _ => by
      rw [chars, List.cons_append, scan_between_cons rfl, List.cons_append, scan_between_cons rfl,
        Option.map_map]
      rfl
  | .object ((name, v) :: members), h, rest, _ => by
      have hv := scan_chars (v := v) (fun n hn => h n (by simp [numbers, memberNumbers, hn]))
        (breaks_memberChars members rest)
      have hothers : ∀ n ∈ memberNumbers members, n.ReadsBack := fun n hn =>
        h n (by simp [numbers, memberNumbers, hn])
      have hmembers := scan_memberChars hothers rest
      rw [chars, List.cons_append, scan_between_cons rfl, List.append_assoc, scan_stringChars,
        List.cons_append, scan_between_cons rfl, List.append_assoc, List.append_assoc,
        List.singleton_append, hv, hmembers]
      simp [tree, memberTrees, tokens, Function.comp_def]

/-- The items after the first one, up to the end of the array. -/
theorem scan_itemChars : ∀ {items : List Json}, (∀ n ∈ itemNumbers items, n.ReadsBack) →
    ∀ rest : List Char, scan .between (itemChars items ++ ']' :: rest)
      = (scan .between rest).map (itemTokens (itemTrees items) ++ .closeArray :: ·)
  | [], _, rest => by
      rw [itemChars, List.nil_append, scan_between_cons rfl]
      rfl
  | v :: items, h, rest => by
      have hv := scan_chars (v := v) (fun n hn => h n (by simp [itemNumbers, hn]))
        (breaks_itemChars items rest)
      have hothers : ∀ n ∈ itemNumbers items, n.ReadsBack := fun n hn =>
        h n (by simp [itemNumbers, hn])
      have hitems := scan_itemChars hothers rest
      rw [itemChars, List.cons_append, scan_between_cons rfl, List.append_assoc, hv, hitems]
      simp [itemTrees, itemTokens, Function.comp_def]

/-- The members after the first one, up to the end of the object. -/
theorem scan_memberChars : ∀ {members : List (String × Json)},
    (∀ n ∈ memberNumbers members, n.ReadsBack) →
    ∀ rest : List Char, scan .between (memberChars members ++ '\x7d' :: rest)
      = (scan .between rest).map (memberTokens (memberTrees members) ++ .closeObject :: ·)
  | [], _, rest => by
      rw [memberChars, List.nil_append, scan_between_cons rfl]
      rfl
  | (name, v) :: members, h, rest => by
      have hv := scan_chars (v := v) (fun n hn => h n (by simp [memberNumbers, hn]))
        (breaks_memberChars members rest)
      have hothers : ∀ n ∈ memberNumbers members, n.ReadsBack := fun n hn =>
        h n (by simp [memberNumbers, hn])
      have hmembers := scan_memberChars hothers rest
      rw [memberChars, List.cons_append, scan_between_cons rfl, List.append_assoc,
        scan_stringChars, List.cons_append, scan_between_cons rfl, List.append_assoc, hv, hmembers]
      simp [memberTrees, memberTokens, Function.comp_def]

end

/-- The tokens of the text of a value are those of its tree. -/
theorem tokens?_chars {v : Json} (h : ∀ n ∈ numbers v, n.ReadsBack) :
    tokens? v.chars = some (tokens (tree v)) := by
  have hscan := scan_chars h breaks_nil
  rw [List.append_nil] at hscan
  rw [tokens?, hscan, scan, Option.map_some, List.append_nil]

end SettingStore.Json
