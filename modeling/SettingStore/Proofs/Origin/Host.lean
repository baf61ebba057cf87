import SettingStore.Origin.Host
import SettingStore.Proofs.Origin.Ipv6
import SettingStore.Proofs.Text.Spelling

set_option autoImplicit false

/-! # Hosts

The hosts that reading can answer are canonical (`canonical_of_ofChars?`): a name is in lower
case and no number, an address has its number of bits. A canonical host is read back from its
text (`ofChars?_chars`), in which no character has a meaning elsewhere in an address, brackets
and colons apart (`mem_chars`).
-/

namespace SettingStore

namespace Host

/-- A character as reading leaves it in a name. -/
def Kept (c : Char) : Prop := isNameChar c = true ∧ Text.asciiLower c = c

/-- The hosts that reading can answer. -/
def Canonical : Host → Prop
  | .name text => text ≠ [] ∧ (∀ c ∈ text, Kept c) ∧ Ipv4.endsInNumber text = false
  | .ipv4 address => address < 0x100000000
  | .ipv6 groups => Ipv6.IsAddress groups

/-! ## Characters -/

theorem isNameChar_of_isHexDigit {c : Char} (h : Ipv4.isHexDigit c = true) :
    isNameChar c = true := by
  have hreserved : reservedChars.contains c = false := by
    rw [← Bool.not_eq_true, List.contains_iff_mem]
    intro hmem
    have hnone : reservedChars.any Ipv4.isHexDigit = false := by decide
    rw [List.any_eq_true.2 ⟨c, hmem, h⟩] at hnone
    exact absurd hnone (by decide)
  rw [Ipv4.isHexDigit_iff] at h
  rw [isNameChar, hreserved, decide_eq_true (by omega), decide_eq_true (by omega)]
  rfl

theorem kept_of_mem_ipv4 {address : Nat} {c : Char} (h : c ∈ Ipv4.chars address) : Kept c := by
  rcases Ipv4.mem_chars h with hdigit | rfl
  · have hhex := Ipv4.isHexDigit_of_isDigit hdigit
    refine ⟨isNameChar_of_isHexDigit hhex, Text.asciiLower_eq_self (Or.inl ?_)⟩
    simp only [Char.isDigit, Bool.and_eq_true, decide_eq_true_eq, UInt32.le_iff_toNat_le] at hdigit
    have hhigh : c.toNat ≤ 57 := hdigit.2
    omega
  · exact ⟨rfl, rfl⟩

theorem chars_ne_nil {host : Host} (h : host.Canonical) : host.chars ≠ [] := by
  cases host with
  | name text => exact h.1
  | ipv4 address => simp [chars, Ipv4.chars]
  | ipv6 groups => exact List.cons_ne_nil _ _

/-- The characters of a canonical host. -/
theorem mem_chars {host : Host} (h : host.Canonical) {c : Char} (hc : c ∈ host.chars) :
    isNameChar c = true ∨ c = ':' ∨ c = '[' ∨ c = ']' := by
  cases host with
  | name text => exact Or.inl (h.2.1 c hc).1
  | ipv4 address => exact Or.inl (kept_of_mem_ipv4 hc).1
  | ipv6 groups =>
      simp only [chars, List.mem_cons, List.mem_append, List.not_mem_nil, or_false] at hc
      rcases hc with hc | hc | hc
      · exact Or.inr (Or.inr (Or.inl hc))
      · rcases Ipv6.mem_chars hc with hc | hc
        · exact Or.inl (isNameChar_of_isHexDigit hc)
        · exact Or.inr (Or.inl hc)
      · exact Or.inr (Or.inr (Or.inr hc))

/-! ## Reading -/

theorem unescaped_eq_self {cs : List Char} (h : ∀ c ∈ cs, c ≠ '%') : unescaped cs = cs := by
  induction cs with
  | nil => rfl
  | cons c rest ih =>
      rw [unescaped, ih fun d hd => h d (List.mem_cons_of_mem _ hd)]
      rintro high low others rfl
      exact absurd rfl (h _ List.mem_cons_self)

/-- A text of characters that reading keeps is an IPv4 address or a name. -/
theorem ofChars?_of_kept {cs : List Char} (hne : cs ≠ []) (h : ∀ c ∈ cs, Kept c) :
    ofChars? cs =
      if Ipv4.endsInNumber cs then (Ipv4.ofChars? cs).map .ipv4 else some (.name cs) := by
  have hhead : (cs.head? == some '[') = false := by
    rw [beq_eq_false_iff_ne]
    intro hhead
    exact absurd (h _ (List.mem_of_mem_head? hhead)).1 (by decide)
  have hpercent : ∀ c ∈ cs, c ≠ '%' := by
    rintro _ hc rfl
    exact absurd (h _ hc).1 (by decide)
  have hname : (unescaped cs).map Text.asciiLower = cs := by
    calc (unescaped cs).map Text.asciiLower
        = cs.map Text.asciiLower := by rw [unescaped_eq_self hpercent]
      _ = cs.map id := List.map_congr_left fun c hc => (h c hc).2
      _ = cs := List.map_id cs
  have hall : cs.all isNameChar = true := List.all_eq_true.2 fun c hc => (h c hc).1
  have hempty : cs.isEmpty = false := List.isEmpty_eq_false_iff.2 hne
  rw [ofChars?, hhead, if_neg (by simp)]
  simp only [hname, hall, hempty]
  rfl

/-- A canonical host is read back from its text. -/
theorem ofChars?_chars {host : Host} (h : host.Canonical) : ofChars? host.chars = some host := by
  cases host with
  | name text =>
      obtain ⟨hne, hkept, hnumber⟩ := h
      rw [chars, ofChars?_of_kept hne hkept, hnumber]
      rfl
  | ipv4 address =>
      have hne : Ipv4.chars address ≠ [] := chars_ne_nil h
      rw [chars, ofChars?_of_kept hne fun _ hc => kept_of_mem_ipv4 hc, Ipv4.endsInNumber_chars,
        Ipv4.ofChars?_chars h]
      rfl
  | ipv6 groups =>
      have hlast : ('[' :: (Ipv6.chars groups ++ [']'])).getLast? = some ']' := by
        rw [← List.cons_append, List.getLast?_concat]
      have hinside : (('[' :: (Ipv6.chars groups ++ [']'])).drop 1).dropLast =
          Ipv6.chars groups := List.dropLast_concat
      rw [chars, ofChars?, List.head?_cons, hlast, hinside, Ipv6.ofChars?_chars h]
      rfl

/-- What is read is canonical. -/
theorem canonical_of_ofChars? {cs : List Char} {host : Host} (h : ofChars? cs = some host) :
    host.Canonical := by
  rw [ofChars?] at h
  split at h
  · split at h
    · obtain ⟨groups, hread, rfl⟩ := Option.map_eq_some_iff.1 h
      exact Ipv6.isAddress_of_ofChars? hread
    · exact absurd h (by simp)
  · simp only at h
    split at h
    · exact absurd h (by simp)
    · rename_i hname
      split at h
      · obtain ⟨address, hread, rfl⟩ := Option.map_eq_some_iff.1 h
        exact Ipv4.lt_of_ofChars? hread
      · rename_i hnumber
        simp only [Bool.or_eq_true, List.isEmpty_iff, Bool.not_eq_true', not_or,
          Bool.not_eq_false, List.all_eq_true] at hname
        rw [← Option.some.inj h]
        refine ⟨hname.1, fun c hc => ⟨hname.2 c hc, ?_⟩, Bool.eq_false_iff.2 hnumber⟩
        obtain ⟨d, -, rfl⟩ := List.mem_map.1 hc
        exact Text.asciiLower_asciiLower d

end Host

end SettingStore
