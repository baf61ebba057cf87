import SettingStore.Origin.Ipv4
import SettingStore.Proofs.Json.Numbers
import SettingStore.Proofs.Store.Texts
import Mathlib.Data.List.Induction

set_option autoImplicit false

/-! # Digits and IPv4 addresses

A number is read back from its digits in every base up to sixteen (`valueIn_toDigits`). What is
read as an address fits 32 bits (`lt_of_ofChars?`), and every such address is read back from its
four decimal numbers (`ofChars?_chars`).
-/

namespace SettingStore.Ipv4

/-! ## Digits -/

theorem hexValue_digitChar : ∀ d, d < 16 → hexValue (Nat.digitChar d) = d := by decide

theorem isHexDigit_digitChar : ∀ d, d < 16 → isHexDigit (Nat.digitChar d) = true := by decide

theorem isHexDigit_iff {c : Char} :
    isHexDigit c = true ↔ (48 ≤ c.toNat ∧ c.toNat ≤ 57) ∨ (97 ≤ c.toNat ∧ c.toNat ≤ 102) ∨
      (65 ≤ c.toNat ∧ c.toNat ≤ 70) := by
  simp only [isHexDigit, Char.isDigit, Bool.or_eq_true, Bool.and_eq_true, decide_eq_true_eq,
    Char.le_def, UInt32.le_iff_toNat_le]
  exact or_assoc

theorem isHexDigit_of_isDigit {c : Char} (h : c.isDigit = true) : isHexDigit c = true := by
  rw [isHexDigit, h]
  rfl

theorem hexValue_lt {c : Char} (h : isHexDigit c = true) : hexValue c < 16 := by
  rw [isHexDigit_iff] at h
  simp only [hexValue, Char.isDigit, Bool.and_eq_true, decide_eq_true_eq, Char.le_def,
    UInt32.le_iff_toNat_le]
  show (if 48 ≤ c.toNat ∧ c.toNat ≤ 57 then c.toNat - 48
    else if 97 ≤ c.toNat then c.toNat - 97 + 10 else c.toNat - 65 + 10) < 16
  split
  · omega
  · split <;> omega

theorem valueIn_concat (base : Nat) (digits : List Char) (c : Char) :
    valueIn base (digits ++ [c]) = base * valueIn base digits + hexValue c := by
  rw [valueIn, List.foldl_append]
  rfl

/-- Digits below the base that are `k` in number have a value below its `k`-th power. -/
theorem valueIn_lt {base : Nat} {digits : List Char} (h : ∀ c ∈ digits, hexValue c < base) :
    valueIn base digits < Nat.pow base digits.length := by
  induction digits using List.reverseRecOn with
  | nil => exact Nat.one_pos
  | append_singleton digits c ih =>
      have hdigits := ih fun d hd => h d (List.mem_append_left _ hd)
      have hc : hexValue c < base := h c (by simp)
      rw [valueIn_concat, List.length_append, List.length_singleton]
      calc base * valueIn base digits + hexValue c
          < base * (valueIn base digits + 1) := by rw [Nat.mul_succ]; omega
        _ ≤ base * Nat.pow base digits.length := Nat.mul_le_mul_left base hdigits
        _ = Nat.pow base (digits.length + 1) := Nat.mul_comm ..

/-- The digits of a number have its value. -/
theorem valueIn_toDigits {base : Nat} (hlow : 1 < base) (hhigh : base ≤ 16) (n : Nat) :
    valueIn base (Nat.toDigits base n) = n := by
  induction n using Nat.strongRecOn with
  | ind n ih =>
      rw [Nat.toDigits_eq_if hlow]
      split
      · rename_i hlt
        rw [← List.nil_append [_], valueIn_concat, hexValue_digitChar n (by omega)]
        exact Nat.zero_add n
      · rename_i hge
        have hmod : n % base < base := Nat.mod_lt n (by omega)
        rw [valueIn_concat, ih (n / base) (Nat.div_lt_self (by omega) hlow),
          hexValue_digitChar _ (by omega)]
        exact Nat.div_add_mod n base

theorem isHexDigit_of_mem_toDigits {n : Nat} {c : Char} (h : c ∈ Nat.toDigits 16 n) :
    isHexDigit c = true := by
  induction n using Nat.strongRecOn with
  | ind n ih =>
      rw [Nat.toDigits_eq_if (by decide)] at h
      split at h
      · rename_i hlt
        rw [List.mem_singleton.1 h]
        exact isHexDigit_digitChar n hlt
      · rcases List.mem_append.1 h with h | h
        · exact ih (n / 16) (by omega) h
        · rw [List.mem_singleton.1 h]
          exact isHexDigit_digitChar (n % 16) (Nat.mod_lt n (by decide))

theorem all_isDigit_toDigits (n : Nat) : (Nat.toDigits 10 n).all Char.isDigit = true :=
  List.all_eq_true.2 fun _ hc => Nat.isDigit_of_mem_toDigits (by decide) (by decide) hc

/-! ## Numbers -/

/-- Digits without a needless leading zero are a decimal number. -/
theorem number?_of_digits {cs : List Char} (hne : cs ≠ []) (hdigits : cs.all Char.isDigit = true)
    (hhead : cs = ['0'] ∨ cs.head? ≠ some '0') : number? cs = some (valueIn 10 cs) := by
  unfold number?
  split
  · exact absurd rfl hne
  · simp at hhead
  · simp at hhead
  · simp at hhead
  · rw [if_pos hdigits]

theorem number?_toDigits (n : Nat) : number? (Nat.toDigits 10 n) = some n := by
  have hhead : Nat.toDigits 10 n = ['0'] ∨ (Nat.toDigits 10 n).head? ≠ some '0' := by
    rcases Nat.eq_zero_or_pos n with rfl | hpos
    · exact Or.inl rfl
    · exact Or.inr (Text.head?_toDigits hpos)
  rw [number?_of_digits Nat.toDigits_ne_nil (all_isDigit_toDigits n) hhead,
    valueIn_toDigits (by decide) (by decide)]

/-! ## Addresses -/

/-- No digit is a point. -/
theorem ne_point_of_mem_toDigits {n : Nat} {c : Char} (h : c ∈ Nat.toDigits 10 n) :
    (c == '.') = false := by
  rw [beq_eq_false_iff_ne]
  rintro rfl
  exact absurd (Nat.isDigit_of_mem_toDigits (by decide) (by decide) h) (by decide)

/-- The four bytes of an address, the highest one first. -/
def bytes (address : Nat) : List Nat :=
  [address / 0x1000000 % 256, address / 0x10000 % 256, address / 0x100 % 256, address % 256]

/-- An address is written in four parts, one for each byte. -/
theorem parts_chars (address : Nat) :
    parts (chars address) = (bytes address).map (Nat.toDigits 10) := by
  have hall : Text.segments (· == '.') (chars address) =
      (bytes address).map (Nat.toDigits 10) := by
    rw [chars, Text.segments_append (fun _ hc => ne_point_of_mem_toDigits hc) rfl,
      Text.segments_append (fun _ hc => ne_point_of_mem_toDigits hc) rfl,
      Text.segments_append (fun _ hc => ne_point_of_mem_toDigits hc) rfl,
      Text.segments_eq_singleton fun _ hc => ne_point_of_mem_toDigits hc]
    rfl
  -- No part is empty, the last one neither.
  have hlast : Nat.toDigits 10 (address % 256) ≠ [] := Nat.toDigits_ne_nil
  rw [parts, hall]
  simp [bytes, hlast]

/-- A written address ends in a number. -/
theorem endsInNumber_chars (address : Nat) : endsInNumber (chars address) = true := by
  have hlast : (Nat.toDigits 10 (address % 256)).isEmpty = false := by
    simp [Nat.toDigits_ne_nil]
  rw [endsInNumber, parts_chars]
  simp [bytes, hlast, all_isDigit_toDigits]

/-- Three bytes and a last one. -/
theorem assemble?_bytes {a b c d : Nat} (ha : a < 256) (hb : b < 256) (hc : c < 256)
    (hd : d < 256) :
    assemble? [a, b, c] d = some (0x1000000 * a + 0x10000 * b + 0x100 * c + d) := by
  have hbytes : [a, b, c].any (255 < ·) = false := by
    simp only [List.any_cons, List.any_nil, Bool.or_false, Bool.or_eq_false_iff,
      decide_eq_false_iff_not]
    omega
  have hroom : ¬ Nat.pow 256 (4 - [a, b, c].length) ≤ d := by
    show ¬ 256 ≤ d
    omega
  rw [assemble?, if_neg (by simp), hbytes, if_neg (by simp)]
  simp only [if_neg hroom]
  show some ((256 * (256 * (256 * 0 + a) + b) + c) * 256 + d) = _
  congr 1
  omega

/-- An address is written with digits and points. -/
theorem mem_chars {address : Nat} {c : Char} (h : c ∈ chars address) :
    c.isDigit = true ∨ c = '.' := by
  have hdigit : ∀ {n}, c ∈ Nat.toDigits 10 n → c.isDigit = true := fun hc =>
    Nat.isDigit_of_mem_toDigits (by decide) (by decide) hc
  simp only [chars, List.mem_append, List.mem_cons] at h
  rcases h with h | h | h | h | h | h | h
  · exact Or.inl (hdigit h)
  · exact Or.inr h
  · exact Or.inl (hdigit h)
  · exact Or.inr h
  · exact Or.inl (hdigit h)
  · exact Or.inr h
  · exact Or.inl (hdigit h)

/-- Every address of 32 bits is read back from its four numbers. -/
theorem ofChars?_chars {address : Nat} (h : address < 0x100000000) :
    ofChars? (chars address) = some address := by
  have hbyte : ∀ n, n % 256 < 256 := fun n => Nat.mod_lt n (by decide)
  rw [ofChars?, parts_chars]
  simp only [bytes, List.map_cons, List.map_nil, List.mapM_cons, List.mapM_nil, number?_toDigits]
  show assemble? [_, _, _] _ = some address
  rw [assemble?_bytes (hbyte _) (hbyte _) (hbyte _) (hbyte _)]
  congr 1
  omega

/-- Numbers below 256 have a value below the power of 256 that belongs to their count. -/
theorem foldl_lt {numbers : List Nat} (h : ∀ part ∈ numbers, part < 256) (start : Nat) :
    numbers.foldl (fun n part => 256 * n + part) start <
      (start + 1) * Nat.pow 256 numbers.length := by
  induction numbers generalizing start with
  | nil => simp
  | cons part rest ih =>
      have hpart : part < 256 := h part List.mem_cons_self
      rw [List.foldl_cons, List.length_cons]
      calc rest.foldl (fun n part => 256 * n + part) (256 * start + part)
          < (256 * start + part + 1) * Nat.pow 256 rest.length :=
            ih (fun part hmem => h part (List.mem_cons_of_mem _ hmem)) _
        _ ≤ (start + 1) * 256 * Nat.pow 256 rest.length := Nat.mul_le_mul_right _ (by omega)
        _ = (start + 1) * (Nat.pow 256 rest.length * 256) := by
            rw [Nat.mul_assoc, Nat.mul_comm 256]

theorem lt_of_assemble? {numbers : List Nat} {last address : Nat}
    (h : assemble? numbers last = some address) : address < 0x100000000 := by
  rw [assemble?] at h
  split at h
  · exact absurd h (by simp)
  rename_i hcount
  split at h
  · exact absurd h (by simp)
  rename_i hbytes
  simp only at h
  split at h
  · exact absurd h (by simp)
  rename_i hlast
  have hbelow : ∀ part ∈ numbers, part < 256 := by
    intro part hmem
    by_contra hge
    exact hbytes (List.any_eq_true.2 ⟨part, hmem, decide_eq_true (by omega)⟩)
  -- The numbers and the room for the last one make up the four bytes.
  have hfour : numbers.length + (4 - numbers.length) = 4 := by omega
  have hroom : Nat.pow 256 numbers.length * Nat.pow 256 (4 - numbers.length) = 0x100000000 := by
    calc Nat.pow 256 numbers.length * Nat.pow 256 (4 - numbers.length)
        = Nat.pow 256 (numbers.length + (4 - numbers.length)) := (Nat.pow_add 256 _ _).symm
      _ = Nat.pow 256 4 := congrArg (Nat.pow 256) hfour
      _ = 0x100000000 := rfl
  have hvalue := foldl_lt hbelow 0
  rw [Nat.zero_add, Nat.one_mul] at hvalue
  rw [Nat.not_le] at hlast
  rw [← Option.some.inj h, ← hroom]
  calc numbers.foldl (fun n part => 256 * n + part) 0 * Nat.pow 256 (4 - numbers.length) + last
      < (numbers.foldl (fun n part => 256 * n + part) 0 + 1) *
          Nat.pow 256 (4 - numbers.length) := by
        rw [Nat.succ_mul]
        exact Nat.add_lt_add_left hlast _
    _ ≤ Nat.pow 256 numbers.length * Nat.pow 256 (4 - numbers.length) :=
        Nat.mul_le_mul_right _ hvalue

/-- An address that is read has 32 bits. -/
theorem lt_of_ofChars? {cs : List Char} {address : Nat} (h : ofChars? cs = some address) :
    address < 0x100000000 := by
  rw [ofChars?] at h
  split at h
  · exact lt_of_assemble? h
  · exact absurd h (by simp)

end SettingStore.Ipv4
