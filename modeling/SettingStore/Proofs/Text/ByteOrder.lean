set_option autoImplicit false

/-! # The order of texts by their bytes

Texts are compared by code points. In UTF-8 this is the order of their bytes
(`bytes_lt_iff`), because two different characters first differ in a byte of which the one
with the lower code point has the lower (`utf8EncodeChar_lt`). For the same reason a text
begins with another one exactly if its bytes do (`bytes_prefix_iff`).
-/

namespace SettingStore.Text

/-- The bytes of a text in UTF-8. -/
def bytes (s : String) : List UInt8 := s.toUTF8.data.toList

theorem bytes_eq (s : String) : bytes s = s.toList.flatMap String.utf8EncodeChar := by
  rw [bytes, String.toUTF8_eq_toByteArray, ← String.utf8Encode_toList, List.utf8Encode,
    List.data_toByteArray]

/-! ## Characters -/

/-- The encodings of two characters in order first differ in a byte that is in order too. -/
def FirstLower (v w : List UInt8) : Prop :=
  ∃ same a b v' w', v = same ++ a :: v' ∧ w = same ++ b :: w' ∧ a < b

theorem FirstLower.head {a b : UInt8} (h : a < b) (v w : List UInt8) :
    FirstLower (a :: v) (b :: w) := ⟨[], a, b, v, w, rfl, rfl, h⟩

theorem FirstLower.cons (a : UInt8) {v w : List UInt8} (h : FirstLower v w) :
    FirstLower (a :: v) (a :: w) := by
  obtain ⟨same, b, c, v', w', rfl, rfl, hlt⟩ := h
  exact ⟨a :: same, b, c, v', w', rfl, rfl, hlt⟩

/-- Bytes that stand for small numbers are compared like these. -/
theorem ofNat_lt {m n : Nat} (h : m < n) (hn : n < 256) : UInt8.ofNat m < UInt8.ofNat n := by
  rw [UInt8.lt_iff_toNat_lt, UInt8.toNat_ofNat_of_lt' (Nat.lt_trans h hn),
    UInt8.toNat_ofNat_of_lt' hn]
  exact h

/-- If the first bytes do not differ, the others decide. -/
theorem FirstLower.ofNat {m n : Nat} (hle : m ≤ n) (hn : n < 256) {v w : List UInt8}
    (h : m = n → FirstLower v w) : FirstLower (UInt8.ofNat m :: v) (UInt8.ofNat n :: w) := by
  rcases Nat.lt_or_eq_of_le hle with hlt | rfl
  · exact FirstLower.head (ofNat_lt hlt hn) v w
  · exact FirstLower.cons _ (h rfl)

theorem utf8EncodeChar_lt {c d : Char} (h : c < d) :
    FirstLower (String.utf8EncodeChar c) (String.utf8EncodeChar d) := by
  have hlt : c.val.toNat < d.val.toNat := UInt32.lt_iff_toNat_lt.1 h
  have hmax : d.val.toNat < 1114112 := by
    have := d.valid
    rcases this with h | ⟨-, h⟩
    · exact Nat.lt_trans h (by decide)
    · exact h
  generalize hv : c.val.toNat = v at hlt
  generalize hw : d.val.toNat = w at hlt hmax
  rw [String.utf8EncodeChar, String.utf8EncodeChar, hv, hw]
  -- One case for each number of bytes of the first character and of the second.
  split
  · split
    · exact FirstLower.head (ofNat_lt hlt (by omega)) _ _
    · split
      · exact FirstLower.head (ofNat_lt (by omega) (by omega)) _ _
      · split
        · exact FirstLower.head (ofNat_lt (by omega) (by omega)) _ _
        · exact FirstLower.head (ofNat_lt (by omega) (by omega)) _ _
  · rw [if_neg (by omega : ¬ w ≤ 127)]
    split
    · split
      · refine FirstLower.ofNat (by omega) (by omega) fun _ => ?_
        exact FirstLower.head (ofNat_lt (by omega) (by omega)) _ _
      · split
        · exact FirstLower.head (ofNat_lt (by omega) (by omega)) _ _
        · exact FirstLower.head (ofNat_lt (by omega) (by omega)) _ _
    · rw [if_neg (by omega : ¬ w ≤ 2047)]
      split
      · split
        · refine FirstLower.ofNat (by omega) (by omega) fun _ => ?_
          refine FirstLower.ofNat (by omega) (by omega) fun _ => ?_
          exact FirstLower.head (ofNat_lt (by omega) (by omega)) _ _
        · exact FirstLower.head (ofNat_lt (by omega) (by omega)) _ _
      · rw [if_neg (by omega : ¬ w ≤ 65535)]
        refine FirstLower.ofNat (by omega) (by omega) fun _ => ?_
        refine FirstLower.ofNat (by omega) (by omega) fun _ => ?_
        refine FirstLower.ofNat (by omega) (by omega) fun _ => ?_
        exact FirstLower.head (ofNat_lt (by omega) (by omega)) _ _

/-! ## Texts -/

theorem FirstLower.append_lt {v w : List UInt8} (h : FirstLower v w) (v' w' : List UInt8) :
    v ++ v' < w ++ w' := by
  obtain ⟨same, a, b, v'', w'', rfl, rfl, hlt⟩ := h
  rw [List.append_assoc, List.append_assoc]
  exact List.append_left_lt (List.Lex.rel hlt)

/-- No character is encoded by no byte. -/
theorem utf8EncodeChar_ne_nil (c : Char) : String.utf8EncodeChar c ≠ [] := by
  intro h
  have hlength := congrArg List.length h
  rw [String.length_utf8EncodeChar] at hlength
  exact absurd hlength (Nat.ne_of_gt c.utf8Size_pos)

theorem flatMap_utf8EncodeChar_lt {cs ds : List Char} (h : cs < ds) :
    cs.flatMap String.utf8EncodeChar < ds.flatMap String.utf8EncodeChar := by
  induction h with
  | @nil d ds =>
      rw [List.flatMap_nil, List.flatMap_cons]
      cases hd : String.utf8EncodeChar d with
      | nil => exact absurd hd (utf8EncodeChar_ne_nil d)
      | cons a rest => exact List.nil_lt_cons a _
  | @cons c cs ds _ ih =>
      rw [List.flatMap_cons, List.flatMap_cons]
      exact List.append_left_lt ih
  | @rel c cs d ds hlt =>
      rw [List.flatMap_cons, List.flatMap_cons]
      exact (utf8EncodeChar_lt hlt).append_lt _ _

/-- The order of texts is the order of their bytes. -/
theorem bytes_lt_iff {s t : String} : bytes s < bytes t ↔ s < t := by
  rw [bytes_eq, bytes_eq]
  constructor
  · intro h
    rcases Std.lt_trichotomy s t with hlt | rfl | hgt
    · exact hlt
    · exact absurd h (List.lt_irrefl _)
    · exact absurd h (List.lt_asymm (flatMap_utf8EncodeChar_lt hgt))
  · intro h
    exact flatMap_utf8EncodeChar_lt h

/-! ## Texts that begin alike -/

/-- Of two lists that first differ in a byte neither begins with the other. -/
theorem FirstLower.apart {v w : List UInt8} (h : FirstLower v w) (v' w' : List UInt8) :
    ¬ v ++ v' <+: w ++ w' ∧ ¬ w ++ w' <+: v ++ v' := by
  obtain ⟨same, a, b, v'', w'', rfl, rfl, hlt⟩ := h
  have hne : a ≠ b := fun heq => absurd hlt (heq ▸ UInt8.lt_irrefl a)
  simp [hne, hne.symm]

theorem flatMap_utf8EncodeChar_prefix_iff {cs ds : List Char} :
    cs.flatMap String.utf8EncodeChar <+: ds.flatMap String.utf8EncodeChar ↔ cs <+: ds := by
  induction cs generalizing ds with
  | nil => simp
  | cons c cs ih =>
      cases ds with
      | nil =>
          have hne : String.utf8EncodeChar c ≠ [] := utf8EncodeChar_ne_nil c
          simp [hne]
      | cons d ds =>
          rw [List.flatMap_cons, List.flatMap_cons, List.cons_prefix_cons]
          rcases Std.lt_trichotomy c d with hlt | rfl | hgt
          · have hnot := ((utf8EncodeChar_lt hlt).apart (cs.flatMap String.utf8EncodeChar)
              (ds.flatMap String.utf8EncodeChar)).1
            exact iff_of_false hnot fun h => absurd hlt (h.1 ▸ Char.lt_irrefl c)
          · rw [List.prefix_append_right_inj, ih, and_iff_right rfl]
          · have hnot := ((utf8EncodeChar_lt hgt).apart (ds.flatMap String.utf8EncodeChar)
              (cs.flatMap String.utf8EncodeChar)).2
            exact iff_of_false hnot fun h => absurd hgt (h.1 ▸ Char.lt_irrefl c)

/-- A text begins with another one exactly if its bytes begin with those of the other one. -/
theorem bytes_prefix_iff {s t : String} : bytes s <+: bytes t ↔ s.toList <+: t.toList := by
  rw [bytes_eq, bytes_eq, flatMap_utf8EncodeChar_prefix_iff]

end SettingStore.Text
