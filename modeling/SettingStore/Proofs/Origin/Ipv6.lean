import SettingStore.Origin.Ipv6
import SettingStore.Proofs.Origin.Ipv4

set_option autoImplicit false

/-! # IPv6 addresses

What is read as an address has eight groups of 16 bits (`isAddress_of_ofChars?`), and every such
address is read back from its short form (`ofChars?_chars`).
-/

namespace SettingStore.Ipv6

/-- Eight groups of 16 bits. -/
structure IsAddress (groups : List Nat) : Prop where
  count : groups.length = 8
  small : ∀ g ∈ groups, g < 0x10000

/-! ## Groups -/

section Groups

variable {groups : List Nat}

/-- No hexadecimal digit is a colon or a point. -/
theorem not_mark_of_mem_toDigits {n : Nat} {c : Char} (h : c ∈ Nat.toDigits 16 n) :
    c ≠ ':' ∧ c ≠ '.' := by
  have hdigit := Ipv4.isHexDigit_of_mem_toDigits h
  constructor
  · rintro rfl
    exact absurd hdigit (by decide)
  · rintro rfl
    exact absurd hdigit (by decide)

theorem group?_toDigits {g : Nat} (h : g < 0x10000) : group? (Nat.toDigits 16 g) = some g := by
  have hne : (Nat.toDigits 16 g).isEmpty = false := by simp [Nat.toDigits_ne_nil]
  have hlength : (Nat.toDigits 16 g).length ≤ 4 :=
    (Nat.length_toDigits_le_iff (by decide) (by decide)).2 h
  have hdigits : (Nat.toDigits 16 g).all Ipv4.isHexDigit = true :=
    List.all_eq_true.2 fun _ hc => Ipv4.isHexDigit_of_mem_toDigits hc
  rw [group?, hne, hdigits, decide_eq_false (by omega), if_neg (by simp),
    Ipv4.valueIn_toDigits (by decide) (by decide)]

theorem groups?_toDigits (atEnd : Bool) (h : ∀ g ∈ groups, g < 0x10000) :
    groups? atEnd (groups.map (Nat.toDigits 16)) = some groups := by
  induction groups with
  | nil => rfl
  | cons g rest ih =>
      have hg := group?_toDigits (h g List.mem_cons_self)
      have hrest := ih fun g hmem => h g (List.mem_cons_of_mem _ hmem)
      cases rest with
      | nil =>
          have hpoint : (Nat.toDigits 16 g).contains '.' = false := by
            rw [← Bool.not_eq_true, List.contains_iff_mem]
            exact fun hmem => (not_mark_of_mem_toDigits hmem).2 rfl
          rw [List.map_cons, List.map_nil, groups?, hpoint, Bool.and_false, hg]
          rfl
      | cons next others =>
          rw [List.map_cons] at hrest
          rw [List.map_cons, List.map_cons, groups?, hg, hrest]
          simp

theorem segments_groupChars (h : groups ≠ []) :
    Text.segments (· == ':') (groupChars groups) = groups.map (Nat.toDigits 16) := by
  have hcolon : ∀ g, ∀ c ∈ Nat.toDigits 16 g, (c == ':') = false := fun g c hc =>
    beq_eq_false_iff_ne.2 (not_mark_of_mem_toDigits hc).1
  induction groups with
  | nil => exact absurd rfl h
  | cons g rest ih =>
      cases rest with
      | nil => exact Text.segments_eq_singleton (hcolon g)
      | cons next others =>
          rw [groupChars, Text.segments_append (hcolon g) rfl, ih (by simp)]
          · rfl
          · simp

/-- A side of a double colon is read back. -/
theorem side?_groupChars (atEnd : Bool) (h : ∀ g ∈ groups, g < 0x10000) :
    side? atEnd (groupChars groups) = some groups := by
  cases groups with
  | nil => rfl
  | cons g rest =>
      have hne : (groupChars (g :: rest)).isEmpty = false := by
        cases rest <;> simp [groupChars, Nat.toDigits_ne_nil]
      rw [side?, hne, segments_groupChars (by simp), groups?_toDigits atEnd h]
      simp

/-! ## The double colon -/

/-- A character that does not start a double colon stands before it. -/
theorem atDoubleColon?_cons {c : Char} {rest : List Char} (h : c ≠ ':' ∨ rest.head? ≠ some ':') :
    atDoubleColon? (c :: rest) =
      (atDoubleColon? rest).map fun sides => (c :: sides.1, sides.2) := by
  rw [atDoubleColon?]
  rintro others rfl rfl
  simp at h

/-- A text without colons stands before the double colon. -/
theorem atDoubleColon?_append {text : List Char} (h : ∀ c ∈ text, c ≠ ':') (rest : List Char) :
    atDoubleColon? (text ++ rest) =
      (atDoubleColon? rest).map fun sides => (text ++ sides.1, sides.2) := by
  induction text with
  | nil => simp
  | cons c text ih =>
      rw [List.cons_append, atDoubleColon?_cons (Or.inl (h c List.mem_cons_self)),
        ih fun d hd => h d (List.mem_cons_of_mem _ hd), Option.map_map]
      rfl

/-- The first group starts with a digit. -/
theorem head?_groupChars_append (g : Nat) (others : List Nat) (rest : List Char) :
    (groupChars (g :: others) ++ rest).head? ≠ some ':' := by
  obtain ⟨tail, htail⟩ : ∃ tail, groupChars (g :: others) = Nat.toDigits 16 g ++ tail := by
    cases others with
    | nil => exact ⟨[], (List.append_nil _).symm⟩
    | cons next others => exact ⟨':' :: groupChars (next :: others), rfl⟩
  rw [htail, List.append_assoc]
  cases hdigits : Nat.toDigits 16 g with
  | nil => exact absurd hdigits Nat.toDigits_ne_nil
  | cons c cs =>
      have hc := (not_mark_of_mem_toDigits (hdigits ▸ List.mem_cons_self)).1
      exact fun h => hc (Option.some.inj h)

/-- There is no double colon between groups. -/
theorem atDoubleColon?_groupChars (groups : List Nat) (rest : List Char) :
    atDoubleColon? (groupChars groups ++ rest) =
      (atDoubleColon? rest).map fun sides => (groupChars groups ++ sides.1, sides.2) := by
  have hcolon : ∀ g, ∀ c ∈ Nat.toDigits 16 g, c ≠ ':' := fun g c hc =>
    (not_mark_of_mem_toDigits hc).1
  induction groups with
  | nil => simp [groupChars]
  | cons g others ih =>
      cases others with
      | nil => exact atDoubleColon?_append (hcolon g) rest
      | cons next others =>
          -- A digit follows the colon after the first group.
          rw [groupChars, List.append_assoc, List.cons_append, atDoubleColon?_append (hcolon g),
            atDoubleColon?_cons (Or.inr (head?_groupChars_append next others rest)), ih,
            Option.map_map, Option.map_map]
          · simp [Function.comp_def]
          · simp

theorem mem_groupChars {c : Char} (h : c ∈ groupChars groups) :
    Ipv4.isHexDigit c = true ∨ c = ':' := by
  induction groups with
  | nil => exact absurd h List.not_mem_nil
  | cons g rest ih =>
      cases rest with
      | nil => exact Or.inl (Ipv4.isHexDigit_of_mem_toDigits h)
      | cons next others =>
          rw [groupChars, List.mem_append, List.mem_cons] at h
          · rcases h with h | h | h
            · exact Or.inl (Ipv4.isHexDigit_of_mem_toDigits h)
            · exact Or.inr h
            · exact ih h
          · simp

end Groups

/-- An address is written with hexadecimal digits and colons. -/
theorem mem_chars {groups : List Nat} {c : Char} (h : c ∈ chars groups) :
    Ipv4.isHexDigit c = true ∨ c = ':' := by
  rw [chars] at h
  split at h
  · exact mem_groupChars h
  · simp only [List.mem_append, List.mem_cons] at h
    rcases h with h | h | h | h
    · exact mem_groupChars h
    · exact Or.inr h
    · exact Or.inr h
    · exact mem_groupChars h

/-! ## Runs of zeros -/

/-- A text of groups starts with as many zeros as counted. -/
theorem replicate_zeros_append (groups : List Nat) :
    List.replicate (zeros groups) 0 ++ groups.drop (zeros groups) = groups := by
  induction groups with
  | nil => rfl
  | cons g rest ih =>
      by_cases hg : g = 0
      · have hzeros : zeros (g :: rest) = zeros rest + 1 := by simp [zeros, hg]
        rw [hzeros, List.replicate_succ, List.cons_append, List.drop_succ_cons, ih, hg]
      · have hzeros : zeros (g :: rest) = 0 := by simp [zeros, hg]
        rw [hzeros]
        rfl

/-- The longest run stands where it is said to start, and consists of zeros. -/
theorem longestRun_zeros (start : Nat) (groups : List Nat) :
    ∃ place, (longestRun start groups).1 = start + place ∧
      groups.take place ++ List.replicate (longestRun start groups).2 0 ++
        groups.drop (place + (longestRun start groups).2) = groups := by
  induction groups generalizing start with
  | nil => exact ⟨0, rfl, rfl⟩
  | cons g rest ih =>
      rw [longestRun]
      -- Either the run starts at the first group, or it is the longest one of the rest.
      split
      · refine ⟨0, rfl, ?_⟩
        rw [List.take_zero, List.nil_append, Nat.zero_add]
        exact replicate_zeros_append (g :: rest)
      · obtain ⟨place, hplace, hgroups⟩ := ih (start + 1)
        refine ⟨place + 1, by omega, ?_⟩
        rw [List.take_succ_cons, Nat.add_right_comm, List.drop_succ_cons, List.cons_append,
          List.cons_append, hgroups]

/-! ## Reading back -/

/-- Groups between colons are read back. -/
theorem ofChars?_groupChars {groups : List Nat} (h : IsAddress groups) :
    ofChars? (groupChars groups) = some groups := by
  have hne : groups ≠ [] := by
    rintro rfl
    exact absurd h.count (by simp)
  have hnone : atDoubleColon? (groupChars groups) = none := by
    have := atDoubleColon?_groupChars groups []
    rw [List.append_nil] at this
    exact this
  rw [ofChars?, hnone]
  simp only [segments_groupChars hne, groups?_toDigits true h.small, Option.filter_some, h.count]
  rfl

/-- The groups around a double colon are read with zeros for what it stands for. -/
theorem ofChars?_doubleColon {left right : List Nat} {count : Nat}
    (h : IsAddress (left ++ List.replicate count 0 ++ right)) (hcount : 0 < count) :
    ofChars? (groupChars left ++ ':' :: ':' :: groupChars right) =
      some (left ++ List.replicate count 0 ++ right) := by
  have hlength := h.count
  simp only [List.length_append, List.length_replicate] at hlength
  have hsides : atDoubleColon? (groupChars left ++ ':' :: ':' :: groupChars right) =
      some (groupChars left, groupChars right) := by
    rw [atDoubleColon?_groupChars, atDoubleColon?, Option.map_some, List.append_nil]
  have hleft : ∀ g ∈ left, g < 0x10000 := fun g hg => h.small g (by simp [hg])
  have hright : ∀ g ∈ right, g < 0x10000 := fun g hg => h.small g (by simp [hg])
  rw [ofChars?, hsides]
  simp only [side?_groupChars _ hleft, side?_groupChars _ hright]
  rw [if_neg (by omega), show 8 - left.length - right.length = count by omega]

/-- Every address is read back from its short form. -/
theorem ofChars?_chars {groups : List Nat} (h : IsAddress groups) :
    ofChars? (chars groups) = some groups := by
  obtain ⟨place, hplace, hgroups⟩ := longestRun_zeros 0 groups
  rw [Nat.zero_add] at hplace
  rw [chars]
  split
  · exact ofChars?_groupChars h
  · rw [hplace, ofChars?_doubleColon (hgroups.symm ▸ h) (by omega), hgroups]

/-! ## What is read -/

theorem lt_of_group? {cs : List Char} {g : Nat} (h : group? cs = some g) : g < 0x10000 := by
  rw [group?] at h
  split at h
  · exact absurd h (by simp)
  · rename_i hcs
    simp only [Bool.or_eq_true, decide_eq_true_eq, Bool.not_eq_true', not_or,
      Bool.not_eq_false, List.all_eq_true] at hcs
    rw [← Option.some.inj h]
    calc Ipv4.valueIn 16 cs < Nat.pow 16 cs.length :=
          Ipv4.valueIn_lt fun c hc => Ipv4.hexValue_lt (hcs.2 c hc)
      _ ≤ Nat.pow 16 4 := Nat.pow_le_pow_right (by decide) (by omega)

theorem le_of_byte? {cs : List Char} {n : Nat} (h : byte? cs = some n) : n ≤ 255 := by
  rw [byte?] at h
  split at h
  · exact absurd h (by simp)
  · simp only at h
    split at h
    · rename_i hn
      rw [← Option.some.inj h]
      exact hn
    · exact absurd h (by simp)

theorem le_of_mapM_byte? {texts : List (List Char)} {bytes : List Nat}
    (h : texts.mapM byte? = some bytes) : ∀ n ∈ bytes, n ≤ 255 := by
  induction texts generalizing bytes with
  | nil =>
      rw [List.mapM_nil] at h
      rw [← Option.some.inj h]
      exact fun n hn => absurd hn List.not_mem_nil
  | cons text rest ih =>
      rw [List.mapM_cons] at h
      obtain ⟨n, hn, hrest⟩ := Option.bind_eq_some_iff.1 h
      obtain ⟨others, hothers, heq⟩ := Option.bind_eq_some_iff.1 hrest
      rw [← Option.some.inj heq]
      exact List.forall_mem_cons.2 ⟨le_of_byte? hn, ih hothers⟩

theorem lt_of_embedded? {cs : List Char} {groups : List Nat} (h : embedded? cs = some groups) :
    ∀ g ∈ groups, g < 0x10000 := by
  rw [embedded?] at h
  split at h
  · rename_i a b c d hbytes
    have hall := le_of_mapM_byte? hbytes
    simp only [List.forall_mem_cons] at hall
    rw [← Option.some.inj h]
    intro g hg
    simp only [List.mem_cons, List.not_mem_nil, or_false] at hg
    omega
  · exact absurd h (by simp)

theorem lt_of_groups? {atEnd : Bool} {texts : List (List Char)} {groups : List Nat}
    (h : groups? atEnd texts = some groups) : ∀ g ∈ groups, g < 0x10000 := by
  induction texts generalizing groups with
  | nil =>
      rw [groups?] at h
      rw [← Option.some.inj h]
      exact fun g hg => absurd hg List.not_mem_nil
  | cons text rest ih =>
      cases rest with
      | nil =>
          rw [groups?] at h
          split at h
          · exact lt_of_embedded? h
          · obtain ⟨g, hg, rfl⟩ := Option.map_eq_some_iff.1 h
            exact fun g' hmem => List.mem_singleton.1 hmem ▸ lt_of_group? hg
      | cons next others =>
          rw [groups?] at h
          · split at h
            · rename_i g gs hg hgs
              rw [← Option.some.inj h]
              exact List.forall_mem_cons.2 ⟨lt_of_group? hg, ih hgs⟩
            · exact absurd h (by simp)
          · simp

theorem lt_of_side? {atEnd : Bool} {cs : List Char} {groups : List Nat}
    (h : side? atEnd cs = some groups) : ∀ g ∈ groups, g < 0x10000 := by
  rw [side?] at h
  split at h
  · rw [← Option.some.inj h]
    exact fun g hg => absurd hg List.not_mem_nil
  · exact lt_of_groups? h

/-- What is read is an address. -/
theorem isAddress_of_ofChars? {cs : List Char} {groups : List Nat}
    (h : ofChars? cs = some groups) : IsAddress groups := by
  rw [ofChars?] at h
  split at h
  · split at h
    · rename_i left right hleft hright
      split at h
      · exact absurd h (by simp)
      · rename_i hcount
        rw [← Option.some.inj h]
        constructor
        · simp only [List.length_append, List.length_replicate]
          omega
        · intro g hg
          rw [List.mem_append, List.mem_append] at hg
          rcases hg with (hg | hg) | hg
          · exact lt_of_side? hleft g hg
          · rw [List.eq_of_mem_replicate hg]
            decide
          · exact lt_of_side? hright g hg
    · exact absurd h (by simp)
  · obtain ⟨hread, hcount⟩ := Option.filter_eq_some_iff.1 h
    exact ⟨eq_of_beq hcount, lt_of_groups? hread⟩

end SettingStore.Ipv6
