import SettingStore.Proofs.Record
import SettingStore.Proofs.Text.ByteOrder
import SettingStore.Proofs.Text.Spelling

set_option autoImplicit false

/-! # Ids of users and groups

An id is spelled with 24 hexadecimal digits of either case and blanks around them
(`EntityId.ofText_eq_ok_iff`), and all spellings of an id are read as the same one
(`EntityId.one_canonical_form`). A value or a record gives an id by such a text.
-/

namespace SettingStore

/-! ## Digits -/

namespace Text

/-- A hexadecimal digit of either case. -/
def IsHexDigit (c : Char) : Prop :=
  ('0' ≤ c ∧ c ≤ '9') ∨ ('a' ≤ c ∧ c ≤ 'f') ∨ ('A' ≤ c ∧ c ≤ 'F')

theorem isHexDigit_iff {c : Char} :
    IsHexDigit c ↔ (48 ≤ c.toNat ∧ c.toNat ≤ 57) ∨ (97 ≤ c.toNat ∧ c.toNat ≤ 102) ∨
      (65 ≤ c.toNat ∧ c.toNat ≤ 70) := by
  simp only [IsHexDigit, Char.le_def, UInt32.le_iff_toNat_le]
  exact Iff.rfl

/-- The digits are those whose lower case is a digit of an id. -/
theorem isLowerHex_asciiLower_iff {c : Char} : isLowerHex (asciiLower c) = true ↔ IsHexDigit c := by
  rw [isLowerHex_iff, isHexDigit_iff, toNat_asciiLower]
  split <;> omega

theorem isBlank_of_isHexDigit {c : Char} (h : IsHexDigit c) : isBlank c = false := by
  rw [isHexDigit_iff] at h
  simp [isBlank, blankRanges]
  omega

/-- A digit is a single byte. -/
theorem length_utf8EncodeChar_of_isHexDigit {c : Char} (h : IsHexDigit c) :
    (String.utf8EncodeChar c).length = 1 := by
  rw [isHexDigit_iff] at h
  rw [String.length_utf8EncodeChar, Char.utf8Size_eq_one_iff, UInt32.le_iff_toNat_le]
  show c.toNat ≤ 127
  omega

/-- Of digits there are as many as there are bytes. -/
theorem utf8ByteSize_eq_length {s : String} (h : ∀ c ∈ s.toList, IsHexDigit c) :
    s.utf8ByteSize = s.length := by
  have hbytes : ∀ cs : List Char, (∀ c ∈ cs, IsHexDigit c) →
      (cs.flatMap String.utf8EncodeChar).length = cs.length := by
    intro cs hcs
    induction cs with
    | nil => rfl
    | cons c rest ih =>
        rw [List.flatMap_cons, List.length_append,
          length_utf8EncodeChar_of_isHexDigit (hcs c List.mem_cons_self),
          ih fun d hd => hcs d (List.mem_cons_of_mem _ hd), List.length_cons, Nat.add_comm]
  calc s.utf8ByteSize
      = (bytes s).length := rfl
    _ = (s.toList.flatMap String.utf8EncodeChar).length := by rw [bytes_eq]
    _ = s.length := by rw [hbytes s.toList h, String.length_toList]

end Text

namespace EntityId

open Text (IsHexDigit SameLetters Wraps)

/-! ## Reading a text -/

/-- The digits of an id, in either case. -/
def IsDigits (digits : List Char) : Prop := digits.length = 24 ∧ ∀ c ∈ digits, IsHexDigit c

theorem ofText_eq_ok_iff_ofText? {s : String} {id : EntityId} :
    ofText s = .ok id ↔ ofText? s = some id := by
  unfold ofText
  cases ofText? s <;> simp

theorem text_inj {a b : EntityId} : a.text = b.text ↔ a = b := by
  obtain ⟨text, hcanonical⟩ := a
  obtain ⟨text', hcanonical'⟩ := b
  rw [EntityId.mk.injEq]

/-- An id is read if there is nothing but its digits when the blanks around them are left out,
and its text are these digits in lower case. -/
theorem ofText_eq_ok_iff_trim {s : String} {id : EntityId} :
    ofText s = .ok id ↔ IsDigits (Text.trim s).toList ∧
      id.text.toList = (Text.trim s).toList.map Text.asciiLower := by
  have haccepted : (((Text.trimChars s.toList).map Text.asciiLower).length = 24 ∧
      ((Text.trimChars s.toList).map Text.asciiLower).all isLowerHex = true) ↔
        IsDigits (Text.trimChars s.toList) := by
    simp [IsDigits, Text.isLowerHex_asciiLower_iff]
  rw [ofText_eq_ok_iff_ofText?, Text.toList_trim]
  unfold ofText?
  by_cases h : IsDigits (Text.trimChars s.toList)
  · rw [dif_pos (haccepted.2 h), Option.some.injEq, ← text_inj, ← String.toList_inj,
      String.toList_ofList, eq_comm]
    exact ⟨fun heq => ⟨h, heq⟩, And.right⟩
  · rw [dif_neg (mt haccepted.1 h)]
    simp [h]

theorem exists_ofText_eq_ok_iff {s : String} :
    (∃ id, ofText s = .ok id) ↔ IsDigits (Text.trim s).toList := by
  constructor
  · rintro ⟨id, h⟩
    exact (ofText_eq_ok_iff_trim.1 h).1
  · intro h
    have hlower : ((Text.trim s).toList.map Text.asciiLower).length = 24 ∧
        ((Text.trim s).toList.map Text.asciiLower).all isLowerHex = true := by
      simpa [IsDigits, Text.isLowerHex_asciiLower_iff] using h
    refine ⟨⟨String.ofList _, by rwa [String.toList_ofList]⟩, ?_⟩
    exact ofText_eq_ok_iff_trim.2 ⟨h, String.toList_ofList⟩

/-- The text `s` is a spelling of the id: its digits in either case, with blanks around them. -/
def Spelled (s : String) (id : EntityId) : Prop :=
  ∃ digits : List Char, Wraps digits s.toList ∧ IsDigits digits ∧
    List.Forall₂ Text.SameLetter digits id.text.toList

theorem map_asciiLower_text (id : EntityId) : id.text.toList.map Text.asciiLower = id.text.toList :=
  (List.map_congr_left fun _ hc =>
    asciiLower_of_isLowerHex (List.all_eq_true.1 id.canonical.2 _ hc)).trans (List.map_id _)

theorem forall₂_sameLetter_text_iff {digits : List Char} {id : EntityId} :
    List.Forall₂ Text.SameLetter digits id.text.toList ↔
      id.text.toList = digits.map Text.asciiLower := by
  rw [← Text.map_asciiLower_eq_iff, map_asciiLower_text, eq_comm]

/-- What is read as an id are the spellings of it. -/
theorem ofText_eq_ok_iff {s : String} {id : EntityId} : ofText s = .ok id ↔ Spelled s id := by
  rw [ofText_eq_ok_iff_trim, Text.toList_trim]
  unfold Spelled
  constructor
  · rintro ⟨hdigits, htext⟩
    exact ⟨_, Text.wraps_trimChars _, hdigits, forall₂_sameLetter_text_iff.2 htext⟩
  · rintro ⟨digits, hwraps, hdigits, htext⟩
    have bare : ∀ c ∈ digits, Text.isBlank c = false :=
      fun c hc => Text.isBlank_of_isHexDigit (hdigits.2 c hc)
    have htrim : Text.trimChars s.toList = digits :=
      (Text.trimChars_eq_iff (fun c hc => bare c (List.mem_of_head? hc))
        fun c hc => bare c (List.mem_of_getLast? hc)).2 hwraps
    rw [htrim]
    exact ⟨hdigits, forall₂_sameLetter_text_iff.1 htext⟩

/-! ## Reading a value or a record -/

/-- The value gives an id by the text `s`, which it is or which its member `$oid` is. -/
inductive GivenBy : Json → String → Prop
  | text (s : String) : GivenBy (.string s) s
  | reference {members : List (String × Json)} {s : String}
      (h : Json.member? "$oid" members = some (.string s)) : GivenBy (.object members) s

theorem ofValue_of_givenBy {v : Json} {s : String} (h : GivenBy v s) : ofValue v = ofText s := by
  cases h with
  | text => rfl
  | reference h => simp only [ofValue, h]

theorem ofValue_of_not_givenBy {v : Json} (h : ∀ s, ¬ GivenBy v s) :
    ofValue v = .error (.invalidId ("Invalid ObjectId: " ++ v.text)) := by
  cases v with
  | string s => exact absurd (.text s) (h s)
  | object members =>
      simp only [ofValue]
      split
      · rename_i s hmember
        exact absurd (.reference hmember) (h s)
      · rfl
  | _ => rfl

/-- A value denotes an id if it gives it by one of its spellings. -/
theorem ofValue_eq_ok_iff {v : Json} {id : EntityId} :
    ofValue v = .ok id ↔ ∃ s, GivenBy v s ∧ Spelled s id := by
  constructor
  · intro h
    by_cases hgiven : ∃ s, GivenBy v s
    · obtain ⟨s, hs⟩ := hgiven
      rw [ofValue_of_givenBy hs] at h
      exact ⟨s, hs, ofText_eq_ok_iff.1 h⟩
    · rw [ofValue_of_not_givenBy fun s hs => hgiven ⟨s, hs⟩] at h
      cases h
  · rintro ⟨s, hs, hspelled⟩
    rw [ofValue_of_givenBy hs]
    exact ofText_eq_ok_iff.2 hspelled

/-- A reader of texts and a reader of values agree on what is a text. -/
theorem text?_eq_some_iff {t : Json.Tree} (depth : Nat) {s : String} :
    Record.text? t = some s ↔ Json.ofTree? depth t = some (.string s) := by
  cases t with
  | string pieces => simp [Record.text?, Json.ofTree?]
  | array items => by_cases hdepth : depth = 0 <;> simp [Record.text?, Json.ofTree?, hdepth]
  | object members => by_cases hdepth : depth = 0 <;> simp [Record.text?, Json.ofTree?, hdepth]
  | _ => simp [Record.text?, Json.ofTree?]

theorem read?_entityId?_iff {text : String} {id : EntityId} :
    Record.read? Record.entityId? text = some id ↔
      ∃ s, Json.ofText? text = some (.string s) ∧ ofText s = .ok id := by
  unfold Record.read? Record.entityId? Json.ofText? Json.ofTextWithin?
  simp only [Option.bind_eq_some_iff, ofText_eq_ok_iff_ofText?,
    text?_eq_some_iff Json.maxDepth]
  constructor
  · rintro ⟨t, ht, s, hs, hid⟩
    exact ⟨s, ⟨t, ht, hs⟩, hid⟩
  · rintro ⟨s, ⟨t, ht, hs⟩, hid⟩
    exact ⟨t, ht, s, hs, hid⟩

/-! ## One canonical form -/

/-- Ids have one canonical form. A text is read as an id exactly if it is 24 hexadecimal digits
when the blanks around it are left out, whether its characters or its bytes are counted. The id
is in small letters, the same but for their case as what was read, and denotes itself; two texts
denote one id exactly if they are the same but for blanks around them and for case. A value
denotes what its text or the text in its member `$oid` denotes, if it has one, and a record of an
id what its text denotes, if it is a text. -/
theorem one_canonical_form :
    (∀ s, ((∃ id, ofText s = .ok id) ↔
        (Text.trim s).length = 24 ∧ ∀ c ∈ (Text.trim s).toList, IsHexDigit c) ∧
      ((∃ id, ofText s = .ok id) ↔
        (Text.trim s).utf8ByteSize = 24 ∧ ∀ c ∈ (Text.trim s).toList, IsHexDigit c)) ∧
    (∀ s id, ofText s = .ok id → id.text.length = 24 ∧
      (∀ c ∈ id.text.toList, ('0' ≤ c ∧ c ≤ '9') ∨ ('a' ≤ c ∧ c ≤ 'f')) ∧
      SameLetters (Text.trim s) id.text ∧ ofText id.text = .ok id) ∧
    (∀ s t a b, ofText s = .ok a → ofText t = .ok b →
      (a = b ↔ SameLetters (Text.trim s) (Text.trim t))) ∧
    (∀ v s, GivenBy v s → ofValue v = ofText s) ∧
    (∀ v, (∀ s, ¬ GivenBy v s) →
      ofValue v = .error (.invalidId ("Invalid ObjectId: " ++ v.text))) ∧
    ∀ text id, Record.read? Record.entityId? text = some id ↔
      ∃ s, Json.ofText? text = some (.string s) ∧ ofText s = .ok id := by
  refine ⟨fun s => ⟨?_, ?_⟩, fun s id h => ⟨?_, fun c hc => ?_, ?_, ?_⟩,
    fun s t a b ha hb => ?_, fun v s => ofValue_of_givenBy, fun v => ofValue_of_not_givenBy,
    fun text id => read?_entityId?_iff⟩
  · rw [exists_ofText_eq_ok_iff, ← String.length_toList]
    rfl
  · rw [exists_ofText_eq_ok_iff]
    refine and_congr_left fun hdigits => ?_
    rw [Text.utf8ByteSize_eq_length hdigits, String.length_toList]
  · rw [← String.length_toList]
    exact id.canonical.1
  · have hhex := List.all_eq_true.1 id.canonical.2 c hc
    simpa [isLowerHex] using hhex
  · exact forall₂_sameLetter_text_iff.2 (ofText_eq_ok_iff_trim.1 h).2
  · exact ofText_eq_ok_iff_ofText?.2 (ofText?_text id)
  · calc a = b
        ↔ a.text.toList = b.text.toList := by rw [String.toList_inj, text_inj]
      _ ↔ SameLetters (Text.trim s) (Text.trim t) := by
          rw [(ofText_eq_ok_iff_trim.1 ha).2, (ofText_eq_ok_iff_trim.1 hb).2,
            Text.map_asciiLower_eq_iff]
          rfl

/-- A text in capital letters with blanks around it, and one in letters of both cases. -/
theorem one_canonical_form_of_spellings :
    let id : EntityId := ⟨"5f0c8e2b9d1a4c3b2a190807", by decide⟩
    let given : Json := .object [("$oid", .string "\u2003 5F0C8E2B9D1A4C3B2A190807\n"), ("x", .null)]
    ofText "\u2003 5F0C8E2B9D1A4C3B2A190807\n" = .ok id ∧
      ofText "5f0C8e2b9D1a4c3b2a190807" = .ok id ∧
      SameLetters (Text.trim "\u2003 5F0C8E2B9D1A4C3B2A190807\n")
        (Text.trim "5f0C8e2b9D1a4c3b2a190807") ∧
      ofText id.text = .ok id ∧
      GivenBy given "\u2003 5F0C8E2B9D1A4C3B2A190807\n" ∧ ofValue given = .ok id ∧
      (∀ s, ¬ GivenBy .null s) ∧ ofValue .null = .error (.invalidId "Invalid ObjectId: null") := by
  intro id given
  have hcapital : ofText "\u2003 5F0C8E2B9D1A4C3B2A190807\n" = .ok id :=
    ofText_eq_ok_iff_ofText?.2 (by decide)
  have hmixed : ofText "5f0C8e2b9D1a4c3b2a190807" = .ok id :=
    ofText_eq_ok_iff_ofText?.2 (by decide)
  have hgiven : GivenBy given "\u2003 5F0C8E2B9D1A4C3B2A190807\n" := .reference rfl
  have hnone : ∀ s, ¬ GivenBy .null s := fun s h => by cases h
  obtain ⟨-, hread, hsame, hvalue, hothers, -⟩ := one_canonical_form
  exact ⟨hcapital, hmixed, (hsame _ _ id id hcapital hmixed).1 rfl, (hread _ id hcapital).2.2.2,
    hgiven, (hvalue given _ hgiven).trans hcapital, hnone, hothers .null hnone⟩

end EntityId

end SettingStore
