import SettingStore.Text.Entries

set_option autoImplicit false

/-! # Upper case of upper case

The mapping to upper case keeps what it has mapped (`upperCase_upperCase`). No run of its table
moves a character to where a run or an expansion begins: each run is compared with each run and
each expansion by the bounds of its images (`CaseRun.settled_upper`), and the expansions are
looked through. In the same way no image is a comma or blank (`not_separatesEntries_upperCase`).
-/

namespace SettingStore.Text

/-! ## Runs -/

namespace CaseRun

variable {run other : CaseRun} {n : Nat}

/-- The images of the first run are none of the code points that the other one moves: they lie
beside it, or between its steps, or there is a single one. -/
def apart (run other : CaseRun) : Bool :=
  -- All pairs of runs are compared, so the bounds are compared in the way that evaluates fastest.
  Nat.blt (run.moved run.last) other.first || Nat.blt other.last (run.moved run.first) ||
    (run.step == 2 && other.step == 2 && (run.moved run.first + other.first) % 2 == 1) ||
    (run.first == run.last && !other.covers (run.moved run.first))

/-- The images lie outside of a range. -/
def avoids (run : CaseRun) (first last : Nat) : Bool :=
  Nat.blt last (run.moved run.first) || Nat.blt (run.moved run.last) first

/-- The images are characters, and none that the table or a list of entries treats in a special
way. -/
def settled (table : CaseTable) (run : CaseRun) : Bool :=
  0 ≤ run.first + run.shift && run.moved run.last < 0x110000 && run.avoids 0xD800 0xDFFF &&
    table.runs.all run.apart && table.expansions.all (fun e => run.avoids e.1 e.1) &&
    run.avoids 44 44 && blankRanges.all (fun range => run.avoids range.1 range.2)

/-- What a run moves lies within the bounds of its images. -/
theorem moved_bounds (covered : run.covers n = true) :
    run.moved run.first ≤ run.moved n ∧ run.moved n ≤ run.moved run.last := by
  simp only [covers, Bool.and_eq_true, decide_eq_true_eq] at covered
  simp only [moved]
  omega

theorem not_mem_of_avoids {first last : Nat} (avoided : run.avoids first last = true)
    (covered : run.covers n = true) : run.moved n < first ∨ last < run.moved n := by
  have hbounds := moved_bounds covered
  simp only [avoids, Bool.or_eq_true, Nat.blt_eq] at avoided
  omega

theorem covers_moved_of_apart (from0 : 0 ≤ run.first + run.shift)
    (hapart : run.apart other = true) (covered : run.covers n = true) :
    other.covers (run.moved n) = false := by
  have hbounds := moved_bounds covered
  rw [← Bool.not_eq_true]
  intro hother
  simp only [covers, Bool.and_eq_true, decide_eq_true_eq, beq_iff_eq] at covered hother
  simp only [apart, Bool.or_eq_true, Bool.and_eq_true, Nat.blt_eq, beq_iff_eq,
    Bool.not_eq_true'] at hapart
  rcases hapart with ((hafter | hbefore) | ⟨⟨hstep, hstep'⟩, hodd⟩) | ⟨hsingle, hnot⟩
  · omega
  · omega
  · rw [hstep] at covered
    rw [hstep'] at hother
    simp only [moved] at hodd hother
    omega
  · have hn : n = run.first := by omega
    rw [← hn] at hnot
    simp [covers, hother] at hnot

/-- Where the images are characters, a code point is moved to that of its image. -/
theorem toNat_ofNat_moved (last : run.moved run.last < 0x110000)
    (surrogates : run.avoids 0xD800 0xDFFF = true) (covered : run.covers n = true) :
    (Char.ofNat (run.moved n)).toNat = run.moved n := by
  have hbounds := moved_bounds covered
  have houtside := not_mem_of_avoids surrogates covered
  have hvalid : (run.moved n).isValidChar := by
    simp only [Nat.isValidChar]
    omega
  rw [Char.ofNat, dif_pos hvalid]
  rfl

theorem settled_upper : CaseTable.upper.runs.all (settled CaseTable.upper) = true := by
  decide +kernel

end CaseRun

/-! ## The table -/

namespace CaseTable

variable {table : CaseTable} {c d : Char}

/-- A character is expanded, or moved by a run, or kept. -/
theorem image_cases (table : CaseTable) (c : Char) :
    (∃ codes, (c.toNat, codes) ∈ table.expansions ∧ table.image c = codes.map Char.ofNat) ∨
      (∃ run ∈ table.runs, run.covers c.toNat = true ∧
        table.image c = [Char.ofNat (run.moved c.toNat)]) ∨
      table.image c = [c] := by
  rw [image]
  cases hcodes : table.expansions.lookup c.toNat with
  | some codes =>
      obtain ⟨before, after, hsplit, -⟩ := List.lookup_eq_some_iff.1 hcodes
      refine Or.inl ⟨codes, ?_, rfl⟩
      rw [hsplit]
      exact List.mem_append_right _ List.mem_cons_self
  | none =>
      cases hrun : table.runs.find? (·.covers c.toNat) with
      | some run =>
          have hcovered := (List.find?_eq_some_iff_append.1 hrun).1
          exact Or.inr (Or.inl ⟨run, List.mem_of_find?_eq_some hrun, hcovered, rfl⟩)
      | none => exact Or.inr (Or.inr rfl)

/-- A character that no expansion and no run is about is kept. -/
theorem image_eq_self (expansions : ∀ e ∈ table.expansions, c.toNat ≠ e.1)
    (runs : ∀ run ∈ table.runs, run.covers c.toNat = false) : table.image c = [c] := by
  have hcodes : table.expansions.lookup c.toNat = none :=
    List.lookup_eq_none_iff.2 fun e he => bne_iff_ne.2 (expansions e he)
  have hrun : table.runs.find? (·.covers c.toNat) = none :=
    List.find?_eq_none.2 fun run hrun => by simp [runs run hrun]
  rw [image, hcodes, hrun]

/-- What an expansion puts in the place of a character is kept, and no comma or blank. -/
theorem expansions_upper : upper.expansions.all (fun e => !e.2.isEmpty && e.2.all fun code =>
    upper.image (Char.ofNat code) == [Char.ofNat code] && !separatesEntries (Char.ofNat code))
      = true := by
  decide +kernel

/-- Where a settled run moves a character, there is a character that the table keeps, and no
comma or blank. -/
theorem image_moved {run : CaseRun} (settled : run.settled table = true) {n : Nat}
    (covered : run.covers n = true) :
    table.image (Char.ofNat (run.moved n)) = [Char.ofNat (run.moved n)] ∧
      separatesEntries (Char.ofNat (run.moved n)) = false := by
  simp only [CaseRun.settled, Bool.and_eq_true, decide_eq_true_eq, List.all_eq_true] at settled
  obtain ⟨⟨⟨⟨⟨⟨from0, hlast⟩, hsurrogates⟩, hruns⟩, hexpansions⟩, hcomma⟩, hblank⟩ := settled
  have hcode := CaseRun.toNat_ofNat_moved hlast hsurrogates covered
  constructor
  · refine image_eq_self (fun e he => ?_) fun other hother => ?_
    · have := CaseRun.not_mem_of_avoids (hexpansions e he) covered
      rw [hcode]
      omega
    · rw [hcode]
      exact CaseRun.covers_moved_of_apart from0 (hruns other hother) covered
  · rw [separatesEntries, Bool.or_eq_false_iff]
    constructor
    · have := CaseRun.not_mem_of_avoids hcomma covered
      rw [beq_eq_false_iff_ne]
      intro heq
      rw [heq] at hcode
      have hcode' : (44 : Nat) = run.moved n := hcode
      omega
    · rw [isBlank, List.any_eq_false]
      intro range hrange
      have := CaseRun.not_mem_of_avoids (hblank range hrange) covered
      rw [hcode, Bool.and_eq_true, decide_eq_true_eq, decide_eq_true_eq]
      omega

/-- A character has an image, and what is in it is kept. -/
theorem image_upper (c : Char) :
    upper.image c ≠ [] ∧ ∀ d ∈ upper.image c, upper.image d = [d] ∧
      (separatesEntries c = false → separatesEntries d = false) := by
  rcases image_cases upper c with ⟨codes, hmem, himage⟩ | ⟨run, hmem, hcovered, himage⟩ | himage
  · have hall := List.all_eq_true.1 expansions_upper _ hmem
    simp only [Bool.and_eq_true, List.all_eq_true, Bool.not_eq_true', beq_iff_eq,
      List.isEmpty_eq_false_iff] at hall
    rw [himage]
    refine ⟨fun hnil => hall.1 (List.map_eq_nil_iff.1 hnil), fun d hd => ?_⟩
    obtain ⟨code, hcode, rfl⟩ := List.mem_map.1 hd
    exact ⟨(hall.2 code hcode).1, fun _ => (hall.2 code hcode).2⟩
  · have hmoved := image_moved (List.all_eq_true.1 CaseRun.settled_upper run hmem) hcovered
    rw [himage]
    refine ⟨List.cons_ne_nil _ _, fun d hd => ?_⟩
    rw [List.mem_singleton.1 hd]
    exact ⟨hmoved.1, fun _ => hmoved.2⟩
  · rw [himage]
    refine ⟨List.cons_ne_nil _ _, fun d hd => ?_⟩
    rw [List.mem_singleton.1 hd]
    exact ⟨himage, id⟩

end CaseTable

/-! ## Texts -/

variable {s : String}

/-- A text of characters that the table keeps is its own upper case. -/
theorem flatMap_image_eq_self {cs : List Char}
    (kept : ∀ c ∈ cs, CaseTable.upper.image c = [c]) : cs.flatMap CaseTable.upper.image = cs := by
  induction cs with
  | nil => rfl
  | cons c rest ih =>
      rw [List.flatMap_cons, kept c List.mem_cons_self,
        ih fun d hd => kept d (List.mem_cons_of_mem _ hd)]
      rfl

/-- A text in upper case is its own upper case. -/
theorem upperCase_upperCase (s : String) : upperCase (upperCase s) = upperCase s := by
  rw [upperCase, upperCase, String.toList_ofList, flatMap_image_eq_self]
  intro d hd
  obtain ⟨c, -, hd⟩ := List.mem_flatMap.1 hd
  exact ((CaseTable.image_upper c).2 d hd).1

/-- No comma or blank comes into a text by its upper case. -/
theorem not_separatesEntries_upperCase (plain : ∀ c ∈ s.toList, separatesEntries c = false) :
    ∀ c ∈ (upperCase s).toList, separatesEntries c = false := by
  intro d hd
  rw [upperCase, String.toList_ofList, List.mem_flatMap] at hd
  obtain ⟨c, hc, hd⟩ := hd
  exact ((CaseTable.image_upper c).2 d hd).2 (plain c hc)

/-- Only the empty text has an empty upper case. -/
theorem upperCase_eq_empty_iff : upperCase s = "" ↔ s = "" := by
  rw [upperCase, ← String.toList_inj, String.toList_ofList, String.toList_empty,
    List.flatMap_eq_nil_iff, ← String.toList_inj, String.toList_empty,
    List.eq_nil_iff_forall_not_mem]
  exact forall_congr' fun c => imp_congr_right fun _ =>
    iff_false_intro (CaseTable.image_upper c).1

end SettingStore.Text
