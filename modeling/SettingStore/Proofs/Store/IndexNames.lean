import SettingStore.Proofs.Store.Table

set_option autoImplicit false

/-! # Names of indexes in statements

A name that comes from outside stands in quotes in the statement that drops an index. By the rule
for such names (`StartsWithName`) the quoted text is one name and nothing else, whatever quotes the
name has itself, and the database reads by that rule. So nothing of a name is taken for another part
of the statement (`index_names_stay_quoted`).
-/

namespace SettingStore

namespace QuotedName

/-! ## The rule for quoted names -/

/-- What stands between the quotes spells a name: a pair of quotes stands for one quote, and every
other character for itself. -/
inductive Spells : List Char → List Char → Prop
  | nil : Spells [] []
  | other {c : Char} {text name : List Char} (plain : c ≠ '"') (rest : Spells text name) :
      Spells (c :: text) (c :: name)
  | pair {text name : List Char} (rest : Spells text name) :
      Spells ('"' :: '"' :: text) ('"' :: name)

/-- The text starts with a quoted name, and `rest` is what follows its last quote; were that a
quote as well, the two would be a pair within the name. -/
def StartsWithName (text name rest : List Char) : Prop :=
  ∃ inner, Spells inner name ∧ text = '"' :: (inner ++ '"' :: rest) ∧ rest.head? ≠ some '"'

variable {text name content rest : List Char}

theorem spells_inside (name : List Char) : Spells (inside name) name := by
  induction name with
  | nil => exact .nil
  | cons c name ih =>
      rw [inside]
      split_ifs with hc
      · rw [hc]
        exact .pair ih
      · exact .other hc ih

/-- A name is spelled in one way only. -/
theorem spells_iff : Spells text name ↔ text = inside name := by
  constructor
  · intro h
    induction h with
    | nil => rfl
    | other plain _ ih => rw [inside, if_neg plain, ← ih]
    | pair _ ih => rw [inside, if_pos rfl, ← ih]
  · rintro rfl
    exact spells_inside name

/-! ## Reading by the rule -/

/-- A quote that no other quote follows ends the name. -/
theorem tokens?_behindQuote (h : rest.head? ≠ some '"') (read : List Char) :
    tokens? (.behindQuote read) rest
      = (tokens? .between rest).map (Token.name read.reverse :: ·) := by
  cases rest with
  | nil => rfl
  | cons c rest =>
      have hc : c ≠ '"' := fun heq => h (by rw [heq]; rfl)
      calc tokens? (.behindQuote read) (c :: rest)
          = (tokens? (begins c).2 rest).map (.name read.reverse :: (begins c).1 ++ ·) := by
            rw [tokens?, if_neg hc]
        _ = ((tokens? (begins c).2 rest).map ((begins c).1 ++ ·)).map
              (Token.name read.reverse :: ·) := by
            rw [Option.map_map]
            rfl
        _ = (tokens? .between (c :: rest)).map (Token.name read.reverse :: ·) := by rw [tokens?]

/-- A quoted name is read as one token, and then what follows it. -/
theorem tokens?_of_startsWithName (h : StartsWithName text name rest) :
    tokens? .between text = (tokens? .between rest).map (Token.name name :: ·) := by
  obtain ⟨inner, hspells, rfl, hrest⟩ := h
  rw [spells_iff.1 hspells]
  calc tokens? .between ('"' :: (inside name ++ '"' :: rest))
      = tokens? .between (chars name ++ rest) := by
        rw [chars, List.cons_append, List.append_assoc, List.singleton_append]
    _ = tokens? (.behindQuote name.reverse) rest := tokens?_chars_append name rest
    _ = (tokens? .between rest).map (Token.name name :: ·) := by
        rw [tokens?_behindQuote hrest, List.reverse_reverse]

/-- A written name starts with that name, with no other one, and ends with it. -/
theorem startsWithName_chars_iff :
    StartsWithName (chars name) content rest ↔ content = name ∧ rest = [] := by
  constructor
  · intro h
    -- The reader finds nothing but the one token in the text, whose content is the name.
    have hread := tokens?_of_startsWithName h
    rw [tokens?_chars, eq_comm, Option.map_eq_some_iff] at hread
    obtain ⟨others, -, htokens⟩ := hread
    obtain rfl : content = name := Token.name.inj (List.cons.inj htokens).1
    obtain ⟨inner, hspells, htext, -⟩ := h
    rw [spells_iff.1 hspells, chars] at htext
    have hend : ['"'] = '"' :: rest := List.append_cancel_left (List.cons.inj htext).2
    exact ⟨rfl, (List.cons.inj hend).2.symm⟩
  · rintro ⟨rfl, rfl⟩
    exact ⟨inside content, spells_inside content, rfl, by simp⟩

/-- Different names are written differently. -/
theorem chars_inj : chars name = chars content ↔ name = content := by
  constructor
  · intro h
    have hname : StartsWithName (chars name) name [] := startsWithName_chars_iff.2 ⟨rfl, rfl⟩
    rw [h] at hname
    exact (startsWithName_chars_iff.1 hname).1
  · rintro rfl
    rfl

end QuotedName

namespace Table

open QuotedName

/-! ## Dropping an index -/

/-- Dropping an index touches indexes only, and of these only the ones with the name, unless the
name is refused. -/
theorem mem_indexes_dropIndex_iff (t : Table) (name : String) {index : ColumnIndex} :
    index ∈ (t.dropIndex name).2.indexes ↔
      index ∈ t.indexes ∧ (RefusesName name ∨ sameName name index.name = false) := by
  rcases dropIndex_cases t name with ⟨hrefuses, hdrop⟩ | ⟨haccepts, hdrop⟩
  · rw [hdrop]
    simp [hrefuses]
  · rw [hdrop, opened, List.mem_filter]
    simp [haccepts]

/-- Quoted names hold whatever they contain. By the rule for quoted names a written name is that
name, up to its last character, and can be read in no other way; different names are written
differently; the statement that drops an index has the same words for every name, and behind them
the name as one token. What dropping an index does therefore depends on the name alone: the rows
and the entities stay as they are, and so do all indexes that have another name. -/
theorem index_names_stay_quoted :
    (∀ (name : String) (content rest : List Char),
      StartsWithName (chars name.toList) content rest ↔ content = name.toList ∧ rest = []) ∧
    (∀ a b : String, chars a.toList = chars b.toList ↔ a = b) ∧
    (∀ name : String, tokens? .between (dropStatement name)
      = some (dropWords.map Token.word ++ [.name name.toList])) ∧
    ∀ (t : Table) (name : String),
      ((t.dropIndex name).1 = .ok () ↔ ¬ RefusesName name) ∧
      (t.dropIndex name).2.rows = t.rows ∧ (t.dropIndex name).2.entities = t.entities ∧
      ∀ index, index ∈ (t.dropIndex name).2.indexes ↔
        index ∈ t.indexes ∧ (RefusesName name ∨ sameName name index.name = false) := by
  refine ⟨fun name content rest => startsWithName_chars_iff, fun a b => ?_, tokens?_dropStatement,
    fun t name => ?_⟩
  · rw [chars_inj, String.toList_inj]
  · refine ⟨?_, ?_, ?_, fun index => t.mem_indexes_dropIndex_iff name⟩
    all_goals rcases dropIndex_cases t name with ⟨hrefuses, hdrop⟩ | ⟨haccepts, hdrop⟩
    all_goals rw [hdrop]
    · exact iff_of_false (by simp) (not_not_intro hrefuses)
    · exact iff_of_true rfl haccepts
    all_goals rfl

/-- Runs of quotes of any length are written in pairs. -/
example : chars "\"a\"\"".toList = "\"\"\"a\"\"\"\"\"".toList := by decide

end Table

end SettingStore
