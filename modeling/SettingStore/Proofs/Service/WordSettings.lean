import SettingStore.Proofs.Service.Contents
import SettingStore.Proofs.Store.Mirror
import SettingStore.Proofs.Text.LowerCase

set_option autoImplicit false

/-! # Settings that are one of a few words

Five core settings are one of a few words. Two of them take a word only as it is listed, the three
others in capital or small ASCII letters. These compare the full lower case of a text with the
words, and still take nothing that only looks like a word: there is no text with a character
beyond ASCII among the texts that they take (`word_settings_take_spellings_only`).
-/

namespace SettingStore

open Session

namespace Service

/-- How the words of a setting may be written. -/
inductive Writing where
  | asListed
  | anyCase

namespace Writing

/-- The text is the word in this writing. -/
def Spells : Writing → String → String → Prop
  | .asListed, s, word => s = word
  | .anyCase, s, word => Text.SameLetters s word

/-- The rule for words in this writing. -/
def rule : Writing → List String → String → Rule
  | .asListed => .word
  | .anyCase => .anyCaseWord

end Writing

/-- The value is a text that spells one of the words. -/
def SpellsOne (writing : Writing) (words : List String) (v : Json) (word : String) : Prop :=
  word ∈ words ∧ ∃ s, v = .string s ∧ writing.Spells s word

/-- The words are ASCII texts in lower case, without the letter k. -/
def PlainWords (words : List String) : Prop :=
  ∀ word ∈ words, ∀ c ∈ word.toList, Text.IsPlainLower c

instance (words : List String) : Decidable (PlainWords words) :=
  decidable_of_iff
    (words.all fun word => word.toList.all fun c => decide (Text.IsPlainLower c)) (by
      simp only [PlainWords, List.all_eq_true, decide_eq_true_eq])

/-- The core settings that are one of a few words, with the writing, the words, and what is said
about all other values. -/
def wordSettings : List (CoreKey × Writing × List String × String) :=
  [(.addToGroupPolicy, .anyCase, ["never", "noadmin", "nomod", "yesadmin", "yesmod", ""],
      "Add to group policy must be one of \"never\", \"noadmin\", \"nomod\", " ++
        "\"yesadmin\", or \"yesmod\"."),
    (.registrationPolicy, .anyCase, ["open", "closed", "approve"],
      "Registration policy must be \"open\", \"closed\", or \"approve\"."),
    (.emailVerification, .anyCase, ["required", "optional", "disabled"],
      "Email verification must be \"required\", \"optional\", or \"disabled\"."),
    (.smtpEncryption, .asListed, ["none", "starttls", "ssl"],
      "SMTP encryption must be one of \"none\", \"starttls\", or \"ssl\"."),
    (.userDefaultFolders, .asListed, ["public_private", "none"],
      "User default folders must be either \"public_private\" or \"none\".")]

theorem rule_of_mem_wordSettings {key : CoreKey} {writing : Writing} {words : List String}
    {message : String} (h : (key, writing, words, message) ∈ wordSettings) :
    key.rule = writing.rule words message ∧ PlainWords words := by
  simp only [wordSettings, List.mem_cons, List.not_mem_nil, or_false, Prod.mk.injEq] at h
  rcases h with ⟨rfl, rfl, rfl, rfl⟩ | ⟨rfl, rfl, rfl, rfl⟩ | ⟨rfl, rfl, rfl, rfl⟩ |
    ⟨rfl, rfl, rfl, rfl⟩ | ⟨rfl, rfl, rfl, rfl⟩ <;> exact ⟨rfl, by decide⟩

end Service

/-! ## The rules -/

namespace Rule

open Service (Writing SpellsOne PlainWords)

variable {writing : Writing} {words : List String} (plain : PlainWords words)
  (deployment : Deployment) (message : String) {v : Json}
include plain

/-- A text that spells a word becomes the word. -/
theorem normalize_of_spellsOne {word : String} (h : SpellsOne writing words v word) :
    (writing.rule words message).normalize deployment v = pure (.string word) := by
  obtain ⟨hword, s, rfl, hspells⟩ := h
  cases writing with
  | asListed =>
      obtain rfl : s = word := hspells
      exact if_pos (List.contains_iff_mem.2 hword)
  | anyCase =>
      have hlower : Text.lowerCase s = word := (Text.lowerCase_eq_iff (plain word hword)).2 hspells
      show (if words.contains (Text.lowerCase s) then _ else _) = _
      rw [hlower, if_pos (List.contains_iff_mem.2 hword)]

/-- Every other value is rejected. -/
theorem normalize_of_not_spellsOne (h : ¬ ∃ word, SpellsOne writing words v word) :
    (writing.rule words message).normalize deployment v = .fail (.invalidValue message) := by
  cases v with
  | string s =>
      cases writing with
      | asListed =>
          have hnot : ¬ words.contains s = true := fun hs =>
            h ⟨s, List.contains_iff_mem.1 hs, s, rfl, rfl⟩
          exact if_neg hnot
      | anyCase =>
          have hnot : ¬ words.contains (Text.lowerCase s) = true := by
            intro hs
            have hword := List.contains_iff_mem.1 hs
            exact h ⟨_, hword, s, rfl, (Text.lowerCase_eq_iff (plain _ hword)).1 rfl⟩
          exact if_neg hnot
  | _ => cases writing <;> rfl

end Rule

/-! ## The settings -/

namespace Service

/-- A spelling of a plain word has no character beyond ASCII. -/
theorem SpellsOne.toNat_lt {writing : Writing} {words : List String} {s word : String}
    (h : SpellsOne writing words (.string s) word) (plain : PlainWords words) {c : Char}
    (hc : c ∈ s.toList) : c.toNat < 0x80 := by
  obtain ⟨hword, t, ht, hspells⟩ := h
  obtain rfl : s = t := Json.string.inj ht
  cases writing with
  | asListed =>
      obtain rfl : s = word := hspells
      exact (plain s hword c hc).1
  | anyCase => exact hspells.toNat_lt (plain word hword) hc

/-- What was set is what is got, if the value can be stored. -/
theorem run_none_get_of_set {store : Store} {state after : store.State}
    (attainable : store.Attainable state) (service : Service) {key : String} {v : Json}
    {faults : Faults} {s : Document}
    (hset : (service.set key v).run store.backend faults state = (.ok s, after))
    (storable : s.value.Storable) :
    (service.get key).run store.backend Faults.none after = (.ok s.value, after) := by
  have hfound := ends_set_found attainable.orderly service key v faults
  rw [hset] at hfound
  have hget := run_none_get store after service key
  rw [effective, Contents.of, (hfound s rfl).2, store.readBack_of_storable storable] at hget
  exact hget

section Settings

variable {store : Store} {service : Service} {key : CoreKey} {writing : Writing}
  {words : List String} {message : String}
  (listed : (key, writing, words, message) ∈ wordSettings) {deployment : Deployment}
  (registered : service.registry.handler? key.name = some (.core key deployment)) {v : Json}
include listed registered

theorem run_validate_of_spellsOne {word : String} (h : SpellsOne writing words v word)
    (id : Option Int) (faults : Faults) (state : store.State) :
    (service.validate ⟨id, key.name, v⟩).run store.backend faults state
      = (.ok ⟨id, key.name, .string word⟩, state) := by
  obtain ⟨hrule, hplain⟩ := rule_of_mem_wordSettings listed
  rw [run_validate_core registered rfl, hrule]
  dsimp only
  rw [Rule.normalize_of_spellsOne hplain deployment message h]
  rfl

theorem run_validate_of_not_spellsOne (h : ¬ ∃ word, SpellsOne writing words v word)
    (id : Option Int) (faults : Faults) (state : store.State) :
    (service.validate ⟨id, key.name, v⟩).run store.backend faults state
      = (.error (.invalid ⟨"value", message⟩), state) := by
  obtain ⟨hrule, hplain⟩ := rule_of_mem_wordSettings listed
  rw [run_validate_core registered rfl, hrule]
  dsimp only
  rw [Rule.normalize_of_not_spellsOne hplain deployment message h]
  rfl

theorem spellsOne_of_validate {id : Option Int} {faults : Faults} {state : store.State}
    {s' : Setting}
    (accepted : ((service.validate ⟨id, key.name, v⟩).run store.backend faults state).1 = .ok s') :
    ∃ word, SpellsOne writing words v word ∧ s' = ⟨id, key.name, .string word⟩ := by
  by_cases h : ∃ word, SpellsOne writing words v word
  · obtain ⟨word, hword⟩ := h
    rw [run_validate_of_spellsOne listed registered hword] at accepted
    exact ⟨word, hword, (Except.ok.inj accepted).symm⟩
  · rw [run_validate_of_not_spellsOne listed registered h] at accepted
    cases accepted

end Settings

/-- A setting that is one of a few words takes exactly the texts that spell one of them in its
writing, and stores the word as it is listed; every other value is rejected with one message, and
so is every text with a character beyond ASCII in it. This holds over either store, whatever is
stored and whichever calls fail. If from an attainable state the value is set, the word is read
back. -/
theorem word_settings_take_spellings_only (store : Store) (service : Service) {key : CoreKey}
    {writing : Writing} {words : List String} {message : String}
    (listed : (key, writing, words, message) ∈ wordSettings) {deployment : Deployment}
    (registered : service.registry.handler? key.name = some (.core key deployment)) (v : Json)
    (state : store.State) (faults : Faults) :
    (∀ id s', (service.validate ⟨id, key.name, v⟩).run store.backend faults state
        = (.ok s', state) ↔
      ∃ word, SpellsOne writing words v word ∧ s' = ⟨id, key.name, .string word⟩) ∧
    (∀ id, (¬ ∃ word, SpellsOne writing words v word) →
      (service.validate ⟨id, key.name, v⟩).run store.backend faults state
        = (.error (.invalid ⟨"value", message⟩), state)) ∧
    (∀ id s, v = .string s → (∃ c ∈ s.toList, 0x80 ≤ c.toNat) →
      (service.validate ⟨id, key.name, v⟩).run store.backend faults state
        = (.error (.invalid ⟨"value", message⟩), state)) ∧
    (store.Attainable state → ∀ d after,
      (service.set key.name v).run store.backend faults state = (.ok d, after) →
      ∃ word, SpellsOne writing words v word ∧ d.value = .string word ∧
        (service.get key.name).run store.backend Faults.none after
          = (.ok (.string word), after)) := by
  refine ⟨fun id s' => ⟨fun h => ?_, ?_⟩, fun id hnone => ?_, fun id s hs hbeyond => ?_,
    fun attainable d after hset => ?_⟩
  · exact spellsOne_of_validate listed registered (congrArg Prod.fst h)
  · rintro ⟨word, hword, rfl⟩
    exact run_validate_of_spellsOne listed registered hword id faults state
  · exact run_validate_of_not_spellsOne listed registered hnone id faults state
  · subst hs
    obtain ⟨c, hc, hcode⟩ := hbeyond
    apply run_validate_of_not_spellsOne listed registered
    rintro ⟨word, hword⟩
    have hascii := hword.toNat_lt (rule_of_mem_wordSettings listed).2 hc
    omega
  · have haccepted := ends_set_accepted attainable.orderly service key.name v faults
    rw [hset] at haccepted
    obtain ⟨id, ⟨faults', hvalid⟩, -⟩ := haccepted d rfl
    obtain ⟨word, hword, hd⟩ := spellsOne_of_validate listed registered hvalid
    have hvalue : d.value = .string word := congrArg Setting.value hd
    have hget := run_none_get_of_set attainable service hset
      (hvalue ▸ Json.storable_string word)
    rw [hvalue] at hget
    exact ⟨word, hword, hvalue, hget⟩

/-- A word in capital letters, one whose first letter is Greek, and one in capital letters that may
only be written as it is listed. -/
theorem word_settings_take_spellings_only_of_looks :
    (∃ after, (coreService.set CoreKey.addToGroupPolicy.name (.string "NoAdmin")).run Table.backend
          Faults.none Table.empty
        = (.ok ⟨1, CoreKey.addToGroupPolicy.name, .string "noadmin"⟩, after) ∧
      (coreService.get CoreKey.addToGroupPolicy.name).run Table.backend Faults.none after
        = (.ok (.string "noadmin"), after)) ∧
    (coreService.validate ⟨none, CoreKey.registrationPolicy.name, .string "\u039Fpen"⟩).run
        Table.backend Faults.none Table.empty
      = (.error (.invalid ⟨"value",
          "Registration policy must be \"open\", \"closed\", or \"approve\"."⟩), Table.empty) ∧
    (coreService.validate ⟨none, CoreKey.smtpEncryption.name, .string "SSL"⟩).run Table.backend
        Faults.none Table.empty
      = (.error (.invalid ⟨"value",
          "SMTP encryption must be one of \"none\", \"starttls\", or \"ssl\"."⟩),
        Table.empty) := by
  have hregistered : ∀ key : CoreKey, coreService.registry.handler? key.name
      = some (.core key ⟨Catalog.empty, none⟩) := Registry.handler?_of_registerCore rfl
  refine ⟨?_, ?_, ?_⟩
  · have hset : (coreService.set CoreKey.addToGroupPolicy.name (.string "NoAdmin")).run
        Table.backend Faults.none Table.empty
          = (.ok ⟨1, CoreKey.addToGroupPolicy.name, .string "noadmin"⟩,
            { Table.empty with
              rows := [⟨1, CoreKey.addToGroupPolicy.name, some "\"noadmin\""⟩], highest := 1 }) := by
      rfl
    obtain ⟨-, -, -, hread⟩ := word_settings_take_spellings_only .table coreService
      (.head _) (hregistered .addToGroupPolicy) (.string "NoAdmin") Table.empty Faults.none
    obtain ⟨word, -, hvalue, hget⟩ := hread .empty _ _ hset
    cases hvalue
    exact ⟨_, hset, hget⟩
  · obtain ⟨-, -, hrejected, -⟩ := word_settings_take_spellings_only .table coreService
      (.tail _ (.head _)) (hregistered .registrationPolicy) (.string "\u039Fpen") Table.empty
      Faults.none
    exact hrejected none _ rfl ⟨'\u039F', by decide, by decide⟩
  · obtain ⟨-, hrejected, -, -⟩ := word_settings_take_spellings_only .table coreService
      (.tail _ (.tail _ (.tail _ (.head _)))) (hregistered .smtpEncryption) (.string "SSL")
      Table.empty Faults.none
    refine hrejected none ?_
    rintro ⟨word, hword, s, hs, hspells⟩
    cases hs
    obtain rfl : "SSL" = word := hspells
    exact absurd hword (by decide)

end Service

end SettingStore
