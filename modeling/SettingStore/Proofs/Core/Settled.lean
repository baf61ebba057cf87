import SettingStore.Proofs.Core.ResolvedIds
import SettingStore.Proofs.Plugin.Order
import SettingStore.Proofs.Text.Entries
import SettingStore.Proofs.Text.UpperCase

set_option autoImplicit false

/-! # What the rules of the core settings answer

`Rule.Settled` says of a value that a rule may have answered it: `Rule.yields_normalize` proves
that every accepted value becomes one, whatever the store is and whichever look-ups fail. A
settled value is accepted again and stays as it is (`Rule.run_none_normalize`); only a list of
entries may lose empty ones (`Rule.run_none_normalize_entries`).
-/

namespace SettingStore

/-! ## Normal forms -/

/-- What members of the name list, if there are any, are the canonical ids of entities that
exist. -/
def ListsIds (exist : EntityId → Prop) (name : String) (members : List (String × Json)) : Prop :=
  ∃ ids : List EntityId, (∀ id ∈ ids, exist id) ∧
    ∀ m ∈ members, m.1 = name → m.2 = .array (ids.map fun id => .string id.text)

/-- Setting another member keeps the ids. -/
theorem ListsIds.setMember {exist : EntityId → Prop} {name other : String}
    {members : List (String × Json)} (h : ListsIds exist name members) (hne : other ≠ name)
    (value : Json) : ListsIds exist name (Json.setMember other value members) := by
  obtain ⟨ids, hall, hids⟩ := h
  refine ⟨ids, hall, fun m hm hname => ?_⟩
  rcases Json.mem_of_mem_setMember hm with rfl | hm
  · exact absurd hname hne
  · exact hids m hm hname

namespace Rule

/-- What a rule may answer where these entities exist. -/
def Settled (deployment : Deployment) (exist : Existing) : Rule → Json → Prop
  | .plugins, v => ∃ names,
      deployment.plugins.resolve names = .ok names ∧ v = .array (names.map .string)
  | .word words _, v => ∃ s ∈ words, v = .string s
  | .anyCaseWord words _, v => ∃ s ∈ words, v = .string s
  | .collectionPolicy, v => ∃ members, v = .object members ∧
      (Json.member? "open" members).isSome = true ∧
      ListsIds (exist .group) "groups" members ∧ ListsIds (exist .user) "users" members
  | .wholeNumber least _, v => ∃ n, least ≤ n ∧ Word.Signed n ∧ v = .ofInt n
  | .entries map _, v => ∃ es : List String, es.Nodup ∧ (∀ e ∈ es, Text.Plain e ∧ map e = e) ∧
      v = .string (Text.joinEntries es)
  | .notBlank _, v => v.isBlank = false
  | .trimmed _, v => ∃ s, Text.trim s = s ∧ v = .string s
  | .anything, _ => True

/-- A function on entries keeps what it has mapped and brings no commas or blanks in, and words
that are compared in lower case are in lower case. -/
def Proper : Rule → Prop
  | .entries map _ => ∀ e, map (map e) = map e ∧ (Text.Plain e → Text.Plain (map e))
  | .anyCaseWord words _ => words.all (fun s => Text.lowerCase s == s) = true
  | _ => True

theorem proper_core (key : CoreKey) : key.rule.Proper := by
  cases key with
  | corsAllowMethods =>
      exact fun e => ⟨Text.upperCase_upperCase e, Text.not_separatesEntries_upperCase⟩
  | corsAllowHeaders => exact fun e => ⟨rfl, id⟩
  | corsAllowOrigin => exact fun e => ⟨Text.dropSlashes_dropSlashes e, Text.plain_dropSlashes⟩
  | addToGroupPolicy | registrationPolicy | emailVerification =>
      show List.all _ _ = true
      decide +kernel
  | _ => trivial

end Rule

/-! ## Policies -/

section Policies

variable {name : String} {members members' : List (String × Json)}

/-- Members that were resolved list ids. -/
theorem IdsResolved.listsIds {exist : EntityId → Prop}
    (h : IdsResolved exist name members members') : ListsIds exist name members' := by
  cases h with
  | absent hnone =>
      refine ⟨[], fun _ h => absurd h List.not_mem_nil, fun m hm hname => ?_⟩
      rw [Json.member?, List.lookup_eq_none_iff] at hnone
      exact absurd hname.symm (bne_iff_ne.1 (hnone m hm))
  | listed _ hnames =>
      refine ⟨_, EntityId.exist_of_names hnames, fun m hm hname => ?_⟩
      rcases Json.mem_of_mem_replaced hm with rfl | ⟨-, hne⟩
      · rfl
      · exact absurd hname hne

/-- Members that list canonical ids of entities that exist stay as they are. -/
theorem ListsIds.resolved {exist : EntityId → Prop} (h : ListsIds exist name members) :
    IdsResolved exist name members members := by
  obtain ⟨ids, hall, hids⟩ := h
  cases hmember : Json.member? name members with
  | none => exact .absent hmember
  | some v =>
      have hkept : (members.map fun m => if m.1 == name then
          (m.1, Json.array (ids.map fun id => .string id.text)) else m) = members := by
        refine (List.map_congr_left fun m hm => ?_).trans (List.map_id members)
        split
        · rename_i hsame
          exact Prod.ext rfl (hids m hm (beq_iff_eq.1 hsame)).symm
        · rfl
      have hlisted : Json.member? name members
          = some (.array (ids.map fun id => .string id.text)) := by
        rw [hmember, ← hids _ (Json.mem_of_member? hmember) rfl]
      have hnames : List.Forall₂ (EntityId.Names exist)
          (ids.map fun id => Json.string id.text) ids := by
        rw [List.forall₂_map_left_iff, List.forall₂_same]
        exact fun id hid => EntityId.names_text (hall id hid)
      have hresolved := IdsResolved.listed hlisted hnames
      rwa [hkept] at hresolved

/-- Saying whether the policy is open keeps the ids. -/
theorem ListsIds.saidOpen {exist : EntityId → Prop} (h : ListsIds exist name members)
    (hne : "open" ≠ name) : ListsIds exist name (saidOpen members) := by
  unfold SettingStore.saidOpen
  split
  · exact h
  · exact h.setMember hne _

variable {exist : Existing}

/-- A resolved policy is settled. -/
theorem PolicyResolved.settled (h : PolicyResolved exist members members')
    (deployment : Deployment) :
    Rule.collectionPolicy.Settled deployment exist (.object members') := by
  obtain ⟨groups, users⟩ := h
  obtain ⟨ids, hall, hids⟩ := groups.listsIds
  have husers := users.listsIds
  have hgroups : ListsIds (exist .group) "groups" _ :=
    ⟨ids, hall, fun m hm hname => hids m (users.mem_of_ne hm (by rw [hname]; decide)) hname⟩
  refine ⟨_, rfl, ?_, ?_, ?_⟩
  · rw [member?_saidOpen_self]
    rfl
  · exact hgroups.saidOpen (by decide)
  · exact husers.saidOpen (by decide)

/-- A settled policy stays as it is. -/
theorem Rule.Settled.resolved {deployment : Deployment} {v : Json}
    (h : Rule.collectionPolicy.Settled deployment exist v) :
    ∃ members, v = .object members ∧ PolicyResolved exist members members := by
  obtain ⟨members, hv, hopen, hgroups, husers⟩ := h
  have hresolved := PolicyResolved.intro hgroups.resolved husers.resolved
  rw [saidOpen, if_pos hopen] at hresolved
  exact ⟨members, hv, hresolved⟩

end Policies

/-! ## Accepted values -/

namespace Rule

variable {σ : Type} {backend : Backend σ} {state : σ}
  {lookup : EntityKind → EntityId → Option Entity}

/-- A text that is answered if it is one of the words. -/
theorem yields_contained {words : List String} {s message : String} (stored : Prop) :
    Session.Yields backend
      (fun v : Json => (∃ s ∈ words, v = .string s) ∧ (stored → v.Storable))
      (if words.contains s then pure (.string s) else .fail (.invalidValue message)) state := by
  split
  · rename_i hmem
    exact Session.yields_pure ⟨⟨s, List.contains_iff_mem.1 hmem, rfl⟩,
      fun _ => Json.storable_string s⟩
  · exact Session.yields_fail _

/-- A whole number that a value denotes is a signed word. -/
theorem signed_of_toWhole? {v : Json} {n : Int} (h : v.toWhole? = some n) : Word.Signed n := by
  cases v with
  | bool b =>
      cases h
      cases b <;> decide
  | number x =>
      cases x with
      | int m =>
          obtain ⟨hsigned, heq⟩ := Option.ite_none_right_eq_some.1 h
          cases heq
          exact hsigned
      | float x =>
          obtain ⟨hsigned, heq⟩ := Option.ite_none_right_eq_some.1 h
          cases heq
          exact hsigned
  | string s => exact of_decide_eq_true (Option.filter_eq_some_iff.1 h).2
  | _ => cases h

theorem toWhole?_ofInt {n : Int} (signed : Word.Signed n) : (Json.ofInt n).toWhole? = some n :=
  if_pos signed

theorem trim_trim (s : String) : Text.trim (Text.trim s) = Text.trim s := by
  rw [Text.trim, Text.trim, String.toList_ofList, Text.trimChars_trimChars]

/-- What a rule answers is settled, whatever calls fail, and it can be stored if the given value
can. -/
theorem yields_normalize (knows : backend.Knows state lookup) (deployment : Deployment)
    {rule : Rule} (proper : rule.Proper) (v : Json) :
    Session.Yields backend (fun w =>
      rule.Settled deployment (fun kind id => (lookup kind id).isSome = true) w ∧
        (v.Storable → w.Storable)) (rule.normalize deployment v) state := by
  cases rule with
  | plugins =>
      refine Session.yields_done fun w hw => ?_
      rw [Deployment.enabledPlugins] at hw
      split at hw
      · cases hw
      · split at hw
        · cases hw
        · rename_i names _ sorted hresolve
          cases hw
          exact ⟨⟨sorted, Catalog.resolve_of_resolve hresolve, rfl⟩,
            fun _ => Json.storable_strings sorted⟩
  | word words message =>
      cases v with
      | string s => exact yields_contained _
      | _ => exact Session.yields_fail _
  | anyCaseWord words message =>
      cases v with
      | string s => exact yields_contained _
      | _ => exact Session.yields_fail _
  | collectionPolicy =>
      refine (Session.yields_resolved knows v).imp fun outcome state' hended => ?_
      obtain ⟨hstate, hvalue⟩ := hended
      refine ⟨hstate, fun w hw => ?_⟩
      obtain ⟨members, members', rfl, rfl, hresolved⟩ := hvalue w hw
      exact ⟨hresolved.settled deployment, hresolved.storable⟩
  | wholeNumber least message =>
      rw [normalize.eq_def]
      dsimp only
      split
      · rename_i n hn
        have hsigned := signed_of_toWhole? hn
        split
        · rename_i hle
          exact Session.yields_pure ⟨⟨n, hle, hsigned, rfl⟩, fun _ => Json.storable_ofInt hsigned⟩
        · exact Session.yields_fail _
      · exact Session.yields_fail _
  | entries map message =>
      cases v with
      | string s =>
          refine Session.yields_pure ⟨⟨((Text.entries s).map map).eraseDups,
            Text.nodup_eraseDups _, fun e he => ?_, rfl⟩, fun _ => Json.storable_string _⟩
          obtain ⟨d, hd, rfl⟩ := Text.mem_eraseDups_map.1 he
          exact ⟨(proper d).2 (Text.of_mem_entries hd).1, (proper d).1⟩
      | _ => exact Session.yields_fail _
  | notBlank message =>
      rw [normalize.eq_def]
      dsimp only
      split
      · exact Session.yields_fail _
      · rename_i hnot
        exact Session.yields_pure ⟨Bool.eq_false_iff.2 hnot, id⟩
  | trimmed message =>
      cases v with
      | string s =>
          exact Session.yields_pure ⟨⟨Text.trim s, trim_trim s, rfl⟩,
            fun _ => Json.storable_string _⟩
      | _ => exact Session.yields_fail _
  | anything => exact Session.yields_pure ⟨trivial, id⟩

end Rule

/-! ## Settled values -/

namespace Rule

variable {σ : Type} {backend : Backend σ} {state : σ}
  {lookup : EntityKind → EntityId → Option Entity}

theorem strings?_array (names : List String) :
    (Json.array (names.map .string)).strings? = some names := by
  show (names.map Json.string).mapM Json.string? = some names
  induction names with
  | nil => rfl
  | cons name rest ih =>
      rw [List.map_cons, List.mapM_cons, ih]
      rfl

/-- A settled value is accepted and stays as it is, unless it is a list of entries. -/
theorem run_none_normalize (knows : backend.Knows state lookup) {deployment : Deployment}
    {rule : Rule} (proper : rule.Proper) (noEntries : ∀ map message, rule ≠ .entries map message)
    {v : Json}
    (settled : rule.Settled deployment (fun kind id => (lookup kind id).isSome = true) v) :
    (rule.normalize deployment v).run backend Faults.none state = (.ok v, state) := by
  cases rule with
  | plugins =>
      obtain ⟨names, hresolve, rfl⟩ := settled
      rw [normalize, Deployment.enabledPlugins, strings?_array]
      dsimp only
      rw [hresolve]
      rfl
  | word words message =>
      obtain ⟨s, hs, rfl⟩ := settled
      rw [normalize, if_pos (List.contains_iff_mem.2 hs)]
      rfl
  | anyCaseWord words message =>
      obtain ⟨s, hs, rfl⟩ := settled
      have hlower : Text.lowerCase s = s := beq_iff_eq.1 (List.all_eq_true.1 proper s hs)
      rw [normalize, hlower, if_pos (List.contains_iff_mem.2 hs)]
      rfl
  | collectionPolicy =>
      obtain ⟨members, rfl, hresolved⟩ := settled.resolved
      exact Session.run_none_resolved knows hresolved
  | wholeNumber least message =>
      obtain ⟨n, hle, hsigned, rfl⟩ := settled
      rw [normalize, toWhole?_ofInt hsigned]
      dsimp only
      rw [if_pos hle]
      rfl
  | entries map message => exact absurd rfl (noEntries map message)
  | notBlank message =>
      rw [normalize, show v.isBlank = false from settled]
      rfl
  | trimmed message =>
      obtain ⟨s, htrim, rfl⟩ := settled
      show (Except.ok (Json.string (Text.trim s)), state) = _
      rw [htrim]
  | anything => rfl

/-- Some of the entries of the value become empty, and some do not. -/
def SkipsSome : Rule → Json → Prop
  | .entries map _, .string s =>
      (∃ e ∈ Text.entries s, map e = "") ∧ ∃ e ∈ Text.entries s, map e ≠ ""
  | _, _ => False

/-- A list of entries is accepted again, and stays as it is if empty entries do not stand
between others. -/
theorem run_none_normalize_entries {deployment : Deployment} {map : String → String}
    {message : String} (proper : (Rule.entries map message).Proper) (s : String) :
    ∃ w, ((Rule.entries map message).normalize deployment
        (.string (Text.normalEntries map s))).run backend Faults.none state
          = (.ok (.string w), state) ∧
      (w = Text.normalEntries map s ↔ ¬ (Rule.entries map message).SkipsSome (.string s)) := by
  obtain ⟨es, hes⟩ : ∃ es, es = ((Text.entries s).map map).eraseDups := ⟨_, rfl⟩
  have hmem : ∀ e, e ∈ es ↔ ∃ d ∈ Text.entries s, map d = e := by
    intro e
    rw [hes]
    exact Text.mem_eraseDups_map
  have nodup : es.Nodup := by
    rw [hes]
    exact Text.nodup_eraseDups _
  have plain : ∀ e ∈ es, Text.Plain e := by
    intro e he
    obtain ⟨d, hd, rfl⟩ := (hmem e).1 he
    exact (proper d).2 (Text.of_mem_entries hd).1
  have kept : ∀ e ∈ es, map e = e := by
    intro e he
    obtain ⟨d, -, rfl⟩ := (hmem e).1 he
    exact (proper d).1
  have hnormal : Text.normalEntries map s = Text.joinEntries es := by rw [Text.normalEntries, hes]
  refine ⟨Text.joinEntries (es.filter (· ≠ "")), ?_, ?_⟩
  · rw [hnormal, normalize, Text.normalEntries_joinEntries plain nodup kept]
    rfl
  · rw [hnormal]
    refine (Text.joinEntries_filter_eq_iff plain nodup).trans (not_congr ?_)
    refine and_congr (hmem "") ⟨?_, ?_⟩
    · rintro ⟨e, he, hne⟩
      obtain ⟨d, hd, rfl⟩ := (hmem e).1 he
      exact ⟨d, hd, hne⟩
    · rintro ⟨d, hd, hne⟩
      exact ⟨map d, (hmem _).2 ⟨d, hd, rfl⟩, hne⟩

/-- Where the same entities exist, what a rule answers it accepts again, and it stays as it is
unless empty entries stand between others. -/
theorem normalize_again {state' : σ} (knows : backend.Knows state lookup)
    (knows' : backend.Knows state' lookup) {deployment : Deployment} {rule : Rule}
    (proper : rule.Proper) {v w : Json} {faults : Faults}
    (h : ((rule.normalize deployment v).run backend faults state).1 = .ok w) :
    ∃ w', (rule.normalize deployment w).run backend Faults.none state' = (.ok w', state') ∧
      (w' = w ↔ ¬ rule.SkipsSome v) := by
  have settled := ((yields_normalize knows deployment proper v faults).2 w h).1
  cases rule with
  | entries map message =>
      cases v with
      | string s =>
          cases h
          obtain ⟨w', hrun, hsame⟩ := run_none_normalize_entries proper s
          refine ⟨.string w', hrun, ?_⟩
          rw [Json.string.injEq, hsame]
      | _ => cases h
  | _ =>
      refine ⟨w, run_none_normalize knows' proper (fun map message heq => by cases heq) settled,
        iff_of_true rfl id⟩

end Rule

namespace CoreKey

/-- Among allowed origins there is one that is nothing but slashes, and one that is not. -/
def SlashesBesides (key : CoreKey) (v : Json) : Prop :=
  key = .corsAllowOrigin ∧ ∃ s, v = .string s ∧
    (∃ e ∈ Text.entries s, ∀ c ∈ e.toList, c = '/') ∧
    ∃ e ∈ Text.entries s, ∃ c ∈ e.toList, c ≠ '/'

/-- Only of an origin that is nothing but slashes an empty entry is left. -/
theorem skipsSome_iff (key : CoreKey) (v : Json) : key.rule.SkipsSome v ↔ key.SlashesBesides v := by
  constructor
  · intro h
    cases v with
    | string s =>
        cases key with
        | corsAllowMethods =>
            obtain ⟨⟨e, he, hempty⟩, -⟩ := h
            exact absurd (Text.upperCase_eq_empty_iff.1 hempty) (Text.of_mem_entries he).2
        | corsAllowHeaders =>
            obtain ⟨⟨e, he, hempty⟩, -⟩ := h
            exact absurd hempty (Text.of_mem_entries he).2
        | corsAllowOrigin =>
            obtain ⟨⟨e, he, hempty⟩, ⟨d, hd, hne⟩⟩ := h
            refine ⟨rfl, s, rfl, ⟨e, he, Text.dropSlashes_eq_empty_iff.1 hempty⟩, d, hd, ?_⟩
            rw [ne_eq, Text.dropSlashes_eq_empty_iff] at hne
            exact Decidable.byContradiction fun hnot => hne fun c hc =>
              Decidable.byContradiction fun hc' => hnot ⟨c, hc, hc'⟩
        | _ => exact h.elim
    | _ => cases key <;> exact h.elim
  · rintro ⟨rfl, s, rfl, ⟨e, he, hall⟩, d, hd, c, hc, hne⟩
    refine ⟨⟨e, he, Text.dropSlashes_eq_empty_iff.2 hall⟩, d, hd, fun hempty => ?_⟩
    exact hne (Text.dropSlashes_eq_empty_iff.1 hempty c hc)

end CoreKey

end SettingStore
