import SettingStore.Proofs.Core.Settled
import Mathlib.Algebra.Group.Int.Defs

set_option autoImplicit false

/-! # The values that core settings have

For each core key `CoreKey.Admits` says which values it may have where certain entities exist.
What the rule of the key answers is such a value (`Rule.Settled.admits`). A deployment keeps its
plugins, and entities are created only, so a value that was answered once remains admitted
(`Rule.Settled.mono`).
-/

namespace SettingStore

/-! ## Kinds of values -/

namespace Json

/-- One of the words. -/
def IsWord (words : List String) (v : Json) : Prop := ∃ s ∈ words, v = .string s

/-- A whole number from `least` to the greatest signed 64-bit number. -/
def IsWhole (least : Int) (v : Json) : Prop :=
  ∃ n : Int, least ≤ n ∧ n ≤ 2 ^ 63 - 1 ∧ v = .number (.int n)

/-- A text of entries of a certain kind, no two of them the same and none with a comma or a blank
in it. -/
def IsEntries (entry : String → Prop) (v : Json) : Prop :=
  ∃ es : List String, es.Nodup ∧ (∀ e ∈ es, ∀ c ∈ e.toList, c ≠ ',' ∧ Text.isBlank c = false) ∧
    (∀ e ∈ es, entry e) ∧ v = .string (String.intercalate ", " es)

/-- A list of names of installed plugins, each once and after all that it depends on. -/
def IsPlugins (plugins : Catalog) (v : Json) : Prop :=
  ∃ names : List String, names.Nodup ∧ (∀ p ∈ names, p ∈ plugins.names) ∧
    (∀ before p after, names = before ++ p :: after → ∀ d, plugins.DependsOn p d → d ∈ before) ∧
    v = .array (names.map .string)

/-- A list of canonical ids of entities that exist. -/
def IsIds (exist : EntityId → Prop) (v : Json) : Prop :=
  ∃ ids : List EntityId, (∀ id ∈ ids, exist id) ∧ v = .array (ids.map fun id => .string id.text)

end Json

/-- The values that a core key may have where these entities exist. -/
def CoreKey.Admits (deployment : Deployment) (exist : Existing) : CoreKey → Json → Prop
  | .pluginsEnabled, v => v.IsPlugins deployment.plugins
  | .addToGroupPolicy, v => v.IsWord ["never", "noadmin", "nomod", "yesadmin", "yesmod", ""]
  | .collectionCreatePolicy, v => ∃ members, v = .object members ∧
      (∃ isOpen, Json.member? "open" members = some isOpen) ∧
      (∀ ids, Json.member? "groups" members = some ids → ids.IsIds (exist .group)) ∧
      ∀ ids, Json.member? "users" members = some ids → ids.IsIds (exist .user)
  | .cookieLifetime, v => v.IsWhole 1
  | .corsAllowMethods, v => v.IsEntries fun e => Text.upperCase e = e
  | .corsAllowHeaders, v => v.IsEntries fun _ => True
  | .corsAllowOrigin, v => v.IsEntries fun e => e.toList.getLast? ≠ some '/'
  | .emailFromAddress, v => v.isBlank = false
  | .emailHost, v => ∃ s, (∀ c, s.toList.head? = some c → Text.isBlank c = false) ∧
      (∀ c, s.toList.getLast? = some c → Text.isBlank c = false) ∧ v = .string s
  | .registrationPolicy, v => v.IsWord ["open", "closed", "approve"]
  | .emailVerification, v => v.IsWord ["required", "optional", "disabled"]
  | .smtpHost, v => v.isBlank = false
  | .smtpPort, v => v.IsWhole 1
  | .smtpEncryption, v => v.IsWord ["none", "starttls", "ssl"]
  | .smtpUsername, _ => True
  | .smtpPassword, _ => True
  | .uploadMinimumChunkSize, v => v.IsWhole 0
  | .userDefaultFolders, v => v.IsWord ["public_private", "none"]

/-! ## What a rule answers -/

/-- What is found under the name is a list of such ids. -/
theorem ListsIds.isIds {exist : EntityId → Prop} {name : String}
    {members : List (String × Json)} (h : ListsIds exist name members) {ids : Json}
    (hmember : Json.member? name members = some ids) : ids.IsIds exist := by
  obtain ⟨listed, hall, hids⟩ := h
  exact ⟨listed, hall, hids (name, ids) (Json.mem_of_member? hmember) rfl⟩

namespace Rule.Settled

variable {deployment : Deployment} {exist exist' : Existing} {v : Json}

/-- A settled value stays one where more entities exist. -/
theorem mono {rule : Rule} (h : rule.Settled deployment exist v)
    (more : ∀ kind id, exist kind id → exist' kind id) : rule.Settled deployment exist' v := by
  cases rule with
  | collectionPolicy =>
      obtain ⟨members, hv, hopen, ⟨groups, hgroups, hgroupIds⟩, users, husers, huserIds⟩ := h
      exact ⟨members, hv, hopen, ⟨groups, fun id hid => more _ id (hgroups id hid), hgroupIds⟩,
        users, fun id hid => more _ id (husers id hid), huserIds⟩
  | _ => exact h

theorem isWhole {least : Int} {message : String}
    (h : (Rule.wholeNumber least message).Settled deployment exist v) : v.IsWhole least := by
  obtain ⟨n, hle, hsigned, rfl⟩ := h
  exact ⟨n, hle, hsigned.2, rfl⟩

theorem isEntries {map : String → String} {message : String} {entry : String → Prop}
    (h : (Rule.entries map message).Settled deployment exist v)
    (kept : ∀ e, map e = e → entry e) : v.IsEntries entry := by
  obtain ⟨es, hnodup, hall, rfl⟩ := h
  refine ⟨es, hnodup, fun e he c hc => ?_, fun e he => kept e (hall e he).2, rfl⟩
  have hplain := (hall e he).1 c hc
  rw [Text.separatesEntries, Bool.or_eq_false_iff, beq_eq_false_iff_ne] at hplain
  exact hplain

theorem isPlugins (h : Rule.plugins.Settled deployment exist v) :
    v.IsPlugins deployment.plugins := by
  obtain ⟨names, hresolve, rfl⟩ := h
  refine ⟨names, Catalog.nodup_of_resolve hresolve, fun p hp => ?_, ?_, rfl⟩
  · exact ((Catalog.mem_of_resolve hresolve).1 hp).installed
  · intro before p after hsplit d hdepends
    exact Catalog.mem_before_of_resolve hresolve hsplit hdepends

/-- What the rule of a core key answers is a value that the key may have. -/
theorem admits {key : CoreKey} (h : key.rule.Settled deployment exist v) :
    key.Admits deployment exist v := by
  cases key with
  | pluginsEnabled => exact h.isPlugins
  | collectionCreatePolicy =>
      obtain ⟨members, hv, hopen, hgroups, husers⟩ := h
      exact ⟨members, hv, Option.isSome_iff_exists.1 hopen, fun _ => ListsIds.isIds hgroups,
        fun _ => ListsIds.isIds husers⟩
  | cookieLifetime | smtpPort | uploadMinimumChunkSize => exact h.isWhole
  | corsAllowMethods => exact h.isEntries fun _ => id
  | corsAllowHeaders => exact h.isEntries fun _ _ => trivial
  | corsAllowOrigin =>
      refine h.isEntries fun e he hlast => ?_
      have hkept : Text.dropTrailing (· == '/') e.toList = e.toList := by
        rw [← String.toList_ofList (l := Text.dropTrailing (· == '/') e.toList)]
        exact congrArg String.toList he
      rw [← hkept] at hlast
      exact absurd (Text.not_of_getLast?_dropTrailing hlast) (by decide)
  | emailHost =>
      obtain ⟨s, htrim, rfl⟩ := h
      have hkept : Text.trimChars s.toList = s.toList := by
        rw [← String.toList_ofList (l := Text.trimChars s.toList)]
        exact congrArg String.toList htrim
      refine ⟨s, fun c hc => ?_, fun c hc => ?_, rfl⟩
      · rw [← hkept] at hc
        exact Text.head?_trimChars hc
      · rw [← hkept] at hc
        exact Text.getLast?_trimChars hc
  | _ => exact h

end Rule.Settled

end SettingStore
