import SettingStore.Proofs.Json.RoundTrip
import SettingStore.Proofs.Service.Frame
import SettingStore.Store.Table.Direct

set_option autoImplicit false

/-! # What the table store keeps of a value

The table store writes a value as text and reads it back. The writer takes values of any
depth and the reader does not, so a value that was saved is found again exactly if its
containers stand no deeper than the reader allows; beyond, null is found in its place
(`find_after_set`).
-/

namespace SettingStore

open Session
open Document (find?)

namespace Service

/-! ## Saving -/

/-- A document that was answered is found under the key, with the value that is read from the
text of its own. -/
def FoundAs (key : String) (outcome : Except Error Document) (t : Table) : Prop :=
  ∀ s : Document, outcome = .ok s → s.key = key ∧
    find? key t.documents = some ⟨s.id, key, (Json.ofText? s.value.text).getD .null⟩

/-- Whatever calls fail: if `set` ends well, the document of the key is the one that it
answers, with the value that is read from the text. -/
theorem ends_set {t : Table} (sound : t.Sound) (service : Service) (key : String) (v : Json) :
    Ends Table.backend (FoundAs key) (service.set key v) t :=
  @ends_set_found .table t sound.orderly service key v

/-! ## Finding again -/

/-- Over every reachable table, and whatever calls of `set` fail: what `set` answers is found
again under its key, with its id, and with its value exactly if the containers of the value
do not stand deeper than the reader allows; otherwise null is found in place of the value.
The binary64 numbers in the value have to read back from their texts. -/
theorem find_after_set (service : Service) {t : Table} (reachable : Store.table.Reachable t)
    (key : String) (v : Json) {faults : Faults} {s : Document} {t' : Table}
    (h : (service.set key v).run Table.backend faults t = (.ok s, t'))
    (canonical : s.value.Canonical) (floats : s.value.FloatsReadBack) :
    s.key = key ∧
      Table.backend.answer t' (.findSetting key) = (.ok (some
        ⟨s.id, key, if s.value.depth ≤ Json.maxDepth then s.value else .null⟩), t') := by
  have hends := ends_set reachable.sound service key v faults
  rw [h] at hends
  obtain ⟨hkey, hfind⟩ := hends s rfl
  refine ⟨hkey, ?_⟩
  have hread : (Json.ofText? s.value.text).getD .null
      = if s.value.depth ≤ Json.maxDepth then s.value else .null := by
    rw [Json.ofText?_text canonical floats]
    split <;> rfl
  rw [← hread, ← hfind]
  rfl

/-! ## At the limit and beyond -/

/-- An array in an array in an array, so many times. -/
def nested : Nat → Json
  | 0 => .null
  | n + 1 => .array [nested n]

theorem depth_nested (n : Nat) : (nested n).depth = n := by
  induction n with
  | zero => rfl
  | succ n ih => simp [nested, Json.depth, Json.depthList, ih]

theorem canonical_nested (n : Nat) : (nested n).Canonical := by
  induction n with
  | zero => trivial
  | succ n ih => simp [nested, Json.Canonical, Json.CanonicalList, ih]

theorem floatsReadBack_nested (n : Nat) : (nested n).FloatsReadBack := by
  have hnone : Json.numbers (nested n) = [] := by
    induction n with
    | zero => rfl
    | succ n ih => simp [nested, Json.numbers, Json.itemNumbers, ih]
  intro x hx
  rw [hnone] at hx
  exact absurd hx List.not_mem_nil

theorem chars_nested (n : Nat) :
    (nested n).chars
      = List.replicate n '[' ++ (['n', 'u', 'l', 'l'] ++ List.replicate n ']') := by
  induction n with
  | zero => rfl
  | succ n ih =>
      rw [List.replicate_succ' (a := ']'), nested, Json.chars, ih]
      simp [Json.itemChars, List.replicate_succ]

theorem run_none_set_password (v : Json) :
    (coreService.set passwordKey v).run Table.backend Faults.none Table.empty
      = (.ok ⟨1, passwordKey, v⟩,
        { Table.empty with rows := [⟨1, passwordKey, some v.text⟩], highest := 1 }) := by
  rfl

/-- As deep as the reader allows. -/
theorem find_after_set_of_deepest :
    ∃ t', (coreService.set passwordKey (nested 127)).run Table.backend Faults.none Table.empty
        = (.ok ⟨1, passwordKey, nested 127⟩, t') ∧
      Table.backend.answer t' (.findSetting passwordKey)
        = (.ok (some ⟨1, passwordKey, nested 127⟩), t') := by
  have hset := run_none_set_password (nested 127)
  have hfind := (find_after_set coreService .empty passwordKey (nested 127) hset
    (canonical_nested 127) (floatsReadBack_nested 127)).2
  rw [if_pos (by rw [depth_nested]; decide)] at hfind
  exact ⟨_, hset, hfind⟩

/-- One level deeper the value is gone, although `set` reported it as stored. The table is the one
that inserting the text of the value directly would leave. -/
theorem set_loses_deeper_value :
    ∃ t', (coreService.set passwordKey (nested 128)).run Table.backend Faults.none Table.empty
        = (.ok ⟨1, passwordKey, nested 128⟩, t') ∧
      Table.empty.insertDirectly? passwordKey (some (String.ofList
        (List.replicate 128 '[' ++ (['n', 'u', 'l', 'l'] ++ List.replicate 128 ']'))))
        = some (1, t') ∧
      Table.backend.answer t' (.findSetting passwordKey)
        = (.ok (some ⟨1, passwordKey, .null⟩), t') ∧ nested 128 ≠ .null := by
  have hset := run_none_set_password (nested 128)
  have hends := ends_set Table.sound_empty coreService passwordKey (nested 128) Faults.none
  rw [hset] at hends
  have hfind := (hends _ rfl).2
  rw [Json.ofText?_text (canonical_nested 128) (floatsReadBack_nested 128),
    if_neg (by rw [depth_nested]; decide)] at hfind
  refine ⟨_, hset, ?_, Prod.ext (congrArg Except.ok hfind) rfl, fun hnull => ?_⟩
  · rw [← chars_nested]
    rfl
  · have hdepth := congrArg Json.depth hnull
    rw [depth_nested] at hdepth
    exact absurd hdepth (by decide)

end Service

end SettingStore
