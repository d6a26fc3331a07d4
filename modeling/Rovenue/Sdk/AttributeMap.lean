import Rovenue.Sdk.CacheStore

/-! Attribute mutations on the wire: one JSON map a request, and what it does to the
attributes the server holds. -/

namespace Rovenue.Sdk
open Txn (Table)

/-- The body of `POST /v1/me/attributes`; null deletes the key. -/
abbrev AttributeMutationMap := Table String (Option String)

def coalesce (rows : List AttributeMutation) : AttributeMutationMap :=
  rows.foldl (fun map r => map.set r.key r.value) Table.empty

abbrev Attributes := String → Option String

def protoKey : String := "__proto__"

/-- What `attributesBodySchema` lets through of a body: a record is read into an object literal. -/
def attributesBody (body : AttributeMutationMap) : AttributeMutationMap := body.erase protoKey

def applyMutations (current : Attributes) (mutations : AttributeMutationMap) : Attributes :=
  fun key => (mutations.get? key).elim (current key) fun value =>
    -- assigning to the name sets the prototype, and deleting it finds no field
    if key = protoKey ∧ value.isSome then current key else value

def applyInOrder (current : Attributes) (mutations : AttributeMutationMap) : Attributes :=
  fun key => (mutations.get? key).getD (current key)

theorem get?_attributesBody (body : AttributeMutationMap) (key : String) :
    (attributesBody body).get? key = if key = protoKey then none else body.get? key :=
  body.get?_erase

theorem mem_attributesBody {body : AttributeMutationMap} {e : String × Option String}
    (h : e ∈ (attributesBody body).entries) : e ∈ body.entries ∧ e.1 ≠ protoKey := by
  obtain ⟨hmem, hkey⟩ := List.mem_filter.1 h
  exact ⟨hmem, of_decide_eq_true hkey⟩

theorem applyMutations_attributesBody (current : Attributes) (body : AttributeMutationMap) :
    applyMutations current (attributesBody body) =
      applyInOrder current (attributesBody body) := by
  funext key
  simp only [applyMutations, applyInOrder, get?_attributesBody]
  by_cases hkey : key = protoKey
  · simp [hkey]
  · cases body.get? key <;> simp [hkey]

def lastValue (rows : List AttributeMutation) (key : String) : Option (Option String) :=
  (rows.reverse.find? fun r => r.key = key).map AttributeMutation.value

theorem get?_coalesce (rows : List AttributeMutation) (key : String) :
    (coalesce rows).get? key = lastValue rows key := by
  induction rows using List.reverseRecOn with
  | nil => rfl
  | append_singleton rows r ih =>
    have hsnoc : coalesce (rows ++ [r]) = (coalesce rows).set r.key r.value := by
      simp [coalesce]
    rw [hsnoc, Table.get?_set, ih]
    by_cases hkey : key = r.key
    · simp [lastValue, hkey]
    · simp [lastValue, hkey, Ne.symm hkey]

theorem lastValue_of_greatest {rows : List (ℕ × AttributeMutation)}
    (hsorted : rows.Pairwise fun e f => e.1 < f.1) {e : ℕ × AttributeMutation} (he : e ∈ rows)
    (hgreatest : ∀ f ∈ rows, f.2.key = e.2.key → f.1 ≤ e.1) :
    lastValue (rows.map Prod.snd) e.2.key = some e.2.value := by
  induction rows using List.reverseRecOn with
  | nil => exact absurd he List.not_mem_nil
  | append_singleton rows r ih =>
    rw [List.pairwise_append] at hsorted
    rw [List.map_append, lastValue, List.reverse_append]
    rcases List.mem_append.1 he with hmem | hmem
    · have hlt : e.1 < r.1 := hsorted.2.2 e hmem r (List.mem_singleton.2 rfl)
      have hkey : r.2.key ≠ e.2.key := by
        intro hkey
        have hle := hgreatest r (List.mem_append_right _ (List.mem_singleton.2 rfl)) hkey
        omega
      have hrest := ih hsorted.1 hmem fun f hf => hgreatest f (List.mem_append_left _ hf)
      simpa [lastValue, hkey] using hrest
    · obtain rfl := List.mem_singleton.1 hmem
      simp

theorem lastValue_eq_none {rows : List AttributeMutation} {key : String} :
    lastValue rows key = none ↔ ∀ r ∈ rows, r.key ≠ key := by
  simp [lastValue]

theorem exists_greatest {rows : List (ℕ × AttributeMutation)}
    (hsorted : rows.Pairwise fun e f => e.1 < f.1) {key : String}
    (h : ∃ e ∈ rows, e.2.key = key) :
    ∃ e ∈ rows, e.2.key = key ∧ ∀ f ∈ rows, f.2.key = key → f.1 ≤ e.1 := by
  induction rows using List.reverseRecOn with
  | nil =>
    obtain ⟨e, he, -⟩ := h
    exact absurd he List.not_mem_nil
  | append_singleton rows r ih =>
    rw [List.pairwise_append] at hsorted
    have hr : r ∈ rows ++ [r] := List.mem_append_right _ (List.mem_singleton.2 rfl)
    by_cases hkey : r.2.key = key
    · refine ⟨r, hr, hkey, fun f hf _ => ?_⟩
      rcases List.mem_append.1 hf with hf | hf
      · exact (hsorted.2.2 f hf r (List.mem_singleton.2 rfl)).le
      · rw [List.mem_singleton.1 hf]
    · have hnot : ∀ f ∈ rows ++ [r], f.2.key = key → f ∈ rows := by
        intro f hf hfkey
        rcases List.mem_append.1 hf with hf | hf
        · exact hf
        · rw [List.mem_singleton.1 hf] at hfkey
          exact absurd hfkey hkey
      obtain ⟨e, he, hekey⟩ := h
      obtain ⟨g, hg, hgkey, hmax⟩ := ih hsorted.1 ⟨e, hnot e he hekey, hekey⟩
      exact ⟨g, List.mem_append_left _ hg, hgkey, fun f hf hfkey => hmax f (hnot f hf hfkey) hfkey⟩

end Rovenue.Sdk
