import Rovenue.Attributes.Validation

/-! Mutations sent on their own, one after the other, against the same mutations sent
as one map. -/

namespace Rovenue.Attributes
open Sdk (AttributeMutation AttributeMutationMap attributesBody coalesce get?_attributesBody
  get?_coalesce lastValue mem_attributesBody protoKey)

/-- What a request that sends these mutations hands to the handler. -/
def sent (rows : List AttributeMutation) : AttributeMutationMap := attributesBody (coalesce rows)

def Accepts (s : SubscriberAttributes) (m : AttributeMutation) : Prop :=
  validateAttributeInput (sent [m]) s = []

instance (s : SubscriberAttributes) (m : AttributeMutation) : Decidable (Accepts s m) :=
  inferInstanceAs (Decidable (_ = _))

def sendAlone (s : SubscriberAttributes) (m : AttributeMutation) : SubscriberAttributes :=
  if Accepts s m then s.apply (sent [m]) else s

def AcceptedInTurn (s : SubscriberAttributes) (earlier : List AttributeMutation)
    (m : AttributeMutation) : Prop := Accepts (earlier.foldl sendAlone s) m

instance (s : SubscriberAttributes) (earlier : List AttributeMutation) (m : AttributeMutation) :
    Decidable (AcceptedInTurn s earlier m) := inferInstanceAs (Decidable (Accepts ..))

def AllAcceptedInTurn (s : SubscriberAttributes) (rows : List AttributeMutation) : Prop :=
  ∀ earlier m later, rows = earlier ++ m :: later → AcceptedInTurn s earlier m

variable {s : SubscriberAttributes} {rows : List AttributeMutation} {m : AttributeMutation}

theorem AllAcceptedInTurn.init (h : AllAcceptedInTurn s (rows ++ [m])) :
    AllAcceptedInTurn s rows := by
  intro earlier m' later hrows
  exact h earlier m' (later ++ [m]) (by rw [hrows, List.append_assoc, List.cons_append])

theorem AllAcceptedInTurn.last (h : AllAcceptedInTurn s (rows ++ [m])) :
    AcceptedInTurn s rows m := h rows m [] rfl

theorem get?_sent (rows : List AttributeMutation) (key : String) :
    (sent rows).get? key = if key = protoKey then none else lastValue rows key := by
  rw [sent, get?_attributesBody, get?_coalesce]

theorem values_apply_sent (s : SubscriberAttributes) (rows : List AttributeMutation)
    (key : String) :
    (s.apply (sent rows)).values key =
      (if key = protoKey then none else lastValue rows key).getD (s.values key) := by
  rw [sent, SubscriberAttributes.values_apply_attributesBody, ← sent, get?_sent]

theorem apply_sent_snoc (s : SubscriberAttributes) (rows : List AttributeMutation)
    (m : AttributeMutation) :
    (s.apply (sent rows)).apply (sent [m]) = s.apply (sent (rows ++ [m])) := by
  apply SubscriberAttributes.ext_values
  funext key
  rw [values_apply_sent, values_apply_sent, values_apply_sent]
  by_cases hproto : key = protoKey
  · simp [hproto]
  · by_cases hkey : m.key = key <;> simp [lastValue, hproto, hkey]

theorem apply_sent_nil (s : SubscriberAttributes) : s.apply (sent []) = s :=
  SubscriberAttributes.ext_values rfl

theorem AllAcceptedInTurn.foldl_sendAlone (h : AllAcceptedInTurn s rows) :
    rows.foldl sendAlone s = s.apply (sent rows) := by
  induction rows using List.reverseRecOn with
  | nil => exact (apply_sent_nil s).symm
  | append_singleton rows m ih =>
    have hrest := ih h.init
    have hlast : Accepts (s.apply (sent rows)) m := by
      rw [← hrest]
      exact h.last
    rw [List.foldl_append, List.foldl_cons, List.foldl_nil, hrest, sendAlone, if_pos hlast,
      apply_sent_snoc]

theorem mem_coalesce {e : String × Option String} (he : e ∈ (coalesce rows).entries) :
    ∃ m ∈ rows, (m.key, m.value) = e := by
  obtain ⟨key, value⟩ := e
  have hget := (Txn.Table.mem_entries _).1 he
  rw [get?_coalesce, lastValue, Option.map_eq_some_iff] at hget
  obtain ⟨m, hfind, rfl⟩ := hget
  have hkey : m.key = key := by simpa using List.find?_some hfind
  exact ⟨m, List.mem_reverse.1 (List.mem_of_find?_eq_some hfind), by rw [hkey]⟩

theorem Accepts.valid (h : Accepts s m) (hkey : m.key ≠ protoKey) :
    entryError (m.key, m.value) = none := by
  have hmem : (m.key, m.value) ∈ (sent [m]).entries := by
    rw [Txn.Table.mem_entries, get?_sent]
    simp [lastValue, hkey]
  exact (validateAttributeInput_eq_nil.1 h).1 _ hmem

theorem AllAcceptedInTurn.accepted (h : AllAcceptedInTurn s rows) (hrows : rows ≠ []) :
    validateAttributeInput (sent rows) s = [] := by
  rw [sent, validateAttributeInput_eq_nil]
  constructor
  · intro e he
    obtain ⟨hmem, hkey⟩ := mem_attributesBody he
    obtain ⟨m, hm, rfl⟩ := mem_coalesce hmem
    obtain ⟨earlier, later, hsplit⟩ := List.append_of_mem hm
    exact (h earlier m later hsplit).valid hkey
  · -- the last mutation was counted with all the others applied
    obtain ⟨rows', m, rfl⟩ := (List.eq_nil_or_concat rows).resolve_left hrows
    rw [List.concat_eq_append] at h ⊢
    have hlast : Accepts (s.apply (sent rows')) m := by
      rw [← h.init.foldl_sendAlone]
      exact h.last
    change (customKeys (s.apply (sent (rows' ++ [m]))).keys).card ≤ customMax
    rw [← apply_sent_snoc]
    exact (validateAttributeInput_eq_nil.1 hlast).2

end Rovenue.Attributes
