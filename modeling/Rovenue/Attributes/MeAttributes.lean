import Rovenue.Sdk.AttributeDrops
import Rovenue.Threads.System

/-! `POST /v1/me/attributes` as its database statements: the middleware reads the
subscriber, the handler merges in process, and the upsert writes the whole map back. -/

namespace Rovenue.Attributes
open Threads
open Sdk (AttributeMutationMap attributesBody get?_attributesBody postAttributes protoKey)
open Txn (Table)

inductive Stage where
  | waiting
  | finding (startedAt : ℕ)
  | creating (startedAt : ℕ)
  | read (startedAt : ℕ) (row : Sdk.SubscriberRow)
  | written (startedAt : ℕ)
  | answered (startedAt answeredAt status : ℕ)
  | failed

structure Request where
  body : AttributeMutationMap
  platform : Option String := none
  stage : Stage := .waiting

/-- The row the subscriber's redirects end at, if there is one; every step takes a time of
its own. -/
structure Store where
  row : Option Sdk.SubscriberRow
  time : ℕ := 0

def Store.stored (s : Store) (key : String) : Option String :=
  s.row.bind fun row => row.attributes.values key

def Store.tick (s : Store) : Store := { s with time := s.time + 1 }

def Request.go (t : Request) (stage : Stage) : Request := { t with stage := stage }

def createAttributes (platform : Option String) : SubscriberAttributes :=
  -- `applyMutations({}, { platform })`, for a subscriber that is new
  match platform with
  | none => .empty
  | some p => SubscriberAttributes.empty.apply (Table.empty.set "platform" (some p))

def upsertAttributes (row : Option Sdk.SubscriberRow) (merged : SubscriberAttributes) :
    Sdk.SubscriberRow :=
  { row.getD ⟨merged, false⟩ with attributes := merged }

def postMeAttributes (s : Store) (t : Request) (fault : Bool) : Store × Request :=
  match t.stage, fault with
  | .waiting, false =>
    match s.row.filter fun row => !row.deadEnded with
    | some row => (s.tick, t.go (.read (s.time + 1) row))
    | none => (s.tick, t.go (.finding (s.time + 1)))
  | .finding startedAt, false =>
    -- the resolution found nothing live, so what is found now counts as dead-ended
    match s.row with
    | some row => (s.tick, t.go (.read startedAt { row with deadEnded := true }))
    | none => (s.tick, t.go (.creating startedAt))
  | .creating startedAt, false =>
    let row := s.row.getD ⟨createAttributes t.platform, false⟩
    ({ s.tick with row := some row }, t.go (.read startedAt { row with deadEnded := false }))
  | .read startedAt row, false =>
    match postAttributes row t.body with
    | .error _ => (s.tick, t.go (.answered startedAt (s.time + 1) 400))
    | .ok merged =>
      if row.deadEnded then (s.tick, t.go (.answered startedAt (s.time + 1) 200))
      else ({ s.tick with row := some (upsertAttributes s.row merged.attributes) },
        t.go (.written startedAt))
  | .written startedAt, false => (s.tick, t.go (.answered startedAt (s.time + 1) 200))
  -- after the upsert an error keeps the answer from the client, not the map from the row
  | .written _, true | .answered .., _ | .failed, _ => (s.tick, t)
  | _, true => (s.tick, t.go .failed)

def meAttributes : System Store Request Bool Empty where
  step := postMeAttributes
  env s _ := s
  reset t _ := t

def Request.Names (t : Request) (key : String) : Prop := (t.body.get? key).isSome

def Request.effect (t : Request) (key : String) : Option String := (t.body.get? key).join

def Stage.Acknowledged : Stage → Prop
  | .answered _ _ status => status = 200
  | _ => False

instance : DecidablePred Stage.Acknowledged
  | .answered _ _ status => inferInstanceAs (Decidable (status = 200))
  | .waiting | .finding _ | .creating _ | .read .. | .written _ | .failed => .isFalse id

def Stage.Made : Stage → Prop
  | .written _ => True
  | stage => stage.Acknowledged

def Stage.startedAt : Stage → Option ℕ
  | .waiting | .failed => none
  | .finding a | .creating a | .read a _ | .written a | .answered a _ _ => some a

def Stage.answeredAt : Stage → Option ℕ
  | .answered _ b _ => some b
  | _ => none

def Follows (j i : Request) : Prop :=
  ∃ a ∈ j.stage.startedAt, ∃ b ∈ i.stage.answeredAt, b < a

variable {ι : Type}

/-- A key that acknowledged requests name has the effect of a request that none of them
followed entirely. -/
def NotLost (w : World ι Store Request) : Prop :=
  ∀ key, (∃ i, (w.task i).stage.Acknowledged ∧ (w.task i).Names key) →
    ∃ i, (w.task i).stage.Made ∧ (w.task i).Names key ∧ w.shared.stored key = (w.task i).effect key ∧
      ∀ j, (w.task j).stage.Acknowledged → (w.task j).Names key → ¬Follows (w.task j) (w.task i)

def Capped (s : Store) : Prop :=
  ∀ row ∈ s.row, (customKeys row.attributes.keys).card ≤ customMax

/-- The request finds no subscriber at its second look either; it gives `__proto__` no value, and its
upsert finds every key that it does not name as it read it. -/
def FindsAsRead (w : World ι Store Request) : Event ι Bool Empty → Prop
  | .act i false =>
    match (w.task i).stage with
    | .finding _ => w.shared.row = none
    | .read _ row => ∀ merged, postAttributes row (w.task i).body = .ok merged →
      (∀ value, (w.task i).body.get? protoKey ≠ some (some value)) ∧
        ∀ key, (w.task i).body.get? key = none →
          w.shared.stored key = row.attributes.values key
    | _ => True
  | _ => True

theorem postAttributes_ok {row merged : Sdk.SubscriberRow} {body : AttributeMutationMap}
    (h : postAttributes row body = .ok merged) (hlive : row.deadEnded = false) :
    merged.attributes = row.attributes.apply (attributesBody body) ∧
      (customKeys merged.attributes.keys).card ≤ customMax := by
  unfold postAttributes at h
  by_cases herrors : validateAttributeInput (attributesBody body) row.attributes = []
  · simp only [herrors, ne_eq, not_true_eq_false, if_false, hlive, Bool.false_eq_true,
      Except.ok.injEq] at h
    subst h
    exact ⟨rfl, (validateAttributeInput_eq_nil.1 herrors).2⟩
  · simp [herrors] at h

theorem createAttributes_card (platform : Option String) :
    (customKeys (createAttributes platform).keys).card ≤ customMax := by
  have hsub : (createAttributes platform).keys ⊆ {"platform"} := by
    intro key hkey
    rcases platform with _ | p
    · simp [createAttributes, SubscriberAttributes.empty] at hkey
    · simp only [createAttributes, SubscriberAttributes.apply, SubscriberAttributes.empty,
        Finset.empty_union, Finset.mem_filter, List.mem_toFinset] at hkey
      obtain ⟨e, he, rfl⟩ := List.mem_map.1 hkey.1
      have hget := (Table.mem_entries _).1 (show (e.1, e.2) ∈ _ from he)
      rw [Table.get?_set] at hget
      split_ifs at hget with hplatform
      · simp [hplatform]
      · simp at hget
  have hcustom : customKeys (createAttributes platform).keys ⊆ {"platform"} :=
    (Finset.filter_subset _ _).trans hsub
  have hcard := Finset.card_le_card hcustom
  have hone : customMax = 50 := rfl
  rw [Finset.card_singleton] at hcard
  exact hcard.trans (by omega)

theorem capped_next [DecidableEq ι] (w : World ι Store Request) (e : Event ι Bool Empty)
    (h : Capped w.shared) : Capped (meAttributes.next w e).shared := by
  rcases e with ⟨i, fault⟩ | d
  · -- only the creation and the upsert touch the row
    simp only [System.next, meAttributes, postMeAttributes]
    split
    · split <;> exact h
    · split <;> exact h
    · intro row hrow
      obtain rfl := Option.some.inj hrow
      rcases hold : w.shared.row with _ | old
      · exact createAttributes_card _
      · exact h old hold
    · split
      · exact h
      · split_ifs with hdead
        · exact h
        · next merged hok =>
          intro row hrow
          obtain rfl := Option.some.inj hrow
          exact (postAttributes_ok hok (by simpa using hdead)).2
    all_goals exact h
  · exact d.elim

structure Attributed (w : World ι Store Request) : Prop where
  started : ∀ i, ∀ a ∈ (w.task i).stage.startedAt, a ≤ w.shared.time
  live : ∀ row ∈ w.shared.row, row.deadEnded = false
  readLive : ∀ i a row, (w.task i).stage = .read a row → row.deadEnded = false
  there : ∀ i, (w.task i).stage.Made → w.shared.row.isSome
  kept : ∀ key, (∃ i, (w.task i).stage.Made ∧ (w.task i).Names key) →
    ∃ i, (w.task i).stage.Made ∧ (w.task i).Names key ∧ w.shared.stored key = (w.task i).effect key ∧
      ∀ j, (w.task j).stage.Made → (w.task j).Names key → ¬Follows (w.task j) (w.task i)

section Step
variable [DecidableEq ι] {w : World ι Store Request} {i : ι} {s' : Store} {stage : Stage}

theorem Attributed.quiet (h : Attributed w) (stage : Stage) (htime : s'.time = w.shared.time + 1)
    (hstored : (∃ i, (w.task i).stage.Made) → ∀ key, s'.stored key = w.shared.stored key)
    (hlive : ∀ row ∈ s'.row, row.deadEnded = false)
    (hthere : w.shared.row.isSome → s'.row.isSome)
    (hstarted : ∀ a ∈ stage.startedAt, a ≤ w.shared.time + 1)
    (hread : ∀ a row, stage = .read a row → row.deadEnded = false)
    (hmade : stage.Made ↔ (w.task i).stage.Made)
    (hsame : (w.task i).stage.Made → stage.startedAt = (w.task i).stage.startedAt)
    (hanswered : (w.task i).stage.Made → ∀ b ∈ stage.answeredAt,
      b ∈ (w.task i).stage.answeredAt ∨ b = w.shared.time + 1) :
    Attributed ⟨s', Function.update w.task i ((w.task i).go stage)⟩ := by
  generalize hw' : (⟨s', Function.update w.task i ((w.task i).go stage)⟩ : World ι Store Request) = w'
  have hshared : w'.shared = s' := by rw [← hw']
  have hself : w'.task i = (w.task i).go stage := by simp [← hw']
  have hother : ∀ j, j ≠ i → w'.task j = w.task j := fun j hj => by simp [← hw', hj]
  have htask : ∀ j, (w'.task j).stage.Made ↔ (w.task j).stage.Made := by
    intro j
    by_cases hj : j = i
    · rw [hj, hself]
      exact hmade
    · rw [hother j hj]
  have hbody : ∀ j, (w'.task j).body = (w.task j).body := by
    intro j
    by_cases hj : j = i
    · rw [hj, hself]
      rfl
    · rw [hother j hj]
  have hstart : ∀ j, (w.task j).stage.Made →
      (w'.task j).stage.startedAt = (w.task j).stage.startedAt := by
    intro j hj
    by_cases hji : j = i
    · subst hji
      rw [hself]
      exact hsame hj
    · rw [hother j hji]
  have hanswer : ∀ j, (w.task j).stage.Made → ∀ b ∈ (w'.task j).stage.answeredAt,
      b ∈ (w.task j).stage.answeredAt ∨ b = w.shared.time + 1 := by
    intro j hj b hb
    by_cases hji : j = i
    · subst hji
      rw [hself] at hb
      exact hanswered hj b hb
    · rw [hother j hji] at hb
      exact .inl hb
  constructor
  · intro j a ha
    rw [hshared, htime]
    by_cases hj : j = i
    · rw [hj, hself] at ha
      exact hstarted a ha
    · rw [hother j hj] at ha
      exact (h.started j a ha).trans (Nat.le_succ _)
  · rw [hshared]
    exact hlive
  · intro j a row hrow
    by_cases hj : j = i
    · rw [hj, hself] at hrow
      exact hread a row hrow
    · rw [hother j hj] at hrow
      exact h.readLive j a row hrow
  · rw [hshared]
    exact fun j hj => hthere (h.there j ((htask j).1 hj))
  · rintro key ⟨j, hj, hnames⟩
    have hmadeBefore := (htask j).1 hj
    rw [Request.Names, hbody] at hnames
    obtain ⟨k, hk, hkey, heffect, hlast⟩ := h.kept key ⟨j, hmadeBefore, hnames⟩
    refine ⟨k, (htask k).2 hk, by rwa [Request.Names, hbody], ?_, ?_⟩
    · rw [Request.effect, hbody, hshared]
      exact (hstored ⟨k, hk⟩ key).trans heffect
    · rintro m hm hmkey ⟨a, ha, b, hb, hlt⟩
      have hm' := (htask m).1 hm
      rw [Request.Names, hbody] at hmkey
      rw [hstart m hm'] at ha
      rcases hanswer k hk b hb with hb | rfl
      · exact hlast m hm' hmkey ⟨a, ha, b, hb, hlt⟩
      · -- whoever has begun began before this answer
        have hbegan := h.started m a ha
        omega

theorem values_apply_body (attributes : SubscriberAttributes) {body : AttributeMutationMap}
    (hproto : ∀ value, body.get? protoKey ≠ some (some value)) (key : String) :
    (attributes.apply (attributesBody body)).values key =
      (body.get? key).getD (attributes.values key) := by
  rw [SubscriberAttributes.values_apply_attributesBody, get?_attributesBody]
  split_ifs with hkey
  · subst hkey
    rcases hbody : body.get? protoKey with _ | _ | value
    · rfl
    · exact attributes.noProto
    · exact absurd hbody (hproto value)
  · rfl

theorem Attributed.upsert (h : Attributed w) {startedAt : ℕ} {row : Sdk.SubscriberRow}
    {merged : SubscriberAttributes} (hstage : (w.task i).stage = .read startedAt row)
    (hmerged : merged = row.attributes.apply (attributesBody (w.task i).body))
    (hproto : ∀ value, (w.task i).body.get? protoKey ≠ some (some value))
    (hasRead : ∀ key, (w.task i).body.get? key = none →
      w.shared.stored key = row.attributes.values key) :
    Attributed ⟨{ w.shared.tick with row := some (upsertAttributes w.shared.row merged) },
      Function.update w.task i ((w.task i).go (.written startedAt))⟩ := by
  have hnot : ¬(w.task i).stage.Made := by
    rw [hstage]
    exact id
  have hlive : ∀ row ∈ some (upsertAttributes w.shared.row merged), row.deadEnded = false := by
    intro row' hrow'
    obtain rfl := Option.some.inj hrow'
    rcases hold : w.shared.row with _ | old
    · rfl
    · exact h.live old hold
  generalize hw' : (⟨{ w.shared.tick with row := some (upsertAttributes w.shared.row merged) },
    Function.update w.task i ((w.task i).go (.written startedAt))⟩ : World ι Store Request) = w'
  have hrow' : w'.shared.row = some (upsertAttributes w.shared.row merged) := by rw [← hw']
  have hstored : ∀ key, w'.shared.stored key =
      ((w.task i).body.get? key).getD (row.attributes.values key) := by
    intro key
    rw [← values_apply_body row.attributes hproto key, ← hmerged, Store.stored, hrow']
    rfl
  have htime : w'.shared.time = w.shared.time + 1 := by rw [← hw']; rfl
  have hself : w'.task i = (w.task i).go (.written startedAt) := by simp [← hw']
  have hother : ∀ j, j ≠ i → w'.task j = w.task j := fun j hj => by simp [← hw', hj]
  constructor
  · intro j a ha
    rw [htime]
    by_cases hj : j = i
    · rw [hj, hself] at ha
      have hread : a ∈ (w.task i).stage.startedAt := by
        rw [hstage]
        exact ha
      exact (h.started i a hread).trans (Nat.le_succ _)
    · rw [hother j hj] at ha
      exact (h.started j a ha).trans (Nat.le_succ _)
  · rw [hrow']
    exact hlive
  · intro j a row' hread
    by_cases hj : j = i
    · rw [hj, hself] at hread
      cases hread
    · rw [hother j hj] at hread
      exact h.readLive j a row' hread
  · rw [hrow']
    exact fun _ _ => rfl
  · rintro key ⟨j, hj, hnames⟩
    by_cases hnamed : (w.task i).Names key
    · -- the request itself, which nobody can have followed yet
      refine ⟨i, by rw [hself]; trivial, by rwa [hself], ?_, ?_⟩
      · obtain ⟨value, hvalue⟩ := Option.isSome_iff_exists.1 hnamed
        rw [hstored, hself]
        simp [Request.effect, Request.go, hvalue]
      · rintro m hm hmkey ⟨a, ha, b, hb, -⟩
        rw [hself] at hb
        cases hb
    · have hunnamed : (w.task i).body.get? key = none := by
        simpa [Request.Names] using hnamed
      have hnot' : ∀ m, (w'.task m).Names key → m ≠ i := by
        rintro m hm rfl
        rw [hself] at hm
        exact hnamed hm
      have hji := hnot' j hnames
      rw [hother j hji] at hj hnames
      obtain ⟨k, hk, hkey, heffect, hlast⟩ := h.kept key ⟨j, hj, hnames⟩
      have hki : k ≠ i := by
        rintro rfl
        exact hnot hk
      rw [← hother k hki] at hk hkey heffect
      refine ⟨k, hk, hkey, ?_, fun m hm hmkey => ?_⟩
      · rw [hstored, hunnamed, ← heffect]
        exact (hasRead key hunnamed).symm
      · have hmi := hnot' m hmkey
        rw [hother m hmi] at hm hmkey ⊢
        rw [hother k hki]
        exact hlast m hm hmkey

end Step

section Run
variable [DecidableEq ι] {w : World ι Store Request}

theorem Stage.Acknowledged.made {stage : Stage} (h : stage.Acknowledged) : stage.Made := by
  cases stage with
  | answered a b status => exact h
  | _ => exact h.elim

theorem Attributed.stay (h : Attributed w) {i : ι} (stage : Stage)
    (hstarted : ∀ a ∈ stage.startedAt, a ∈ (w.task i).stage.startedAt ∨ a = w.shared.time + 1)
    (hread : ∀ a row, stage = .read a row → row.deadEnded = false)
    (hnew : ¬stage.Made) (hold : ¬(w.task i).stage.Made) :
    Attributed ⟨w.shared.tick, Function.update w.task i ((w.task i).go stage)⟩ := by
  have hbegan : ∀ a ∈ stage.startedAt, a ≤ w.shared.time + 1 := by
    intro a ha
    rcases hstarted a ha with hbefore | rfl
    · exact (h.started i a hbefore).trans (Nat.le_succ _)
    · exact le_rfl
  exact h.quiet stage rfl (fun _ _ => rfl) h.live id hbegan hread (iff_of_false hnew hold)
    (fun hm => absurd hm hold) (fun hm => absurd hm hold)

theorem Attributed.idle (h : Attributed w) {i : ι}
    (hread : ∀ a row, (w.task i).stage ≠ .read a row) :
    Attributed ⟨w.shared.tick, Function.update w.task i (w.task i)⟩ := by
  have hbegan : ∀ a ∈ (w.task i).stage.startedAt, a ≤ w.shared.time + 1 :=
    fun a ha => (h.started i a ha).trans (Nat.le_succ _)
  exact h.quiet (w.task i).stage rfl (fun _ _ => rfl) h.live id hbegan
    (fun a row heq => absurd heq (hread a row)) Iff.rfl (fun _ => rfl) (fun _ b hb => .inl hb)

section Stages
variable {i : ι} {startedAt : ℕ} {row : Sdk.SubscriberRow}

theorem Attributed.fails (h : Attributed w) (hold : ¬(w.task i).stage.Made) :
    Attributed ⟨w.shared.tick, Function.update w.task i ((w.task i).go .failed)⟩ :=
  h.stay .failed (by simp [Stage.startedAt]) (by simp) id hold

theorem Attributed.waiting (h : Attributed w) (hstage : (w.task i).stage = .waiting)
    (fault : Bool) : Attributed (meAttributes.next w (.act i fault)) := by
  have hold : ¬(w.task i).stage.Made := by
    rw [hstage]
    exact id
  simp only [System.next, meAttributes]
  cases fault with
  | true =>
    simp only [postMeAttributes, hstage]
    exact h.fails hold
  | false =>
    simp only [postMeAttributes, hstage]
    rcases hrow : w.shared.row.filter fun row => !row.deadEnded with _ | row
    · simp only [hrow]
      exact h.stay (.finding _) (fun a ha => .inr (Option.some.inj ha).symm) (by simp) id hold
    · have hlive : row.deadEnded = false := by simpa using (Option.filter_eq_some_iff.1 hrow).2
      simp only [hrow]
      exact h.stay (.read _ row) (fun a ha => .inr (Option.some.inj ha).symm)
        (fun a row' heq => (Stage.read.inj heq).2 ▸ hlive) id hold

theorem Attributed.finding (h : Attributed w) (hstage : (w.task i).stage = .finding startedAt)
    (fault : Bool) (hcond : FindsAsRead w (.act i fault)) :
    Attributed (meAttributes.next w (.act i fault)) := by
  have hold : ¬(w.task i).stage.Made := by
    rw [hstage]
    exact id
  simp only [System.next, meAttributes]
  cases fault with
  | true =>
    simp only [postMeAttributes, hstage]
    exact h.fails hold
  | false =>
    have hnone : w.shared.row = none := by simpa [FindsAsRead, hstage] using hcond
    simp only [postMeAttributes, hstage, hnone]
    exact h.stay (.creating startedAt) (fun a ha => .inl (by rw [hstage]; exact ha)) (by simp) id
      hold

theorem Attributed.creating (h : Attributed w) (hstage : (w.task i).stage = .creating startedAt)
    (fault : Bool) : Attributed (meAttributes.next w (.act i fault)) := by
  have hold : ¬(w.task i).stage.Made := by
    rw [hstage]
    exact id
  simp only [System.next, meAttributes]
  cases fault with
  | true =>
    simp only [postMeAttributes, hstage]
    exact h.fails hold
  | false =>
    simp only [postMeAttributes, hstage]
    set row := w.shared.row.getD ⟨createAttributes (w.task i).platform, false⟩ with hrow
    have hbegan : ∀ a ∈ (Stage.read startedAt { row with deadEnded := false }).startedAt,
        a ≤ w.shared.time + 1 := by
      intro a ha
      have hbefore : a ∈ (w.task i).stage.startedAt := by
        rw [hstage]
        exact ha
      exact (h.started i a hbefore).trans (Nat.le_succ _)
    refine h.quiet (.read startedAt _) rfl ?_ ?_ (fun _ => rfl) hbegan ?_ (iff_of_false id hold)
      (fun hm => absurd hm hold) (fun hm => absurd hm hold)
    · -- while there is no row, nothing has been stored
      rintro ⟨j, hj⟩ key
      obtain ⟨old, hsome⟩ := Option.isSome_iff_exists.1 (h.there j hj)
      simp [Store.stored, hrow, hsome]
    · intro row' hrow'
      obtain rfl := Option.some.inj hrow'
      rcases hsome : w.shared.row with _ | old
      · simp [hrow, hsome]
      · simpa [hrow, hsome] using h.live old hsome
    · rintro a row' heq
      obtain ⟨-, rfl⟩ := Stage.read.inj heq
      rfl

theorem Attributed.read (h : Attributed w) (hstage : (w.task i).stage = .read startedAt row)
    (fault : Bool) (hcond : FindsAsRead w (.act i fault)) :
    Attributed (meAttributes.next w (.act i fault)) := by
  have hold : ¬(w.task i).stage.Made := by
    rw [hstage]
    exact id
  have hlive := h.readLive i startedAt row hstage
  simp only [System.next, meAttributes]
  cases fault with
  | true =>
    simp only [postMeAttributes, hstage]
    exact h.fails hold
  | false =>
    simp only [postMeAttributes, hstage]
    rcases hpost : postAttributes row (w.task i).body with msg | merged
    · refine h.stay (.answered startedAt _ 400) (fun a ha => .inl ?_) (by simp) ?_ hold
      · rw [hstage]
        exact ha
      · simp [Stage.Made, Stage.Acknowledged]
    · simp only [hlive, Bool.false_eq_true, if_false]
      simp only [FindsAsRead, hstage] at hcond
      obtain ⟨hproto, hasRead⟩ := hcond merged hpost
      exact h.upsert hstage (postAttributes_ok hpost hlive).1 hproto hasRead

theorem Attributed.written (h : Attributed w) (hstage : (w.task i).stage = .written startedAt)
    (fault : Bool) : Attributed (meAttributes.next w (.act i fault)) := by
  simp only [System.next, meAttributes]
  cases fault with
  | true =>
    simp only [postMeAttributes, hstage]
    exact h.idle (by simp [hstage])
  | false =>
    simp only [postMeAttributes, hstage]
    have hbegan : ∀ a ∈ (w.task i).stage.startedAt, a ≤ w.shared.time + 1 :=
      fun a ha => (h.started i a ha).trans (Nat.le_succ _)
    rw [hstage] at hbegan
    refine h.quiet (.answered startedAt _ 200) rfl (fun _ _ => rfl) h.live id hbegan
      (by simp) ?_ ?_ ?_
    · rw [hstage]
      exact iff_of_true rfl trivial
    · rw [hstage]
      exact fun _ => rfl
    · exact fun _ b hb => .inr (Option.some.inj hb).symm

end Stages

theorem Attributed.next {e : Event ι Bool Empty} (h : Attributed w) (hcond : FindsAsRead w e) :
    Attributed (meAttributes.next w e) := by
  rcases e with ⟨i, fault⟩ | d
  swap
  · exact d.elim
  rcases hstage : (w.task i).stage with _ | startedAt | startedAt | ⟨startedAt, row⟩ | startedAt |
    ⟨startedAt, answeredAt, status⟩ | _
  · exact h.waiting hstage fault
  · exact h.finding hstage fault hcond
  · exact h.creating hstage fault
  · exact h.read hstage fault hcond
  · exact h.written hstage fault
  · simp only [System.next, meAttributes, postMeAttributes, hstage]
    exact h.idle (by simp [hstage])
  · simp only [System.next, meAttributes, postMeAttributes, hstage]
    exact h.idle (by simp [hstage])

variable {evs : List (Event ι Bool Empty)}

/-- The cap holds whatever the overlap. No update is lost where the requests find what they
leave alone as they read it. -/
theorem updates_kept_of_findsAsRead (hwaiting : ∀ i, (w.task i).stage = .waiting)
    (hlive : ∀ row ∈ w.shared.row, row.deadEnded = false) (hcap : Capped w.shared) :
    (∀ v ∈ meAttributes.visited w evs, Capped v.shared) ∧
      ((∀ x ∈ meAttributes.transitions w evs, FindsAsRead x.1 x.2) →
        ∀ v ∈ meAttributes.visited w evs, NotLost v) := by
  constructor
  · exact System.visited_invariant capped_next hcap
  · intro hcond v hv
    have hinit : Attributed w := by
      constructor
      · intro i a ha
        rw [hwaiting] at ha
        cases ha
      · exact hlive
      · intro i a row hread
        rw [hwaiting] at hread
        cases hread
      · intro i hmade
        rw [hwaiting] at hmade
        exact hmade.elim
      · rintro key ⟨i, hmade, -⟩
        rw [hwaiting] at hmade
        exact hmade.elim
    have hv' := System.visited_induct (fun w e h hc => Attributed.next h hc) hinit hcond v hv
    rintro key ⟨i, hi, hkey⟩
    obtain ⟨k, hk, hkkey, heffect, hlast⟩ := hv'.kept key ⟨i, hi.made, hkey⟩
    exact ⟨k, hk, hkkey, heffect, fun j hj => hlast j hj.made⟩

end Run

def settingAandB : World Bool Store Request where
  -- one request sets `a`, the other `b`, on a subscriber without attributes
  shared := { row := some ⟨.empty, false⟩ }
  task
    | false => { body := Table.empty.set "a" (some "1") }
    | true => { body := Table.empty.set "b" (some "2") }

def bothRead : List (Event Bool Bool Empty) :=
  [.act false false, .act true false, .act false false, .act true false, .act false false,
    .act true false]

def oneAlone : List (Event Bool Bool Empty) :=
  [.act false false, .act false false, .act false false]

theorem acknowledged_set_is_lost :
    ¬∀ v ∈ meAttributes.visited settingAandB bothRead, NotLost v := by
  intro hall
  have hack : ((meAttributes.runAll settingAandB bothRead).task false).stage.Acknowledged := by
    decide
  have hnames : (((meAttributes.runAll settingAandB bothRead).task false).body.get? "a").isSome := by
    decide
  have hgone : (meAttributes.runAll settingAandB bothRead).shared.stored "a" = none := by
    decide
  have hbodies : ∀ i, (((meAttributes.runAll settingAandB bothRead).task i).body.get? "a").isSome →
      ((meAttributes.runAll settingAandB bothRead).task i).effect "a" = some "1" := by
    decide
  obtain ⟨i, -, hi, heffect, -⟩ := hall _ System.last_mem_visited "a"
    ⟨false, hack, hnames⟩
  rw [hgone, hbodies i hi] at heffect
  cases heffect

theorem updates_kept_of_findsAsRead_alone :
    Capped settingAandB.shared ∧ ∀ v ∈ meAttributes.visited settingAandB oneAlone, NotLost v := by
  have hwaiting : ∀ i, (settingAandB.task i).stage = .waiting := by
    intro i
    cases i <;> rfl
  have hlive : ∀ row ∈ settingAandB.shared.row, row.deadEnded = false := by
    rintro row hrow
    obtain rfl := Option.some.inj hrow
    rfl
  have hcap : Capped settingAandB.shared := by
    rintro row hrow
    obtain rfl := Option.some.inj hrow
    exact Nat.zero_le _
  refine ⟨hcap, (updates_kept_of_findsAsRead hwaiting hlive hcap).2 fun x hx => ?_⟩
  simp only [oneAlone, System.transitions, List.mem_cons, List.not_mem_nil, or_false] at hx
  rcases hx with rfl | rfl | rfl
  · trivial
  · have hproto : ((meAttributes.next settingAandB (.act false false)).task false).body.get?
        protoKey = none := by decide
    exact fun _ _ => ⟨fun value hset => by simp [hproto] at hset, fun _ _ => rfl⟩
  · trivial

end Rovenue.Attributes
