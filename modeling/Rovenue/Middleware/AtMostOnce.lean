import Rovenue.Threads.System

/-! Requests under an `Idempotency-Key`: a look-up of the stored response, the handler, and the
store of its response, with other requests between them. -/

namespace Rovenue.Middleware
open Threads

def keyMaxLength : ℕ := 255

structure Request where
  -- the authenticated project
  project : Option String
  method : String
  path : String
  rawBody : String
  -- the header as sent
  header : Option String
  deriving DecidableEq

def Request.idempotencyKey (r : Request) : Option String := r.header.filter (· ≠ "")

def Request.redisKey (r : Request) (idempotencyKey : String) : String :=
  "idempotency:" ++ r.project.getD "anon" ++ ":" ++ idempotencyKey

def Request.storeKey (r : Request) : Option String :=
  (r.idempotencyKey.filter fun key => key.length ≤ keyMaxLength).map r.redisKey

def Request.SameOperation (a b : Request) : Prop :=
  a.method = b.method ∧ a.path = b.path ∧ a.rawBody = b.rawBody

instance (a b : Request) : Decidable (a.SameOperation b) := inferInstanceAs (Decidable (_ ∧ _))

structure Response where
  status : ℕ
  body : String
  contentType : Option String
  deriving DecidableEq

def Response.ok (r : Response) : Bool := 200 ≤ r.status && r.status < 300

/-- The payload as stored; its `v` is 1 in every payload written. -/
structure StoredResponse where
  status : ℕ
  body : String
  requestHash : String
  contentType : Option String
  deriving DecidableEq

def StoredResponse.response (stored : StoredResponse) : Response :=
  ⟨stored.status, stored.body, stored.contentType⟩

def keyTooLong : String := "Idempotency-Key must be ≤ 255 chars"

def differentBody : String := "Idempotency-Key has been used with a different request body"

inductive Answer where
  -- by its own handler
  | handled (response : Response)
  -- from the store, with the replay header
  | replayed (response : Response)
  -- an `HTTPException`
  | rejected (status : ℕ) (message : String)
  deriving DecidableEq

inductive Stage where
  | arrived
  -- in `next()`; with a key, its look-up found nothing
  | handling
  -- its handler has answered 2xx, and `redis.set` is next
  | storing (payload : StoredResponse)
  | answered (answer : Answer)
  deriving DecidableEq

structure Task where
  request : Request
  stage : Stage
  deriving DecidableEq

structure Lookup where
  request : Request
  origin : Request
  answer : Answer
  deriving DecidableEq

/-- Redis; the rest is not in it: who stored a response, which handlers completed with a 2xx,
and which look-ups found something. -/
structure Store where
  redis : String → Option StoredResponse := fun _ => none
  origin : String → Option Request := fun _ => none
  completed : List (String × Request × Response) := []
  lookups : List (String × Lookup) := []

def replay (hashBody : String → String) (r : Request) (stored : StoredResponse) : Answer :=
  if stored.requestHash ≠ hashBody r.rawBody then .rejected 422 differentBody
  else .replayed stored.response

def Store.record (s : Store) (key : String) (lookup : Lookup) : Store :=
  { s with lookups := s.lookups ++ [(key, lookup)] }

def lookUp (hashBody : String → String) (s : Store) (r : Request) : Store × Stage :=
  match r.idempotencyKey with
  | none => (s, .handling)
  | some idempotencyKey =>
    if keyMaxLength < idempotencyKey.length then (s, .answered (.rejected 400 keyTooLong))
    else
      match s.redis (r.redisKey idempotencyKey) with
      | none => (s, .handling)
      | some stored =>
        let answer := replay hashBody r stored
        (s.record (r.redisKey idempotencyKey)
          ⟨r, (s.origin (r.redisKey idempotencyKey)).getD r, answer⟩, .answered answer)

def payloadOf (hashBody : String → String) (r : Request) (response : Response) : StoredResponse where
  status := response.status
  body := response.body
  requestHash := hashBody r.rawBody
  contentType := response.contentType

def complete (hashBody : String → String) (s : Store) (r : Request) (response : Response) :
    Store × Stage :=
  match r.storeKey with
  | none => (s, .answered (.handled response))
  | some key =>
    if response.ok then
      ({ s with completed := s.completed ++ [(key, r, response)] },
        .storing (payloadOf hashBody r response))
    else (s, .answered (.handled response))

def save (s : Store) (r : Request) (payload : StoredResponse) : Store × Stage :=
  match r.storeKey with
  | none => (s, .answered (.handled payload.response))
  | some key =>
    ({ s with
        redis := Function.update s.redis key (some payload)
        origin := Function.update s.origin key (some r) },
      .answered (.handled payload.response))

def advance (hashBody : String → String) (s : Store) (t : Task) (response : Response) :
    Store × Stage :=
  match t.stage with
  | .arrived => lookUp hashBody s t.request
  | .handling => complete hashBody s t.request response
  | .storing payload => save s t.request payload
  | .answered answer => (s, .answered answer)

def idempotency (hashBody : String → String) : System Store Task Response Empty where
  step s t response :=
    ((advance hashBody s t response).1, { t with stage := (advance hashBody s t response).2 })
  env _ d := nomatch d
  reset _ d := nomatch d

def arrivals {ι : Type} (requests : ι → Request) : World ι Store Task :=
  ⟨{}, fun i => ⟨requests i, .arrived⟩⟩

/-- The handler completes with a 2xx at most once for a key. -/
def AtMostOnce (s : Store) : Prop :=
  ∀ key, (s.completed.filter fun e => e.1 = key).length ≤ 1

/-- A request that finds a response is answered with it if it is the same operation as the
request whose handler gave it, and is rejected otherwise. -/
def FaithfulReplay (s : Store) : Prop :=
  ∀ key lookup, (key, lookup) ∈ s.lookups →
    (lookup.request.SameOperation lookup.origin ∧
      ∃ response, lookup.answer = .replayed response ∧
        (key, lookup.origin, response) ∈ s.completed) ∨
    (¬lookup.request.SameOperation lookup.origin ∧
      lookup.answer = .rejected 422 differentBody)

def Stage.underWay : Stage → Bool
  | .handling => true
  | .storing _ => true
  | _ => false

/-- A look-up that finds nothing finds no other request of its key under way. -/
def Serial {ι : Type} (w : World ι Store Task) : Event ι Response Empty → Prop
  | .act i _ => (w.task i).stage = .arrived → ∀ key, (w.task i).request.storeKey = some key →
      w.shared.redis key = none → ∀ j ≠ i, (w.task j).request.storeKey = some key →
        (w.task j).stage.underWay = false
  | .env _ => True

/-- Requests under one key whose bodies hash alike are one operation. -/
def OneOperationPerHash {ι : Type} (hashBody : String → String) (requests : ι → Request) : Prop :=
  ∀ i j key, (requests i).storeKey = some key → (requests j).storeKey = some key →
    hashBody (requests i).rawBody = hashBody (requests j).rawBody →
    (requests i).SameOperation (requests j)

end Rovenue.Middleware

/-! Between the look-up and the store of a request there is nothing but the request: two of one
key that overlap there both run, and the stored hash knows the body only. -/

namespace Rovenue.Middleware
open Threads

variable {ι : Type}

structure Serialized (hashBody : String → String) (requests : ι → Request) (s : Store)
    (stages : ι → Stage) : Prop where
  alone : ∀ i j key, i ≠ j → (requests i).storeKey = some key → (requests j).storeKey = some key →
    (stages i).underWay = true → (stages j).underWay = false
  unstored : ∀ i key, (requests i).storeKey = some key → (stages i).underWay = true →
    s.redis key = none
  handling : ∀ i key, (requests i).storeKey = some key → stages i = .handling →
    ∀ e ∈ s.completed, e.1 ≠ key
  storing : ∀ i key payload, (requests i).storeKey = some key → stages i = .storing payload →
    ∃ response, payload = payloadOf hashBody (requests i) response ∧
      (key, requests i, response) ∈ s.completed
  settled : ∀ e ∈ s.completed, s.redis e.1 ≠ none ∨
    ∃ i payload, (requests i).storeKey = some e.1 ∧ stages i = .storing payload
  stored : ∀ key stored, s.redis key = some stored → ∃ i response,
    (requests i).storeKey = some key ∧ s.origin key = some (requests i) ∧
      stored = payloadOf hashBody (requests i) response ∧
      (key, requests i, response) ∈ s.completed
  once : AtMostOnce s
  faithful : FaithfulReplay s

theorem storeKey_eq_some {r : Request} {idempotencyKey : String}
    (h : r.idempotencyKey = some idempotencyKey) (hlen : ¬keyMaxLength < idempotencyKey.length) :
    r.storeKey = some (r.redisKey idempotencyKey) := by
  have hle : idempotencyKey.length ≤ keyMaxLength := not_lt.1 hlen
  rw [Request.storeKey, h, Option.filter_some, if_pos (decide_eq_true hle), Option.map_some]

section Steps
variable [DecidableEq ι] {hashBody : String → String} {requests : ι → Request} {s : Store}
  {stages : ι → Stage} {i : ι}

theorem underWay_update {st : Stage} (hst : st.underWay = false) {j : ι}
    (h : (Function.update stages i st j).underWay = true) :
    j ≠ i ∧ (stages j).underWay = true := by
  by_cases hj : j = i
  · subst hj
    rw [Function.update_self, hst] at h
    cases h
  · rw [Function.update_of_ne hj] at h
    exact ⟨hj, h⟩

theorem stage_of_update {answer : Answer} {j : ι} {st : Stage}
    (h : Function.update stages i (.answered answer) j = st) (hst : st.underWay = true) :
    j ≠ i ∧ stages j = st := by
  have hway : (Function.update stages i (.answered answer) j).underWay = true := by rw [h, hst]
  obtain ⟨hji, -⟩ := underWay_update rfl hway
  rw [Function.update_of_ne hji] at h
  exact ⟨hji, h⟩

theorem Serialized.alone_answered (h : Serialized hashBody requests s stages) (answer : Answer)
    {j k : ι} {key : String} (hjk : j ≠ k) (hj : (requests j).storeKey = some key)
    (hk : (requests k).storeKey = some key)
    (hway : (Function.update stages i (.answered answer) j).underWay = true) :
    (Function.update stages i (.answered answer) k).underWay = false := by
  obtain ⟨-, hway⟩ := underWay_update rfl hway
  by_contra hother
  rw [Bool.not_eq_false] at hother
  obtain ⟨-, hother⟩ := underWay_update rfl hother
  rw [h.alone j k key hjk hj hk hway] at hother
  cases hother

theorem Serialized.answer (h : Serialized hashBody requests s stages) (answer : Answer)
    (hstage : ∀ payload, stages i ≠ .storing payload ∨ (requests i).storeKey = none) :
    Serialized hashBody requests s (Function.update stages i (.answered answer)) := by
  constructor
  · intro j k key hjk hj hk hway
    exact h.alone_answered answer hjk hj hk hway
  · intro j key hj hway
    exact h.unstored j key hj (underWay_update rfl hway).2
  · intro j key hj hstage'
    exact h.handling j key hj (stage_of_update hstage' rfl).2
  · intro j key payload hj hstage'
    exact h.storing j key payload hj (stage_of_update hstage' rfl).2
  · intro e he
    obtain hredis | ⟨j, payload, hj, hstoring⟩ := h.settled e he
    · exact .inl hredis
    · have hji : j ≠ i := by
        rintro rfl
        obtain hne | hnone := hstage payload
        · exact hne hstoring
        · rw [hnone] at hj
          cases hj
      exact .inr ⟨j, payload, hj, by rw [Function.update_of_ne hji]; exact hstoring⟩
  · exact h.stored
  · exact h.once
  · exact h.faithful

omit [DecidableEq ι] in
theorem Serialized.record (h : Serialized hashBody requests s stages) {key : String}
    {lookup : Lookup}
    (hfaithful : (lookup.request.SameOperation lookup.origin ∧ ∃ response,
        lookup.answer = .replayed response ∧ (key, lookup.origin, response) ∈ s.completed) ∨
      (¬lookup.request.SameOperation lookup.origin ∧
        lookup.answer = .rejected 422 differentBody)) :
    Serialized hashBody requests (s.record key lookup) stages where
  alone := h.alone
  unstored := h.unstored
  handling := h.handling
  storing := h.storing
  settled := h.settled
  stored := h.stored
  once := h.once
  faithful := by
    intro key' lookup' hmem
    rw [Store.record] at hmem
    obtain hmem | hmem := List.mem_append.1 hmem
    · exact h.faithful key' lookup' hmem
    · obtain ⟨rfl, rfl⟩ := Prod.mk.inj (List.mem_singleton.1 hmem)
      exact hfaithful

omit [DecidableEq ι] in
theorem Serialized.replay (h : Serialized hashBody requests s stages)
    (hops : OneOperationPerHash hashBody requests) {key : String}
    (hkey : (requests i).storeKey = some key) {stored : StoredResponse}
    (hfound : s.redis key = some stored) :
    ((requests i).SameOperation ((s.origin key).getD (requests i)) ∧ ∃ response,
        replay hashBody (requests i) stored = .replayed response ∧
          (key, (s.origin key).getD (requests i), response) ∈ s.completed) ∨
      (¬(requests i).SameOperation ((s.origin key).getD (requests i)) ∧
        replay hashBody (requests i) stored = .rejected 422 differentBody) := by
  obtain ⟨j, response, hj, horigin, rfl, hcompleted⟩ := h.stored key stored hfound
  rw [horigin, Option.getD_some, Middleware.replay]
  by_cases hhash : hashBody (requests j).rawBody = hashBody (requests i).rawBody
  · refine .inl ⟨hops i j key hkey hj hhash.symm, response, ?_, hcompleted⟩
    rw [if_neg (by simpa [payloadOf] using hhash)]
    rfl
  · refine .inr ⟨fun hsame => ?_, if_pos hhash⟩
    obtain ⟨-, -, hbody⟩ := hsame
    exact hhash (congrArg hashBody hbody.symm)

theorem Serialized.miss (h : Serialized hashBody requests s stages)
    (harrived : stages i = .arrived)
    (halone : ∀ key, (requests i).storeKey = some key → s.redis key = none ∧
      ∀ j ≠ i, (requests j).storeKey = some key → (stages j).underWay = false) :
    Serialized hashBody requests s (Function.update stages i .handling) := by
  constructor
  · intro j k key hjk hj hk hway
    by_cases hji : j = i
    · subst hji
      have hki : k ≠ j := fun hkj => hjk hkj.symm
      rw [Function.update_of_ne hki]
      exact (halone key hj).2 k hki hk
    · rw [Function.update_of_ne hji] at hway
      by_cases hki : k = i
      · subst hki
        rw [(halone key hk).2 j hji hj] at hway
        cases hway
      · rw [Function.update_of_ne hki]
        exact h.alone j k key hjk hj hk hway
  · intro j key hj hway
    by_cases hji : j = i
    · subst hji
      exact (halone key hj).1
    · rw [Function.update_of_ne hji] at hway
      exact h.unstored j key hj hway
  · intro j key hj hstage e he hekey
    by_cases hji : j = i
    · subst hji
      obtain ⟨hnone, hothers⟩ := halone key hj
      -- a completed handler of the key is stored, or is about to be
      obtain hredis | ⟨k, payload, hk, hstoring⟩ := h.settled e he
      · rw [hekey] at hredis
        exact hredis hnone
      · rw [hekey] at hk
        have hkj : k ≠ j := by
          rintro rfl
          rw [harrived] at hstoring
          cases hstoring
        have hidle := hothers k hkj hk
        rw [hstoring] at hidle
        cases hidle
    · rw [Function.update_of_ne hji] at hstage
      exact h.handling j key hj hstage e he hekey
  · intro j key payload hj hstage
    have hji : j ≠ i := by
      rintro rfl
      rw [Function.update_self] at hstage
      cases hstage
    rw [Function.update_of_ne hji] at hstage
    exact h.storing j key payload hj hstage
  · intro e he
    obtain hredis | ⟨j, payload, hj, hstoring⟩ := h.settled e he
    · exact .inl hredis
    · have hji : j ≠ i := by
        rintro rfl
        rw [harrived] at hstoring
        cases hstoring
      exact .inr ⟨j, payload, hj, by rw [Function.update_of_ne hji]; exact hstoring⟩
  · exact h.stored
  · exact h.once
  · exact h.faithful

theorem Serialized.complete (h : Serialized hashBody requests s stages)
    (hstage : stages i = .handling) {key : String} (hkey : (requests i).storeKey = some key)
    (response : Response) :
    Serialized hashBody requests
      { s with completed := s.completed ++ [(key, requests i, response)] }
      (Function.update stages i (.storing (payloadOf hashBody (requests i) response))) := by
  have hnone := h.handling i key hkey hstage
  have hway : (stages i).underWay = true := by rw [hstage]; rfl
  constructor
  · intro j k key' hjk hj hk hway'
    have hold : ∀ l, (Function.update stages i
        (.storing (payloadOf hashBody (requests i) response)) l).underWay =
          (stages l).underWay := by
      intro l
      by_cases hli : l = i
      · subst hli
        rw [Function.update_self, hway]
        rfl
      · rw [Function.update_of_ne hli]
    rw [hold] at hway' ⊢
    exact h.alone j k key' hjk hj hk hway'
  · intro j key' hj hway'
    by_cases hji : j = i
    · subst hji
      exact h.unstored j key' hj hway
    · rw [Function.update_of_ne hji] at hway'
      exact h.unstored j key' hj hway'
  · intro j key' hj hstage' e he
    have hji : j ≠ i := by
      rintro rfl
      rw [Function.update_self] at hstage'
      cases hstage'
    rw [Function.update_of_ne hji] at hstage'
    obtain he | he := List.mem_append.1 he
    · exact h.handling j key' hj hstage' e he
    · rw [List.mem_singleton.1 he]
      rintro rfl
      have hidle := h.alone i j key (Ne.symm hji) hkey hj hway
      rw [hstage'] at hidle
      cases hidle
  · intro j key' payload hj hstage'
    by_cases hji : j = i
    · subst hji
      rw [Function.update_self] at hstage'
      obtain rfl := Stage.storing.inj hstage'
      obtain rfl : key = key' := Option.some.inj (hkey.symm.trans hj)
      exact ⟨response, rfl, by simp⟩
    · rw [Function.update_of_ne hji] at hstage'
      obtain ⟨response', hpayload, hmem⟩ := h.storing j key' payload hj hstage'
      exact ⟨response', hpayload, List.mem_append_left _ hmem⟩
  · intro e he
    obtain he | he := List.mem_append.1 he
    · obtain hredis | ⟨j, payload, hj, hstoring⟩ := h.settled e he
      · exact .inl hredis
      · have hji : j ≠ i := by
          rintro rfl
          rw [hstage] at hstoring
          cases hstoring
        exact .inr ⟨j, payload, hj, by rw [Function.update_of_ne hji]; exact hstoring⟩
    · rw [List.mem_singleton.1 he]
      exact .inr ⟨i, _, hkey, Function.update_self ..⟩
  · intro key' stored hredis
    obtain ⟨j, response', hj, horigin, hstored, hmem⟩ := h.stored key' stored hredis
    exact ⟨j, response', hj, horigin, hstored, List.mem_append_left _ hmem⟩
  · intro key'
    show ((s.completed ++ [(key, requests i, response)]).filter fun e => e.1 = key').length ≤ 1
    rw [List.filter_append, List.length_append]
    by_cases hsame : key = key'
    · subst hsame
      have hfirst : s.completed.filter (fun e => e.1 = key) = [] :=
        List.filter_eq_nil_iff.2 fun e he => by simpa using hnone e he
      rw [hfirst]
      simp
    · have hother := h.once key'
      simpa [hsame] using hother
  · intro key' lookup hmem
    obtain ⟨hsame, response', hanswer, hcompleted⟩ | hrejected := h.faithful key' lookup hmem
    · exact .inl ⟨hsame, response', hanswer, List.mem_append_left _ hcompleted⟩
    · exact .inr hrejected

theorem Serialized.save (h : Serialized hashBody requests s stages) {payload : StoredResponse}
    (hstage : stages i = .storing payload) {key : String}
    (hkey : (requests i).storeKey = some key) (answer : Answer) :
    Serialized hashBody requests
      { s with
        redis := Function.update s.redis key (some payload)
        origin := Function.update s.origin key (some (requests i)) }
      (Function.update stages i (.answered answer)) := by
  have hway : (stages i).underWay = true := by rw [hstage]; rfl
  obtain ⟨response, hpayload, hcompleted⟩ := h.storing i key payload hkey hstage
  constructor
  · intro j k key' hjk hj hk hway'
    exact h.alone_answered answer hjk hj hk hway'
  · intro j key' hj hway'
    obtain ⟨hji, hway'⟩ := underWay_update rfl hway'
    have hne : key' ≠ key := by
      rintro rfl
      rw [h.alone i j key' (Ne.symm hji) hkey hj hway] at hway'
      cases hway'
    show Function.update s.redis key (some payload) key' = (none : Option StoredResponse)
    rw [Function.update_of_ne hne]
    exact h.unstored j key' hj hway'
  · intro j key' hj hstage'
    exact h.handling j key' hj (stage_of_update hstage' rfl).2
  · intro j key' payload' hj hstage'
    exact h.storing j key' payload' hj (stage_of_update hstage' rfl).2
  · intro e he
    show Function.update s.redis key (some payload) e.1 ≠ none ∨
      ∃ (j : ι) (payload' : StoredResponse), (requests j).storeKey = some e.1 ∧
        Function.update stages i (.answered answer) j = .storing payload'
    by_cases hekey : e.1 = key
    · rw [hekey, Function.update_self]
      exact .inl (by simp)
    · rw [Function.update_of_ne hekey]
      obtain hredis | ⟨j, payload', hj, hstoring⟩ := h.settled e he
      · exact .inl hredis
      · have hji : j ≠ i := by
          rintro rfl
          exact hekey (Option.some.inj (hj.symm.trans hkey))
        exact .inr ⟨j, payload', hj, by rw [Function.update_of_ne hji]; exact hstoring⟩
  · intro key' stored hredis
    show ∃ (k : ι) (response : Response), (requests k).storeKey = some key' ∧
      Function.update s.origin key (some (requests i)) key' = some (requests k) ∧
        stored = payloadOf hashBody (requests k) response ∧
          (key', requests k, response) ∈ s.completed
    by_cases hsame : key' = key
    · subst hsame
      have hself : Function.update s.redis key' (some payload) key' = some payload :=
        Function.update_self ..
      have hstored : payload = stored := Option.some.inj (hself.symm.trans hredis)
      rw [Function.update_self]
      exact ⟨i, response, hkey, rfl, hstored.symm.trans hpayload, hcompleted⟩
    · have hother : Function.update s.redis key (some payload) key' = s.redis key' :=
        Function.update_of_ne hsame _ _
      rw [Function.update_of_ne hsame]
      exact h.stored key' stored (hother.symm.trans hredis)
  · exact h.once
  · exact h.faithful

end Steps

section Runs
variable [DecidableEq ι] {hashBody : String → String} {requests : ι → Request}

def SerializedWorld (hashBody : String → String) (requests : ι → Request)
    (w : World ι Store Task) : Prop :=
  (∀ i, (w.task i).request = requests i) ∧
    Serialized hashBody requests w.shared fun i => (w.task i).stage

theorem serialized_advance {s : Store} {stages : ι → Stage} {i : ι} (response : Response)
    (h : Serialized hashBody requests s stages) (hops : OneOperationPerHash hashBody requests)
    (hserial : stages i = .arrived → ∀ key, (requests i).storeKey = some key →
      s.redis key = none → ∀ j ≠ i, (requests j).storeKey = some key →
        (stages j).underWay = false) :
    Serialized hashBody requests (advance hashBody s ⟨requests i, stages i⟩ response).1
      (Function.update stages i
        (advance hashBody s ⟨requests i, stages i⟩ response).2) := by
  have hidle : ∀ {st : Stage}, stages i = st → (∀ payload, st ≠ .storing payload) →
      ∀ payload, stages i ≠ .storing payload ∨ (requests i).storeKey = none :=
    fun hstage hne payload => .inl (hstage ▸ hne payload)
  cases hstage : stages i with
  | arrived =>
    have harrived := hidle hstage (by simp)
    show Serialized hashBody requests (lookUp hashBody s (requests i)).1
      (Function.update stages i (lookUp hashBody s (requests i)).2)
    unfold lookUp
    cases hheader : (requests i).idempotencyKey with
    | none =>
      have hkey : (requests i).storeKey = none := by rw [Request.storeKey, hheader]; rfl
      refine h.miss hstage fun key hsome => ?_
      rw [hkey] at hsome
      cases hsome
    | some idempotencyKey =>
      dsimp only
      split_ifs with hlen
      · exact h.answer _ harrived
      · have hkey := storeKey_eq_some hheader hlen
        cases hredis : s.redis ((requests i).redisKey idempotencyKey) with
        | none =>
          refine h.miss hstage fun key hsome => ?_
          obtain rfl := Option.some.inj (hkey.symm.trans hsome)
          exact ⟨hredis, hserial hstage _ hkey hredis⟩
        | some stored => exact (h.record (h.replay hops hkey hredis)).answer _ harrived
  | handling =>
    have hhandling := hidle hstage (by simp)
    show Serialized hashBody requests (complete hashBody s (requests i) response).1
      (Function.update stages i (complete hashBody s (requests i) response).2)
    unfold complete
    cases hkey : (requests i).storeKey with
    | none => exact h.answer _ hhandling
    | some key =>
      dsimp only
      split_ifs
      · exact h.complete hstage hkey response
      · exact h.answer _ hhandling
  | storing payload =>
    show Serialized hashBody requests (save s (requests i) payload).1
      (Function.update stages i (save s (requests i) payload).2)
    unfold save
    cases hkey : (requests i).storeKey with
    | none => exact h.answer _ fun _ => .inr hkey
    | some key => exact h.save hstage hkey _
  | answered answer => exact h.answer _ (hidle hstage (by simp))

theorem serializedWorld_next {w : World ι Store Task} {e : Event ι Response Empty}
    (hops : OneOperationPerHash hashBody requests) (h : SerializedWorld hashBody requests w)
    (hserial : Serial w e) : SerializedWorld hashBody requests ((idempotency hashBody).next w e) := by
  obtain ⟨hrequests, hinv⟩ := h
  cases e with
  | env d => cases d
  | act i response =>
    have htask : w.task i = ⟨requests i, (w.task i).stage⟩ := by rw [← hrequests i]
    have hstep := serialized_advance (i := i) response hinv hops
      fun harrived key hkey hredis j hj hjkey => by
        rw [← hrequests i] at hkey
        rw [← hrequests j] at hjkey
        exact hserial harrived key hkey hredis j hj hjkey
    refine ⟨fun j => ?_, ?_⟩
    · by_cases hj : j = i
      · subst hj
        simpa [System.next, idempotency] using hrequests j
      · simpa [System.next, idempotency, Function.update_of_ne hj] using hrequests j
    · have hstages : (fun j => (((idempotency hashBody).next w (.act i response)).task j).stage) =
          Function.update (fun j => (w.task j).stage) i
            (advance hashBody w.shared ⟨requests i, (w.task i).stage⟩ response).2 := by
        funext j
        rw [← htask]
        by_cases hj : j = i
        · subst hj
          simp [System.next, idempotency]
        · simp [System.next, idempotency, Function.update_of_ne hj]
      have hshared : ((idempotency hashBody).next w (.act i response)).shared =
          (advance hashBody w.shared ⟨requests i, (w.task i).stage⟩ response).1 := by
        rw [← htask]
        rfl
      rw [hstages, hshared]
      exact hstep

omit [DecidableEq ι] in
theorem serialized_arrivals : SerializedWorld hashBody requests (arrivals requests) := by
  refine ⟨fun _ => rfl, ?_⟩
  constructor
  · intro i j key _ _ _ hway
    cases hway
  · intro i key _ hway
    cases hway
  · intro i key _ hstage
    cases hstage
  · intro i key payload _ hstage
    cases hstage
  · intro e he
    cases he
  · intro key stored hredis
    cases hredis
  · intro key
    exact Nat.zero_le 1
  · intro key lookup hmem
    cases hmem

/-- Whatever the requests and the order of their steps: if those of a key do not overlap, and
their bodies tell their operations apart, its handler completes once and replays are faithful. -/
theorem atMostOnce_of_serial (hashBody : String → String) (requests : ι → Request)
    (hops : OneOperationPerHash hashBody requests) (evs : List (Event ι Response Empty))
    (hserial : ∀ x ∈ (idempotency hashBody).transitions (arrivals requests) evs, Serial x.1 x.2) :
    ∀ w ∈ (idempotency hashBody).visited (arrivals requests) evs,
      AtMostOnce w.shared ∧ FaithfulReplay w.shared := by
  intro w hw
  obtain ⟨-, hinv⟩ := System.visited_induct
    (fun v e hv he => serializedWorld_next hops hv he) serialized_arrivals hserial w hw
  exact ⟨hinv.once, hinv.faithful⟩

end Runs

def spendBody : String := "\x7b\"amount\":100,\"referenceId\":\"order-1\"\x7d"

def spend (appUserId : String) : Request where
  project := some "p1"
  method := "POST"
  path := "/v1/virtual-currencies/" ++ appUserId ++ "/coins/transactions"
  rawBody := spendBody
  header := some "k1"

def spendHash (body : String) : String :=
  if body = spendBody then "44556432d171f1faeb046d80d92754c7134ae1226b41d1eaf9eef82fa9eaa282"
  else body

def spent (balance : String) : Response where
  status := 200
  body := "\x7b\"data\":\x7b\"code\":\"coins\",\"balance\":" ++ balance ++ "\x7d\x7d"
  contentType := some "application/json"

def overlapping : List (Event Bool Response Empty) :=
  [.act false (spent "0"), .act true (spent "0"), .act false (spent "900"), .act true (spent "900")]

def oneAfterAnother : List (Event Bool Response Empty) :=
  [.act false (spent "900"), .act false (spent "900"), .act false (spent "900"),
    .act true (spent "0")]

/-- The retry runs the handler again; and another user's request is answered with the first's. -/
theorem key_runs_twice_and_crosses :
    (∃ w ∈ (idempotency spendHash).visited (arrivals fun _ => spend "alice") overlapping,
      ¬AtMostOnce w.shared) ∧
    ∃ w ∈ (idempotency spendHash).visited
        (arrivals fun i => if i then spend "bob" else spend "alice") oneAfterAnother,
      (w.task true).stage = .answered (.replayed (spent "900")) ∧ ¬FaithfulReplay w.shared := by
  refine ⟨⟨_, System.last_mem_visited, fun honce => ?_⟩,
    ⟨_, System.last_mem_visited, by decide, fun hfaithful => ?_⟩⟩
  · exact absurd (honce "idempotency:p1:k1") (by decide)
  · have hanswer := hfaithful "idempotency:p1:k1"
      ⟨spend "bob", spend "alice", .replayed (spent "900")⟩ (by decide)
    obtain ⟨hsame, -⟩ | ⟨-, hrejected⟩ := hanswer
    · exact absurd hsame (by decide)
    · exact absurd hrejected (by decide)

theorem atMostOnce_of_serial_retry :
    OneOperationPerHash spendHash (fun _ : Bool => spend "alice") ∧
      ∀ w ∈ (idempotency spendHash).visited (arrivals fun _ => spend "alice") oneAfterAnother,
        AtMostOnce w.shared ∧ FaithfulReplay w.shared := by
  have hops : OneOperationPerHash spendHash fun _ : Bool => spend "alice" :=
    fun _ _ _ _ _ _ => ⟨rfl, rfl, rfl⟩
  refine ⟨hops, atMostOnce_of_serial spendHash _ hops oneAfterAnother fun x hx => ?_⟩
  simp only [oneAfterAnother, System.transitions, List.mem_cons, List.not_mem_nil,
    or_false] at hx
  obtain rfl | rfl | rfl | rfl := hx <;>
    · intro _ key _ _ j hj _
      cases j <;> first | exact absurd rfl hj | decide

end Rovenue.Middleware
