import Rovenue.Attributes.InTurn
import Rovenue.Sdk.HttpClient
import Rovenue.Sdk.Telemetry

/-! A flush of attribute mutations against the server that checks its page as a whole. -/

namespace Rovenue.Sdk
open Attributes Queues Threads

/-- `deadEnded` is a subscriber erased, or merged away, with no live one in its place. -/
structure SubscriberRow where
  attributes : SubscriberAttributes
  deadEnded : Bool

def postAttributes (row : SubscriberRow) (body : AttributeMutationMap) :
    Except String SubscriberRow :=
  -- The row afterwards, or the message of the 400. A dead-ended row is reported untouched, with the
  -- same 200.
  let attributes := attributesBody body
  let errors := validateAttributeInput attributes row.attributes
  if errors ≠ [] then
    .error ("; ".intercalate (errors.map fun e => e.key ++ ": " ++ e.reason))
  else if row.deadEnded then .ok row
  else .ok { row with attributes := row.attributes.apply attributes }

def statusOf : Except String SubscriberRow → ℕ
  | .error _ => 400
  | .ok _ => 200

inductive Front where
  | tooLarge
  | unauthorized
  | forbidden
  | noSubscriber

def Front.status : Front → ℕ
  | .tooLarge => 413
  | .unauthorized => 401
  | .forbidden => 403
  | .noSubscriber => 400

inductive Arrival where
  | whole | truncated | lost

/-- What becomes of an attempt. `handled` has the row that the handler read. -/
inductive Attempted where
  | unreachable
  | timedOut
  | turnedAway (front : Front)
  | rateLimited (retryAfter : ℕ)
  | failed
  | handled (row : SubscriberRow) (arrival : Arrival)

def Attempted.reply (body : AttributeMutationMap) : Attempted → Reply
  | .unreachable => .unreachable
  | .timedOut => .timedOut
  | .turnedAway front => .response front.status none true
  | .rateLimited retryAfter => .response 429 (some retryAfter) true
  | .failed => .response 500 none true
  | .handled _ .lost => .timedOut
  | .handled row .truncated => .response (statusOf (postAttributes row body)) none false
  | .handled row .whole => .response (statusOf (postAttributes row body)) none true

def pageBody (page : List (ℕ × Recorded AttributeMutation)) : AttributeMutationMap :=
  coalesce (page.map fun r => r.2.row)

def postPage (page : List (ℕ × Recorded AttributeMutation)) (attempts : ℕ → Attempted) :
    Except RovenueError Unit :=
  (postJson false fun n => (attempts n).reply (pageBody page)).map fun _ => ()

def flushRun (b later : Buffer AttributeMutation) (sub : Subscriber) (listed deleted : Bool)
    (attempts : ℕ → Attempted) : Buffer AttributeMutation :=
  -- the queue is `b` when the flush lists and `later` when it deletes
  match flushOnce attributeDrops b (.listing sub) (.list listed) with
  | (_, some (.posting request page)) =>
    match flushOnce attributeDrops b (.posting request page)
        (.reply (postPage page attempts)) with
    | (_, some f) => (flushOnce attributeDrops later f (.delete deleted)).1
    | (_, none) => later
  | _ => later

def MadeBy (page : List (ℕ × Recorded AttributeMutation)) (attempts : ℕ → Attempted) (n : ℕ) :
    Prop :=
  -- the attempts before the `n`-th settled nothing, and there was one left
  n < maxAttempts ∧ Made false (fun k => (attempts k).reply (pageBody page)) n

/-- The server applied the page: of each key the row has the last value that the page gives it, and
what it had where the page gives none. Nothing is said of `__proto__`. -/
def Attempted.Applies (page : List (ℕ × Recorded AttributeMutation)) : Attempted → Prop
  | .handled row _ => row.deadEnded = false ∧ ∃ row', postAttributes row (pageBody page) = .ok row' ∧
      ∀ key ≠ protoKey, row'.attributes.values key =
        (lastValue (page.map fun r => r.2.row) key).getD (row.attributes.values key)
  | _ => False

/-- The page never came to a subscriber that can have attributes. -/
def Attempted.TurnsAway : Attempted → Prop
  | .turnedAway _ => True
  | .handled row _ => row.deadEnded = true
  | _ => False

/-- The page has a mutation that the server does not accept in its turn. -/
def Attempted.MeetsBad (page : List (ℕ × Recorded AttributeMutation)) : Attempted → Prop
  | .handled row _ => ¬ AllAcceptedInTurn row.attributes (page.map fun r => r.2.row)
  | _ => False

variable {b later : Buffer AttributeMutation} {sub : Subscriber} {listed deleted : Bool}
  {attempts : ℕ → Attempted} {page : List (ℕ × Recorded AttributeMutation)}
  {r : ℕ × Recorded AttributeMutation} {row : SubscriberRow} {arrival : Arrival}

theorem flushRun_removes (hr : r ∈ later.queue.rows)
    (hgone : r ∉ (flushRun b later sub listed deleted attempts).queue.rows) :
    b.queue.oldest flushPage ≠ [] ∧ r.1 ∈ (b.queue.oldest flushPage).map Prod.fst ∧
      (postPage (b.queue.oldest flushPage) attempts = .ok () ∨
        ∃ err, postPage (b.queue.oldest flushPage) attempts = .error err ∧
          attributeDrops err = true) := by
  cases listed with
  | false => exact absurd hr hgone
  | true =>
    by_cases hempty : b.queue.oldest flushPage = []
    · have hrun : flushRun b later sub true deleted attempts = later := by
        simp [flushRun, flushOnce, hempty]
      rw [hrun] at hgone
      exact absurd hr hgone
    · have hdelete : ∀ ids, r ∉ (flushOnce attributeDrops later (.deleting ids)
          (.delete deleted)).1.queue.rows → r.1 ∈ ids := by
        intro ids hnot
        by_contra hid
        cases deleted with
        | false => exact hnot hr
        | true => exact hnot (Fifo.mem_remove.2 ⟨hr, hid⟩)
      refine ⟨hempty, ?_⟩
      simp only [flushRun, flushOnce, hempty, if_false] at hgone hdelete
      cases hpost : postPage (b.queue.oldest flushPage) attempts with
      | ok =>
        rw [hpost] at hgone
        exact ⟨hdelete _ hgone, .inl rfl⟩
      | error err =>
        rw [hpost] at hgone
        by_cases hdrops : attributeDrops err = true
        · simp only [hdrops, if_true] at hgone
          exact ⟨hdelete _ hgone, .inr ⟨err, rfl, hdrops⟩⟩
        · simp only [hdrops] at hgone
          exact absurd hr hgone

theorem postPage_settled (h : postPage page attempts = .ok () ∨
      ∃ err, postPage page attempts = .error err ∧ attributeDrops err = true) :
    ∃ n, MadeBy page attempts n ∧ ∃ status retryAfter parses,
      (attempts n).reply (pageBody page) = .response status retryAfter parses ∧
        (Accepted status ∨ classify (some status) retryAfter = .fatal) := by
  unfold postPage at h
  have hresult := postJson_result false fun n => (attempts n).reply (pageBody page)
  generalize postJson false (fun n => (attempts n).reply (pageBody page)) = result at h hresult
  rcases hresult with ⟨n, hn, hmade, hsettled⟩ | ⟨err, rfl, hnone⟩
  · refine ⟨n, ⟨hn, hmade⟩, ?_⟩
    cases result with
    | ok status =>
      obtain ⟨haccepted, retryAfter, parses, hreply⟩ := attempt_ok hsettled
      exact ⟨status, retryAfter, parses, hreply, .inl haccepted⟩
    | error err =>
      rcases attempt_error hsettled with hnone | ⟨status, retryAfter, parses, hreply, hfatal, -⟩
      · rcases h with h | ⟨err', h, hdrops⟩
        · cases h
        · cases h
          simp [attributeDrops, hnone] at hdrops
      · exact ⟨status, retryAfter, parses, hreply, .inr hfatal⟩
  · rcases h with h | ⟨err', h, hdrops⟩
    · cases h
    · cases h
      simp [attributeDrops, hnone] at hdrops

theorem postAttributes_applies (hlive : row.deadEnded = false)
    (hvalid : validateAttributeInput (sent (page.map fun r => r.2.row)) row.attributes = []) :
    (Attempted.handled row arrival).Applies page := by
  have hpost : postAttributes row (pageBody page) =
      .ok { row with attributes := row.attributes.apply (sent (page.map fun r => r.2.row)) } := by
    rw [sent] at hvalid ⊢
    simp [postAttributes, pageBody, hvalid, hlive]
  refine ⟨hlive, _, hpost, fun key hkey => ?_⟩
  rw [values_apply_sent, if_neg hkey]

theorem handled_settles (hpage : page ≠ []) :
    (Attempted.handled row arrival).Applies page ∨ (Attempted.handled row arrival).TurnsAway ∨
      (Attempted.handled row arrival).MeetsBad page := by
  cases hlive : row.deadEnded with
  | true => exact .inr (.inl hlive)
  | false =>
    by_cases hgood : AllAcceptedInTurn row.attributes (page.map fun r => r.2.row)
    · have hvalid := hgood.accepted (by simpa using hpage)
      exact .inl (postAttributes_applies hlive hvalid)
    · exact .inr (.inr hgood)

theorem append_follows {R : Type} (cap : ℕ) (row : R) (fault : Option AppendFault) (q : Fifo R) :
    q.Follows (append cap row fault q).1 := by
  rcases fault with _ | _ | _
  · exact (Fifo.Follows.push q row).trans (.ofSublist _ (List.drop_sublist ..))
  · exact .refl q
  · exact .push q row

theorem flushOnce_follows {R : Type} (drops : RovenueError → Bool) (b : Buffer R) (f : Flush R)
    (e : FlushEvent) : b.queue.Follows (flushOnce drops b f e).1.queue := by
  unfold flushOnce
  split
  · simp only
    split_ifs <;> exact .refl _
  · exact .refl _
  · rename_i result
    cases result <;> exact .refl _
  · exact .ofSublist _ List.filter_sublist
  · exact .refl _
  · exact .refl _

theorem step_follows (s : Telemetry) (t : Thread) (a : Action) :
    s.attributes.queue.Follows (s.step t a).1.attributes.queue := by
  unfold Telemetry.step
  split
  · exact .refl _
  · exact .refl _
  · exact .refl _
  · exact .refl _
  · exact .refl _
  · exact append_follows ..
  · exact .refl _
  · exact flushOnce_follows ..
  · rename_i l ok
    cases l <;> cases ok <;> first | exact .refl _ | exact .ofSublist _ (List.nil_sublist _)
  · exact .refl _

variable {ι : Type} [DecidableEq ι]

theorem runAll_follows (w : World ι Telemetry Thread) (evs : List (Event ι Action Empty)) :
    w.shared.attributes.queue.Follows
      (telemetrySystem.runAll w evs).shared.attributes.queue := by
  induction evs generalizing w with
  | nil => exact .refl _
  | cons e es ih =>
    refine Fifo.Follows.trans ?_ (ih (telemetrySystem.next w e))
    cases e with
    | act i a => exact step_follows w.shared (w.task i) a
    | env d => exact d.elim

/-- A mutation that the server would have accepted in its turn, whenever it looked, is not
deleted unless the page was applied. -/
def NoGoodLost (b later : Buffer AttributeMutation) (sub : Subscriber) (listed deleted : Bool)
    (attempts : ℕ → Attempted) : Prop :=
  ∀ earlier r rest, b.queue.oldest flushPage = earlier ++ r :: rest → r ∈ later.queue.rows →
    r ∉ (flushRun b later sub listed deleted attempts).queue.rows →
      (∀ n row arrival, MadeBy (b.queue.oldest flushPage) attempts n →
        attempts n = .handled row arrival →
          AcceptedInTurn row.attributes (earlier.map fun e => e.2.row) r.2.row) →
        ∃ n, MadeBy (b.queue.oldest flushPage) attempts n ∧
          (attempts n).Applies (b.queue.oldest flushPage)

/-- Whatever happens to the queue while the request is out, a mutation is deleted only after
the server has applied its page, or turned it away, or found in it a mutation that it would
not have accepted in its turn. -/
theorem deleted_applied_or_with_bad (w : World ι Telemetry Thread)
    (evs : List (Event ι Action Empty)) (sub : Subscriber) (listed deleted : Bool)
    (attempts : ℕ → Attempted) :
    let b := w.shared.attributes
    let later := (telemetrySystem.runAll w evs).shared.attributes
    ∀ r ∈ later.queue.rows, r ∉ (flushRun b later sub listed deleted attempts).queue.rows →
      r ∈ b.queue.oldest flushPage ∧ ∃ n, MadeBy (b.queue.oldest flushPage) attempts n ∧
        ((attempts n).Applies (b.queue.oldest flushPage) ∨ (attempts n).TurnsAway ∨
          (attempts n).MeetsBad (b.queue.oldest flushPage)) := by
  intro b later r hr hgone
  obtain ⟨hpage, hid, hpost⟩ := flushRun_removes hr hgone
  constructor
  · obtain ⟨r', hr', hrid⟩ := List.mem_map.1 hid
    have hold : r'.1 < b.queue.next := b.queue.below r' (Fifo.mem_oldest hr')
    have hsame := (runAll_follows w evs).rows r hr (hrid ▸ hold)
    rwa [Fifo.eq_of_id hsame (Fifo.mem_oldest hr') hrid.symm]
  · obtain ⟨n, hmade, status, retryAfter, parses, hreply, hstatus⟩ := postPage_settled hpost
    refine ⟨n, hmade, ?_⟩
    cases hattempt : attempts n with
    | unreachable => simp [hattempt, Attempted.reply] at hreply
    | timedOut => simp [hattempt, Attempted.reply] at hreply
    | turnedAway front => exact .inr (.inl trivial)
    | rateLimited secs =>
      simp only [hattempt, Attempted.reply, Reply.response.injEq] at hreply
      obtain ⟨rfl, rfl, -⟩ := hreply
      simp [Accepted, classify] at hstatus
    | failed =>
      simp only [hattempt, Attempted.reply, Reply.response.injEq] at hreply
      obtain ⟨rfl, rfl, -⟩ := hreply
      simp [Accepted, classify] at hstatus
    | handled row arrival => exact handled_settles hpage

def countryThenEmail : Buffer AttributeMutation where
  queue := (Fifo.empty.push ⟨⟨"country", some "TR"⟩, ⟨"rov_1", 0⟩⟩).push
    ⟨⟨"$email", some "nobody"⟩, ⟨"rov_1", 0⟩⟩
  posted := []

def emptyRow : Attempted := .handled ⟨.empty, false⟩ .whole

theorem deleted_applied_or_with_bad_countryThenEmail :
    (1, ⟨⟨"country", some "TR"⟩, ⟨"rov_1", 0⟩⟩) ∈ countryThenEmail.queue.oldest flushPage ∧
      ∃ n, MadeBy (countryThenEmail.queue.oldest flushPage) (fun _ => emptyRow) n ∧
        (emptyRow.Applies (countryThenEmail.queue.oldest flushPage) ∨ emptyRow.TurnsAway ∨
          emptyRow.MeetsBad (countryThenEmail.queue.oldest flushPage)) :=
  deleted_applied_or_with_bad (ι := Unit) ⟨⟨⟨"rov_1", 0⟩, .empty, countryThenEmail⟩, fun _ => .idle⟩
    [] ⟨"rov_1", 0⟩ true true (fun _ => emptyRow) (1, ⟨⟨"country", some "TR"⟩, ⟨"rov_1", 0⟩⟩)
    (by decide) (by decide)

/-- The address is no address: the country goes with it. -/
theorem good_lost_with_bad :
    ¬ NoGoodLost countryThenEmail countryThenEmail ⟨"rov_1", 0⟩ true true
      fun _ => emptyRow := by
  intro h
  have hrejected : statusOf (postAttributes ⟨.empty, false⟩
      (pageBody (countryThenEmail.queue.oldest flushPage))) = 400 := by decide
  have haccepted : AcceptedInTurn .empty [] ⟨"country", some "TR"⟩ := by decide
  obtain ⟨n, -, -, row', happlied, -⟩ := h [] (1, ⟨⟨"country", some "TR"⟩, ⟨"rov_1", 0⟩⟩)
    [(2, ⟨⟨"$email", some "nobody"⟩, ⟨"rov_1", 0⟩⟩)] rfl (by decide) (by decide)
    (by rintro n row arrival - ⟨⟩; exact haccepted)
  rw [happlied] at hrejected
  cases hrejected

end Rovenue.Sdk
