import Rovenue.Sdk.Telemetry

/-! Whose telemetry a POST carries. A flush reads the subscriber id and the rows in
two steps, and `log_out` replaces the one and clears the others in further steps. -/

namespace Rovenue.Sdk
open Queues Threads

variable {ι R : Type}

abbrev TelemetryWorld (ι : Type) := World ι Telemetry Thread

def Buffer.NeverCrosses (b : Buffer R) : Prop :=
  ∀ p ∈ b.posted, ∀ r ∈ p.2, r.2.under.rovenueId = p.1.rovenueId

/-- Every event and mutation sent so far went out under the id it was recorded under. -/
def NeverCrosses (s : Telemetry) : Prop := s.sessions.NeverCrosses ∧ s.attributes.NeverCrosses

def Flush.ListsOwn (b : Buffer R) : Flush R → FlushEvent → Prop
  -- no log-out fell between the recording of a row of the page and the flush's reading of the id,
  -- whichever came first
  | .listing sub, .list true => ∀ e ∈ b.queue.oldest flushPage, e.2.under.logOuts = sub.logOuts
  | _, _ => True

instance (b : Buffer R) (f : Flush R) (e : FlushEvent) : Decidable (f.ListsOwn b e) := by
  unfold Flush.ListsOwn
  split <;> infer_instance

def Thread.ListsOwn (s : Telemetry) : Thread → Action → Prop
  | .flushSessions f, .flush e => f.ListsOwn s.sessions e
  | .flushAttributes f, .flush e => f.ListsOwn s.attributes e
  | _, _ => True

instance (s : Telemetry) (t : Thread) (a : Action) : Decidable (t.ListsOwn s a) := by
  unfold Thread.ListsOwn
  split <;> infer_instance

def ListsOwn (w : TelemetryWorld ι) : Event ι Action Empty → Prop
  | .act i a => (w.task i).ListsOwn w.shared a
  | .env _ => True

instance (w : TelemetryWorld ι) (e : Event ι Action Empty) : Decidable (ListsOwn w e) := by
  unfold ListsOwn
  split <;> infer_instance

/-- A process that starts: nothing runs, nothing was sent, and the queues hold rows
of the current subscriber. -/
structure Starts (w : TelemetryWorld ι) : Prop where
  idle : ∀ i, w.task i = .idle
  sessions : w.shared.sessions.posted = [] ∧
    ∀ e ∈ w.shared.sessions.queue.rows, e.2.under = w.shared.subscriber
  attributes : w.shared.attributes.posted = [] ∧
    ∀ e ∈ w.shared.attributes.queue.rows, e.2.under = w.shared.subscriber

/-- `idAt n` is the id that was current after `n` log-outs, and `now` of them happened. -/
structure Known (idAt : ℕ → String) (now : ℕ) (sub : Subscriber) : Prop where
  id : sub.rovenueId = idAt sub.logOuts
  le : sub.logOuts ≤ now

section Known
variable {idAt : ℕ → String} {now : ℕ} {sub sub' : Subscriber}

theorem Known.congr (h : Known idAt now sub) (h' : Known idAt now sub')
    (heq : sub.logOuts = sub'.logOuts) : sub.rovenueId = sub'.rovenueId := by
  rw [h.id, h'.id, heq]

theorem Known.swap (h : Known idAt now sub) (newRovenueId : String) :
    Known (Function.update idAt (now + 1) newRovenueId) (now + 1) sub where
  id := by
    have hne : sub.logOuts ≠ now + 1 := by
      have hle := h.le
      omega
    rw [Function.update_of_ne hne, h.id]
  le := Nat.le_succ_of_le h.le

def Flush.Known (idAt : ℕ → String) (now : ℕ) : Flush R → Prop
  | .listing sub => Sdk.Known idAt now sub
  | _ => True

theorem Flush.Known.swap {f : Flush R} (h : f.Known idAt now) (newRovenueId : String) :
    f.Known (Function.update idAt (now + 1) newRovenueId) (now + 1) := by
  cases f with
  | listing sub => exact Sdk.Known.swap h newRovenueId
  | posting request rows => trivial
  | deleting ids => trivial

structure Buffer.Owned (idAt : ℕ → String) (now : ℕ) (b : Buffer R) : Prop where
  queued : ∀ e ∈ b.queue.rows, Sdk.Known idAt now e.2.under
  posted : b.NeverCrosses

variable {b : Buffer R}

theorem Buffer.Owned.swap (h : b.Owned idAt now) (newRovenueId : String) :
    b.Owned (Function.update idAt (now + 1) newRovenueId) (now + 1) where
  queued e he := (h.queued e he).swap newRovenueId
  posted := h.posted

theorem Buffer.Owned.of_subset (h : b.Owned idAt now) {q : Fifo (Recorded R)}
    (hq : ∀ e ∈ q.rows, e ∈ b.queue.rows) : ({ b with queue := q } : Buffer R).Owned idAt now where
  queued e he := h.queued e (hq e he)
  posted := h.posted

theorem Buffer.Owned.append (h : b.Owned idAt now) (hsub : Sdk.Known idAt now sub) (cap : ℕ)
    (row : R) (fault : Option AppendFault) :
    ({ b with queue := (append cap ⟨row, sub⟩ fault b.queue).1 } : Buffer R).Owned idAt now where
  queued e he := by
    rcases mem_append he with he | rfl
    · exact h.queued e he
    · exact hsub
  posted := h.posted

theorem Buffer.Owned.flushOnce (h : b.Owned idAt now) {f : Flush R} (hf : f.Known idAt now)
    {e : FlushEvent} (hlists : f.ListsOwn b e) (drops : RovenueError → Bool) :
    (flushOnce drops b f e).1.Owned idAt now ∧
      ∀ f', (flushOnce drops b f e).2 = some f' → f'.Known idAt now := by
  unfold Sdk.flushOnce
  split
  · rename_i sub
    simp only
    split_ifs with hempty
    · exact ⟨h, by simp⟩
    · refine ⟨⟨h.queued, ?_⟩, by rintro f' ⟨⟩; trivial⟩
      intro p hp
      rcases List.mem_append.1 hp with hp | hp
      · exact h.posted p hp
      · obtain rfl := List.mem_singleton.1 hp
        intro row hrow
        have hknown := h.queued row (Fifo.mem_oldest hrow)
        exact hknown.congr hf (hlists row hrow)
  · exact ⟨h, by simp⟩
  · rename_i request rows result
    cases result with
    | ok => exact ⟨h, by rintro f' ⟨⟩; trivial⟩
    | error err =>
      refine ⟨h, fun f' hf' => ?_⟩
      simp only at hf'
      split_ifs at hf'
      obtain rfl := Option.some.inj hf'
      trivial
  · exact ⟨h.of_subset fun e he => (Fifo.mem_remove.1 he).1, by simp⟩
  · exact ⟨h, by simp⟩
  · refine ⟨h, fun f' hf' => ?_⟩
    obtain rfl := Option.some.inj hf'
    exact hf

end Known

structure Telemetry.Owned (idAt : ℕ → String) (s : Telemetry) : Prop where
  current : Known idAt s.subscriber.logOuts s.subscriber
  sessions : s.sessions.Owned idAt s.subscriber.logOuts
  attributes : s.attributes.Owned idAt s.subscriber.logOuts

def Thread.Known (idAt : ℕ → String) (now : ℕ) : Thread → Prop
  | .flushSessions f => f.Known idAt now
  | .flushAttributes f => f.Known idAt now
  | _ => True

theorem Thread.Known.swap {idAt : ℕ → String} {now : ℕ} {t : Thread} (h : t.Known idAt now)
    (newRovenueId : String) :
    t.Known (Function.update idAt (now + 1) newRovenueId) (now + 1) := by
  cases t with
  | flushSessions f => exact Flush.Known.swap h newRovenueId
  | flushAttributes f => exact Flush.Known.swap h newRovenueId
  | _ => trivial

section Step
variable {idAt : ℕ → String} {s : Telemetry} {t : Thread}

theorem Thread.known_ofSet (idAt : ℕ → String) (now : ℕ) (rest : List AttributeMutation) :
    (Thread.ofSet rest).Known idAt now := by cases rest <;> trivial

def Leaves (idAt : ℕ → String) (s : Telemetry) (next : Telemetry × Thread) : Prop :=
  ∃ idAt', next.1.Owned idAt' ∧ next.2.Known idAt' next.1.subscriber.logOuts ∧
    ∀ t : Thread, t.Known idAt s.subscriber.logOuts → t.Known idAt' next.1.subscriber.logOuts

theorem Leaves.same {next : Telemetry × Thread} (hsub : next.1.subscriber = s.subscriber)
    (hs : next.1.Owned idAt) (ht : next.2.Known idAt s.subscriber.logOuts) :
    Leaves idAt s next := by
  refine ⟨idAt, hs, ?_, fun t ht => ?_⟩ <;> rwa [hsub]

theorem logOut_leaves (hs : s.Owned idAt) (l : LogOut) (ok : Bool) :
    Leaves idAt s (l.run s ok) := by
  cases l with
  | swap newRovenueId =>
    refine ⟨Function.update idAt (s.subscriber.logOuts + 1) newRovenueId, ⟨⟨?_, le_rfl⟩, ?_, ?_⟩,
      trivial, fun t ht => ht.swap newRovenueId⟩
    · simp [LogOut.run]
    · exact hs.sessions.swap newRovenueId
    · exact hs.attributes.swap newRovenueId
  | clearTokens => cases ok <;> exact .same rfl hs trivial
  | clearSessions =>
    cases ok
    · exact .same rfl hs trivial
    · exact .same rfl ⟨hs.current, hs.sessions.of_subset (by simp), hs.attributes⟩ trivial
  | clearAttributes =>
    cases ok
    · exact .same rfl hs trivial
    · exact .same rfl ⟨hs.current, hs.sessions, hs.attributes.of_subset (by simp)⟩ trivial

theorem flushStart_known (hs : s.Owned idAt) {f : Flush R → Thread}
    (hf : ∀ sub, Known idAt s.subscriber.logOuts sub →
      (f (.listing sub)).Known idAt s.subscriber.logOuts) :
    (s.subscriberId.elim .idle fun sub => f (.listing sub)).Known idAt s.subscriber.logOuts := by
  rw [Telemetry.subscriberId]
  split_ifs
  · trivial
  · exact hf _ hs.current

theorem step_leaves (hs : s.Owned idAt) (ht : t.Known idAt s.subscriber.logOuts) {a : Action}
    (hlists : t.ListsOwn s a) : Leaves idAt s (s.step t a) := by
  unfold Telemetry.step
  split
  · split_ifs <;> exact .same rfl hs trivial
  · exact .same rfl ⟨hs.current, hs.sessions.append hs.current .., hs.attributes⟩ trivial
  · exact .same rfl hs (Thread.known_ofSet ..)
  · exact .same rfl hs (flushStart_known hs fun _ h => h)
  · exact .same rfl hs (flushStart_known hs fun _ h => h)
  · refine .same rfl ⟨hs.current, hs.sessions, hs.attributes.append hs.current ..⟩ ?_
    simp only
    split_ifs
    · exact Thread.known_ofSet ..
    · trivial
  · rename_i f e
    obtain ⟨hb, hf⟩ := hs.sessions.flushOnce ht hlists sessionDrops
    refine .same rfl ⟨hs.current, hb, hs.attributes⟩ ?_
    simp only
    cases hnext : (flushOnce sessionDrops s.sessions f e).2 with
    | none => trivial
    | some f' => exact hf f' hnext
  · rename_i f e
    obtain ⟨hb, hf⟩ := hs.attributes.flushOnce ht hlists attributeDrops
    refine .same rfl ⟨hs.current, hs.sessions, hb⟩ ?_
    simp only
    cases hnext : (flushOnce attributeDrops s.attributes f e).2 with
    | none => trivial
    | some f' => exact hf f' hnext
  · exact logOut_leaves hs ..
  · exact .same rfl hs ht

end Step

def Consistent (w : TelemetryWorld ι) : Prop :=
  ∃ idAt, w.shared.Owned idAt ∧ ∀ i, (w.task i).Known idAt w.shared.subscriber.logOuts

theorem Starts.consistent {w : TelemetryWorld ι} (h : Starts w) : Consistent w := by
  have hcurrent : Known (fun _ => w.shared.subscriber.rovenueId) w.shared.subscriber.logOuts
      w.shared.subscriber := ⟨rfl, le_rfl⟩
  refine ⟨fun _ => w.shared.subscriber.rovenueId, ⟨hcurrent, ⟨?_, ?_⟩, ⟨?_, ?_⟩⟩, fun i => ?_⟩
  · intro e he
    rw [h.sessions.2 e he]
    exact hcurrent
  · simp [Buffer.NeverCrosses, h.sessions.1]
  · intro e he
    rw [h.attributes.2 e he]
    exact hcurrent
  · simp [Buffer.NeverCrosses, h.attributes.1]
  · rw [h.idle i]
    trivial

variable [DecidableEq ι]

theorem Consistent.next {w : TelemetryWorld ι} (h : Consistent w) {e : Event ι Action Empty}
    (hlists : ListsOwn w e) : Consistent (telemetrySystem.next w e) := by
  obtain ⟨idAt, hs, ht⟩ := h
  cases e with
  | env d => exact d.elim
  | act i a =>
    obtain ⟨idAt', hs', hself, hothers⟩ := step_leaves hs (ht i) hlists
    refine ⟨idAt', hs', fun j => ?_⟩
    by_cases hj : j = i
    · subst hj
      simpa [System.next, telemetrySystem] using hself
    · simpa [System.next, telemetrySystem, Function.update_of_ne hj] using hothers _ (ht j)

inductive Caller where
  | app | scheduler
deriving DecidableEq

def firstStart : TelemetryWorld Caller :=
  ⟨⟨⟨"rov_1", 0⟩, .empty, .empty⟩, fun _ => .idle⟩

theorem firstStart_starts : Starts firstStart :=
  ⟨fun _ => rfl, ⟨rfl, by simp [firstStart, Buffer.empty, Fifo.empty]⟩,
    ⟨rfl, by simp [firstStart, Buffer.empty, Fifo.empty]⟩⟩

def openEvent : SessionEvent := ⟨"open", "2026-05-28T10:00:00Z", none⟩

def oneAfterAnother : List (Event Caller Action Empty) :=
  [.act .app (.recordSessionEvent openEvent none), .act .scheduler .flushSessions,
    .act .scheduler (.flush (.list true)), .act .scheduler (.flush (.reply (.ok ()))),
    .act .scheduler (.flush (.delete true)), .act .app (.logOut "rov_2" true),
    .act .app (.proceed true), .act .app (.proceed true), .act .app (.proceed true),
    .act .app (.proceed true), .act .app (.recordSessionEvent openEvent none),
    .act .scheduler .flushSessions, .act .scheduler (.flush (.list true))]

/-- The flush reads the id between the swap and the clear: the event recorded under
the first id is sent under the second. -/
theorem event_sent_under_next_id :
    ∃ v ∈ telemetrySystem.visited firstStart
      [.act .app (.recordSessionEvent openEvent none), .act .app (.logOut "rov_2" true),
        .act .app (.proceed true), .act .scheduler .flushSessions,
        .act .scheduler (.flush (.list true))], ¬ NeverCrosses v.shared := by
  refine ⟨_, System.last_mem_visited, fun h => ?_⟩
  have hposted := h.1 (⟨"rov_2", 1⟩, [(1, ⟨openEvent, ⟨"rov_1", 0⟩⟩)]) (by decide)
  have hids := hposted (1, ⟨openEvent, ⟨"rov_1", 0⟩⟩) (by simp)
  simp at hids

end Rovenue.Sdk
