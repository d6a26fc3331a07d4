import Rovenue.Sdk.TelemetryIdentity

/-! Log-outs that meet no flush. From the swap to the clear a queue may hold rows of
the last subscriber; if no flush looks at it then, what it lists is always its own. -/

namespace Rovenue.Sdk
open Queues Threads

variable {ι R : Type}

def Thread.listing : Thread → Option Subscriber
  | .flushSessions (.listing sub) => some sub
  | .flushAttributes (.listing sub) => some sub
  | _ => none

def Thread.owesSessions : Thread → Prop
  | .logOut .clearTokens | .logOut .clearSessions => True
  | _ => False

def Thread.owesAttributes : Thread → Prop
  | .logOut .clearTokens | .logOut .clearSessions | .logOut .clearAttributes => True
  | _ => False

/-- No swap between a flush's two reads, no listing of a queue a log-out has still
to clear, and no clear that fails. -/
def Thread.Undisturbed (w : TelemetryWorld ι) : Thread → Action → Prop
  | .logOut (.swap _), .proceed _ => ∀ j, (w.task j).listing = none
  | .logOut _, .proceed ok => ok = true
  | .flushSessions (.listing _), .flush (.list true) => ∀ j, ¬ (w.task j).owesSessions
  | .flushAttributes (.listing _), .flush (.list true) => ∀ j, ¬ (w.task j).owesAttributes
  | _, _ => True

def Undisturbed (w : TelemetryWorld ι) : Event ι Action Empty → Prop
  | .act i a => (w.task i).Undisturbed w a
  | .env _ => True

instance (t : Thread) : Decidable t.owesSessions := by
  unfold Thread.owesSessions
  split <;> infer_instance

instance (t : Thread) : Decidable t.owesAttributes := by
  unfold Thread.owesAttributes
  split <;> infer_instance

instance [Fintype ι] (w : TelemetryWorld ι) (t : Thread) (a : Action) :
    Decidable (t.Undisturbed w a) := by
  unfold Thread.Undisturbed
  split <;> infer_instance

instance [Fintype ι] (w : TelemetryWorld ι) (e : Event ι Action Empty) :
    Decidable (Undisturbed w e) :=
  Event.casesOn (motive := fun e => Decidable (Undisturbed w e)) e
    (fun i a => (inferInstance : Decidable ((w.task i).Undisturbed w a))) fun _ => .isTrue trivial

def Buffer.Current (b : Buffer R) (now : ℕ) : Prop := ∀ e ∈ b.queue.rows, e.2.under.logOuts = now

structure Settled (w : TelemetryWorld ι) : Prop where
  listing : ∀ i sub, (w.task i).listing = some sub → sub.logOuts = w.shared.subscriber.logOuts
  sessions : (∃ i, (w.task i).owesSessions) ∨
    w.shared.sessions.Current w.shared.subscriber.logOuts
  attributes : (∃ i, (w.task i).owesAttributes) ∨
    w.shared.attributes.Current w.shared.subscriber.logOuts

theorem Flush.listsOwn_of_current {b : Buffer R} {sub : Subscriber}
    (h : b.Current sub.logOuts) : (Flush.listing sub).ListsOwn b (.list true) :=
  fun e he => h e (Fifo.mem_oldest he)

theorem Settled.listsOwn {w : TelemetryWorld ι} (h : Settled w) {e : Event ι Action Empty}
    (hcond : Undisturbed w e) : ListsOwn w e := by
  cases e with
  | env d => trivial
  | act i a =>
    have hlisting := h.listing i
    have hthread : (w.task i).Undisturbed w a := hcond
    change (w.task i).ListsOwn w.shared a
    generalize w.task i = t at hlisting hthread
    unfold Thread.Undisturbed at hthread
    split at hthread
    · trivial
    · trivial
    · rename_i sub
      rcases h.sessions with ⟨j, hj⟩ | hcurrent
      · exact absurd hj (hthread j)
      · rw [← hlisting sub rfl] at hcurrent
        exact Flush.listsOwn_of_current hcurrent
    · rename_i sub
      rcases h.attributes with ⟨j, hj⟩ | hcurrent
      · exact absurd hj (hthread j)
      · rw [← hlisting sub rfl] at hcurrent
        exact Flush.listsOwn_of_current hcurrent
    · rename_i hsessions hattributes
      unfold Thread.ListsOwn Flush.ListsOwn
      split
      · rename_i f e
        split
        · exact absurd rfl (hsessions _ rfl)
        · trivial
      · rename_i f e
        split
        · exact absurd rfl (hattributes _ rfl)
        · trivial
      · trivial

/-- What a step without a swap must do to one buffer: new rows belong to the current
subscriber, and a debt is settled only by clearing. -/
structure Buffer.Pays (owes owes' : Prop) (sub : Subscriber) (b b' : Buffer R) : Prop where
  rows : ∀ e ∈ b'.queue.rows, e ∈ b.queue.rows ∨ e.2.under = sub
  debt : owes → owes' ∨ b'.queue.rows = []

variable [DecidableEq ι]

theorem Buffer.Pays.update {owes : Thread → Prop} {task : ι → Thread} {i : ι} {t : Thread}
    {sub : Subscriber} {b b' : Buffer R} (hpays : b.Pays (owes (task i)) (owes t) sub b')
    (h : (∃ j, owes (task j)) ∨ b.Current sub.logOuts) :
    (∃ j, owes (Function.update task i t j)) ∨ b'.Current sub.logOuts := by
  rcases h with ⟨j, hj⟩ | hcurrent
  · by_cases hji : j = i
    · subst hji
      rcases hpays.debt hj with hstill | hempty
      · exact .inl ⟨j, by rwa [Function.update_self]⟩
      · right
        intro e he
        rw [hempty] at he
        exact absurd he List.not_mem_nil
    · exact .inl ⟨j, by rwa [Function.update_of_ne hji]⟩
  · right
    intro e he
    rcases hpays.rows e he with he | he
    · exact hcurrent e he
    · rw [he]

theorem Settled.update {w : TelemetryWorld ι} (h : Settled w) {i : ι} {s : Telemetry} {t : Thread}
    (hsub : s.subscriber = w.shared.subscriber)
    (hlisting : ∀ sub, t.listing = some sub → sub.logOuts = s.subscriber.logOuts)
    (hsessions : w.shared.sessions.Pays (w.task i).owesSessions t.owesSessions s.subscriber
      s.sessions)
    (hattributes : w.shared.attributes.Pays (w.task i).owesAttributes t.owesAttributes
      s.subscriber s.attributes) : Settled ⟨s, Function.update w.task i t⟩ where
  listing j sub hj := by
    by_cases hji : j = i
    · subst hji
      exact hlisting sub (by simpa using hj)
    · have hj' : (w.task j).listing = some sub := by simpa [Function.update_of_ne hji] using hj
      simpa [hsub] using h.listing j sub hj'
  sessions := hsessions.update (hsub ▸ h.sessions)
  attributes := hattributes.update (hsub ▸ h.attributes)

theorem Buffer.Pays.refl (owes : Prop) (sub : Subscriber) (b : Buffer R) :
    b.Pays owes owes sub b := ⟨fun _ he => .inl he, .inl⟩

theorem Buffer.Pays.append (owes : Prop) (sub : Subscriber) (b : Buffer R) (cap : ℕ) (row : R)
    (fault : Option AppendFault) :
    b.Pays owes owes sub { b with queue := (append cap ⟨row, sub⟩ fault b.queue).1 } where
  rows e he := by
    rcases mem_append he with he | rfl
    · exact .inl he
    · exact .inr rfl
  debt := .inl

theorem Buffer.Pays.flushOnce (owes : Prop) (sub : Subscriber) (b : Buffer R)
    (drops : RovenueError → Bool) (f : Flush R) (e : FlushEvent) :
    b.Pays owes owes sub (flushOnce drops b f e).1 where
  rows e he := by
    left
    unfold Sdk.flushOnce at he
    split at he
    · simp only at he
      split_ifs at he
      · exact he
      · exact he
    · exact he
    · split at he
      · exact he
      · exact he
    · exact (Fifo.mem_remove.1 he).1
    · exact he
    · exact he
  debt := .inl

theorem flushOnce_listing {drops : RovenueError → Bool} {b : Buffer R} {f : Flush R}
    {e : FlushEvent} {sub : Subscriber} (h : (flushOnce drops b f e).2 = some (.listing sub)) :
    f = .listing sub := by
  unfold flushOnce at h
  split at h
  · simp only at h
    split_ifs at h
    simp at h
  · simp at h
  · split at h
    · simp at h
    · simp only at h
      split_ifs at h
      simp at h
  · simp at h
  · simp at h
  · exact Option.some.inj h

structure Pays (s : Telemetry) (t : Thread) (next : Telemetry × Thread) : Prop where
  subscriber : next.1.subscriber = s.subscriber
  listing : ∀ sub, next.2.listing = some sub → t.listing = some sub ∨ sub = s.subscriber
  sessions : s.sessions.Pays t.owesSessions next.2.owesSessions s.subscriber next.1.sessions
  attributes : s.attributes.Pays t.owesAttributes next.2.owesAttributes s.subscriber
    next.1.attributes

theorem Thread.ofSet_owes (rest : List AttributeMutation) :
    (Thread.ofSet rest).listing = none ∧ (Thread.ofSet rest).owesSessions = False ∧
      (Thread.ofSet rest).owesAttributes = False := by
  cases rest <;> exact ⟨rfl, rfl, rfl⟩

theorem flushSessions_owes (o : Option (Flush SessionEvent)) :
    (∀ sub, (o.elim Thread.idle .flushSessions).listing = some sub → o = some (.listing sub)) ∧
      (o.elim Thread.idle .flushSessions).owesSessions = False ∧
        (o.elim Thread.idle .flushSessions).owesAttributes = False := by
  rcases o with _ | _ | _ | _ <;> exact ⟨by simp [Thread.listing], rfl, rfl⟩

theorem flushAttributes_owes (o : Option (Flush AttributeMutation)) :
    (∀ sub, (o.elim Thread.idle .flushAttributes).listing = some sub → o = some (.listing sub)) ∧
      (o.elim Thread.idle .flushAttributes).owesSessions = False ∧
        (o.elim Thread.idle .flushAttributes).owesAttributes = False := by
  rcases o with _ | _ | _ | _ <;> exact ⟨by simp [Thread.listing], rfl, rfl⟩

theorem logOut_pays {s : Telemetry} {l : LogOut} (hswap : ∀ id, l ≠ .swap id) :
    Pays s (.logOut l) (l.run s true) := by
  cases l with
  | swap id => exact absurd rfl (hswap id)
  | clearTokens => exact ⟨rfl, by simp [LogOut.run, Thread.listing], .refl .., .refl ..⟩
  | clearSessions =>
    refine ⟨rfl, by simp [LogOut.run, Thread.listing], ⟨?_, fun _ => .inr rfl⟩, .refl ..⟩
    simp [LogOut.run]
  | clearAttributes =>
    refine ⟨rfl, by simp [LogOut.run, Thread.listing], .refl .., ⟨?_, fun _ => .inr rfl⟩⟩
    simp [LogOut.run]

theorem step_pays {s : Telemetry} {t : Thread} {a : Action}
    (hlogOut : ∀ l ok, t = .logOut l → a = .proceed ok → ok = true ∧ ∀ id, l ≠ .swap id) :
    Pays s t (s.step t a) := by
  unfold Telemetry.step
  split
  · split_ifs
    · exact ⟨rfl, by simp [Thread.listing], .refl .., .refl ..⟩
    · exact ⟨rfl, by simp [Thread.listing], .refl .., .refl ..⟩
  · exact ⟨rfl, by simp [Thread.listing], .append .., .refl ..⟩
  · rename_i rest
    obtain ⟨hl, hs, ha⟩ := Thread.ofSet_owes rest
    refine ⟨rfl, by simp [hl], ?_, ?_⟩
    · rw [hs]
      exact .refl ..
    · rw [ha]
      exact .refl ..
  · rw [Telemetry.subscriberId]
    split_ifs
    · exact ⟨rfl, by simp [Thread.listing], .refl .., .refl ..⟩
    · exact ⟨rfl, by simp [Thread.listing, eq_comm], .refl .., .refl ..⟩
  · rw [Telemetry.subscriberId]
    split_ifs
    · exact ⟨rfl, by simp [Thread.listing], .refl .., .refl ..⟩
    · exact ⟨rfl, by simp [Thread.listing, eq_comm], .refl .., .refl ..⟩
  · rename_i m rest fault
    obtain ⟨hl, hs, ha⟩ := Thread.ofSet_owes rest
    split_ifs
    · refine ⟨rfl, by simp [hl], ?_, ?_⟩
      · rw [hs]
        exact .refl ..
      · rw [ha]
        exact .append ..
    · exact ⟨rfl, by simp [Thread.listing], .refl .., .append ..⟩
  · rename_i f e
    obtain ⟨hl, hs, ha⟩ := flushSessions_owes (flushOnce sessionDrops s.sessions f e).2
    refine ⟨rfl, fun sub hsub => .inl ?_, ?_, ?_⟩
    · rw [flushOnce_listing (hl sub hsub)]
      rfl
    · simp only [hs]
      exact .flushOnce ..
    · simp only [ha]
      exact .refl ..
  · rename_i f e
    obtain ⟨hl, hs, ha⟩ := flushAttributes_owes (flushOnce attributeDrops s.attributes f e).2
    refine ⟨rfl, fun sub hsub => .inl ?_, ?_, ?_⟩
    · rw [flushOnce_listing (hl sub hsub)]
      rfl
    · simp only [hs]
      exact .refl ..
    · simp only [ha]
      exact .flushOnce ..
  · rename_i l ok
    obtain ⟨rfl, hswap⟩ := hlogOut l ok rfl rfl
    exact logOut_pays hswap
  · exact ⟨rfl, fun sub hsub => .inl hsub, .refl .., .refl ..⟩

theorem Settled.next {w : TelemetryWorld ι} (h : Settled w) {e : Event ι Action Empty}
    (hcond : Undisturbed w e) : Settled (telemetrySystem.next w e) := by
  cases e with
  | env d => exact d.elim
  | act i a =>
    have hthread : (w.task i).Undisturbed w a := hcond
    by_cases hswap : ∃ id ok, w.task i = .logOut (.swap id) ∧ a = .proceed ok
    · obtain ⟨id, ok, htask, rfl⟩ := hswap
      rw [htask] at hthread
      have hnext : telemetrySystem.next w (.act i (.proceed ok)) =
          ⟨{ w.shared with subscriber := ⟨id, w.shared.subscriber.logOuts + 1⟩ },
            Function.update w.task i (.logOut .clearTokens)⟩ := by
        simp [System.next, telemetrySystem, htask, Telemetry.step, LogOut.run]
      rw [hnext]
      refine ⟨fun j sub hj => ?_, .inl ⟨i, by simp [Thread.owesSessions]⟩,
        .inl ⟨i, by simp [Thread.owesAttributes]⟩⟩
      by_cases hji : j = i
      · subst hji
        simp [Thread.listing] at hj
      · have hnone : (w.task j).listing = none := hthread j
        simp [Function.update_of_ne hji, hnone] at hj
    · have hpays : Pays w.shared (w.task i) (w.shared.step (w.task i) a) := by
        refine step_pays fun l ok htask ha => ?_
        subst ha
        have hno : ∀ id, l ≠ .swap id := fun id hl => hswap ⟨id, ok, by rw [htask, hl], rfl⟩
        refine ⟨?_, hno⟩
        rw [htask] at hthread
        cases l with
        | swap id => exact absurd rfl (hno id)
        | clearTokens => exact hthread
        | clearSessions => exact hthread
        | clearAttributes => exact hthread
      have hsub := hpays.subscriber
      refine h.update hsub (fun sub hlisting => ?_) (hsub ▸ hpays.sessions)
        (hsub ▸ hpays.attributes)
      rcases hpays.listing sub hlisting with hold | rfl
      · exact (h.listing i sub hold).trans (congrArg Subscriber.logOuts hsub.symm)
      · exact congrArg Subscriber.logOuts hsub.symm

/-- Log-outs that meet no flush, and whose clears all succeed, never let telemetry cross. -/
theorem never_crosses_of_undisturbed {w : TelemetryWorld ι} (hstart : Starts w)
    (evs : List (Event ι Action Empty))
    (hcond : ∀ x ∈ telemetrySystem.transitions w evs, Undisturbed x.1 x.2) :
    ∀ v ∈ telemetrySystem.visited w evs, NeverCrosses v.shared := by
  let Inv : TelemetryWorld ι → Prop := fun w => Consistent w ∧ Settled w
  have hstep : ∀ w e, Inv w → Undisturbed w e → Inv (telemetrySystem.next w e) :=
    fun w e h hcond => ⟨h.1.next (h.2.listsOwn hcond), h.2.next hcond⟩
  have hinit : Inv w := by
    refine ⟨hstart.consistent, fun i sub hi => ?_, .inr fun e he => ?_, .inr fun e he => ?_⟩
    · rw [hstart.idle i] at hi
      cases hi
    · rw [hstart.sessions.2 e he]
    · rw [hstart.attributes.2 e he]
  intro v hv
  obtain ⟨⟨idAt, hs, -⟩, -⟩ := System.visited_induct hstep hinit hcond v hv
  exact ⟨hs.sessions.posted, hs.attributes.posted⟩

instance : Fintype Caller := ⟨{.app, .scheduler}, by rintro (_ | _) <;> simp⟩

theorem never_crosses_oneAfterAnother :
    NeverCrosses (telemetrySystem.runAll firstStart oneAfterAnother).shared :=
  never_crosses_of_undisturbed firstStart_starts oneAfterAnother (by decide) _
    System.last_mem_visited

end Rovenue.Sdk
