import Rovenue.Sdk.AttributeMap
import Rovenue.Sdk.Telemetry

/-! The attribute queue and the server that applies its POSTs, each whenever the network
delivers it: once, again, or after its flush has given up. -/

namespace Rovenue.Sdk
open Queues Threads

/-- `sets` are the mutations ever queued under their ids, `applied` the POSTs the server
applied, by their place among those sent. -/
structure AttributeSync where
  telemetry : Telemetry
  sets : List (ℕ × AttributeMutation)
  applied : List ℕ
  server : Attributes

namespace AttributeSync
variable (s : AttributeSync)

def queue : Fifo (Recorded AttributeMutation) := s.telemetry.attributes.queue

def posted : List (Subscriber × List (ℕ × Recorded AttributeMutation)) :=
  s.telemetry.attributes.posted

def request (n : ℕ) : List (ℕ × AttributeMutation) :=
  (s.posted[n]?.elim [] Prod.snd).map fun r => (r.1, r.2.row)

def queued : Thread → Action → List (ℕ × AttributeMutation)
  | .setAttributes (m :: _), .append fault =>
    if fault = some .insert then [] else [(s.queue.next, m)]
  | _, _ => []

def step (t : Thread) (a : Action) : AttributeSync × Thread :=
  let (telemetry, t') := s.telemetry.step t a
  ({ s with telemetry := telemetry, sets := s.sets ++ s.queued t a }, t')

def deliver (n : ℕ) : AttributeSync :=
  if n < s.posted.length then
    { s with
      applied := s.applied ++ [n]
      server := applyInOrder s.server (coalesce ((s.request n).map Prod.snd)) }
  else s

end AttributeSync

def attributeSystem : System AttributeSync Thread Action ℕ where
  step := AttributeSync.step
  env s n := s.deliver n
  reset t _ := t

/-- A thread that has no POST under way and does not log out. -/
def Thread.Bare : Thread → Prop
  | .idle | .setAttributes _ | .flushSessions _ | .flushAttributes (.listing _) => True
  | _ => False

inductive AttributeMove (s : Telemetry) :
    Thread → Action → Buffer AttributeMutation → Thread → Prop
  | keeps {t a t'} (hset : ∀ m rest fault, t = .setAttributes (m :: rest) → a ≠ .append fault)
      (ht : t'.Bare ∨ t' = t) :
      AttributeMove s t a s.attributes t'
  | appends {m rest fault t'} (ht : t'.Bare) :
      AttributeMove s (.setAttributes (m :: rest)) (.append fault)
        { s.attributes with
          queue := (append attributeMutationsCap ⟨m, s.subscriber⟩ fault s.attributes.queue).1 } t'
  | lists {sub} :
      AttributeMove s (.flushAttributes (.listing sub)) (.flush (.list true))
        { s.attributes with
          posted := s.attributes.posted ++ [(sub, s.attributes.queue.oldest flushPage)] }
        (.flushAttributes (.posting s.attributes.posted.length
          (s.attributes.queue.oldest flushPage)))
  | settles {n rows result}
      (h : result = .ok () ∨ ∃ err, result = .error err ∧ attributeDrops err = true) :
      AttributeMove s (.flushAttributes (.posting n rows)) (.flush (.reply result)) s.attributes
        (.flushAttributes (.deleting (rows.map Prod.fst)))
  | deletes {ids} :
      AttributeMove s (.flushAttributes (.deleting ids)) (.flush (.delete true))
        { s.attributes with queue := s.attributes.queue.remove ids } .idle

theorem Thread.bare_ofSet (rest : List AttributeMutation) : (Thread.ofSet rest).Bare := by
  cases rest <;> trivial

theorem Thread.bare_sessions (o : Option (Flush SessionEvent)) :
    (o.elim Thread.idle .flushSessions).Bare := by
  cases o <;> trivial

theorem flush_move {s : Telemetry} (f : Flush AttributeMutation) (e : FlushEvent) :
    AttributeMove s (.flushAttributes f) (.flush e) (flushOnce attributeDrops s.attributes f e).1
      ((flushOnce attributeDrops s.attributes f e).2.elim .idle .flushAttributes) := by
  have hset : ∀ m rest fault, Thread.flushAttributes f = .setAttributes (m :: rest) →
      Action.flush e ≠ .append fault := by
    rintro m rest fault ⟨⟩
  unfold flushOnce
  split
  · simp only
    split_ifs
    · exact .keeps hset (.inl trivial)
    · exact .lists
  · exact .keeps hset (.inl trivial)
  · rename_i n rows result
    cases result with
    | ok => exact .settles (.inl rfl)
    | error err =>
      simp only
      split_ifs with hdrops
      · exact .settles (.inr ⟨err, rfl, hdrops⟩)
      · exact .keeps hset (.inl trivial)
  · exact .deletes
  · exact .keeps hset (.inl trivial)
  · exact .keeps hset (.inr rfl)

theorem step_move {s : Telemetry} {t : Thread} {a : Action} (hlogOut : ∀ l, t ≠ .logOut l)
    (hcall : ∀ id saved, t = .idle → a ≠ .logOut id saved) :
    AttributeMove s t a (s.step t a).1.attributes (s.step t a).2 := by
  unfold Telemetry.step
  split
  · rename_i id saved
    exact absurd rfl (hcall id saved rfl)
  · exact .keeps (by rintro m rest fault ⟨⟩) (.inl trivial)
  · exact .keeps (by rintro m rest fault ⟨⟩) (.inl (Thread.bare_ofSet _))
  · refine .keeps (by rintro m rest fault ⟨⟩) (.inl ?_)
    rw [Telemetry.subscriberId]
    split_ifs <;> trivial
  · refine .keeps (by rintro m rest fault ⟨⟩) (.inl ?_)
    rw [Telemetry.subscriberId]
    split_ifs <;> trivial
  · refine .appends ?_
    split_ifs
    · exact Thread.bare_ofSet _
    · trivial
  · rename_i f e
    exact .keeps (by rintro m rest fault ⟨⟩) (.inl (Thread.bare_sessions _))
  · exact flush_move _ _
  · rename_i l ok
    exact absurd rfl (hlogOut l)
  · rename_i hset _ _ _
    exact .keeps hset (.inr rfl)

end Rovenue.Sdk
