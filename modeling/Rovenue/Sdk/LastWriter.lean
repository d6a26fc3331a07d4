import Rovenue.Sdk.AttributeSync

/-! Whether the last set of an attribute wins. Nothing keeps two flushes apart, so the
POST of an older page can be applied after the POST of a newer one. -/

namespace Rovenue.Sdk
open Queues Threads

variable {ι : Type} {s s' : AttributeSync} {t : Thread} {a : Action}

abbrev AttributeWorld (ι : Type) := World ι AttributeSync Thread

/-- What the server holds when the last mutation of each key decides. -/
def LastWriterWins (server₀ : Attributes) (s : AttributeSync) : Prop :=
  ∀ key, s.server key = (lastValue (s.sets.map Prod.snd) key).getD (server₀ key)

/-- The queue is empty and no flush is in progress. -/
def Flushed (w : AttributeWorld ι) : Prop :=
  w.shared.queue.rows = [] ∧ ∀ i f, w.task i ≠ .flushAttributes f

/-- A process that starts, with the mutations an earlier one left in the queue. -/
structure SyncStarts (w : AttributeWorld ι) : Prop where
  idle : ∀ i, w.task i = .idle
  posted : w.shared.posted = []
  applied : w.shared.applied = []
  sets : w.shared.sets = w.shared.queue.rows.map fun r => (r.1, r.2.row)

/-- One user, and requests that succeed in the end: nobody logs out, only an applied POST
is answered with success, and none is rejected for good. -/
def Thread.Served (s : AttributeSync) : Thread → Action → Prop
  | .idle, .logOut _ _ => False
  | .flushAttributes (.posting n _), .flush (.reply (.ok ())) => n ∈ s.applied
  | .flushAttributes (.posting _ _), .flush (.reply (.error err)) => attributeDrops err = false
  | _, _ => True

def Served (w : AttributeWorld ι) : Event ι Action ℕ → Prop
  | .act i a => (w.task i).Served w.shared a
  | .env _ => True

/-- The queue has room for what is appended. -/
def Thread.HasRoom (s : AttributeSync) : Thread → Action → Prop
  | .setAttributes _, .append _ => s.queue.rows.length < attributeMutationsCap
  | _, _ => True

def AttributeSync.NotStale (s : AttributeSync) (n : ℕ) : Prop :=
  ∀ m ∈ s.applied, ∀ e ∈ s.request m, ∀ f ∈ s.request n, f.2.key = e.2.key →
    ∃ g ∈ s.request n, g.2.key = e.2.key ∧ e.1 ≤ g.1

/-- No append overflows the queue, and no POST is applied after a later one of a key it names. -/
def InSequence (w : AttributeWorld ι) : Event ι Action ℕ → Prop
  | .act i a => (w.task i).HasRoom w.shared a
  | .env n => w.shared.NotStale n

section Decidable
variable (s : AttributeSync) (t : Thread) (a : Action) (n : ℕ)

instance : Decidable (t.Served s a) := by
  unfold Thread.Served
  split <;> infer_instance

instance : Decidable (t.HasRoom s a) := by
  unfold Thread.HasRoom
  split <;> infer_instance

instance : Decidable (s.NotStale n) := by
  unfold AttributeSync.NotStale
  infer_instance

instance (w : AttributeWorld ι) (e : Event ι Action ℕ) : Decidable (Served w e) := by
  unfold Served
  split <;> infer_instance

instance (w : AttributeWorld ι) (e : Event ι Action ℕ) : Decidable (InSequence w e) := by
  unfold InSequence
  split <;> infer_instance

end Decidable

def AttributeSync.Applied (s : AttributeSync) (e : ℕ × AttributeMutation) : Prop :=
  ∃ n ∈ s.applied, e ∈ s.request n

/-- The queue's rows and the POSTs are made of what was set, and what was set is queued
or applied. -/
structure Traced (s : AttributeSync) : Prop where
  sorted : s.sets.Pairwise fun e f => e.1 < f.1
  below : ∀ e ∈ s.sets, e.1 < s.queue.next
  queued : ∀ r ∈ s.queue.rows, (r.1, r.2.row) ∈ s.sets
  requests : ∀ n, ∀ e ∈ s.request n, e ∈ s.sets
  ordered : ∀ n, (s.request n).Pairwise fun e f => e.1 < f.1
  applied : ∀ n ∈ s.applied, n < s.posted.length
  delivered : ∀ e ∈ s.sets, (∃ r ∈ s.queue.rows, r.1 = e.1) ∨ s.Applied e

def Thread.Traced (s : AttributeSync) : Thread → Prop
  | .logOut _ => False
  | .flushAttributes (.posting n rows) =>
    n < s.posted.length ∧ s.request n = rows.map fun r => (r.1, r.2.row)
  | .flushAttributes (.deleting ids) =>
    (∀ id ∈ ids, id < s.queue.next) ∧ ∀ e ∈ s.sets, e.1 ∈ ids → s.Applied e
  | _ => True

def NewestApplied (server₀ : Attributes) (s : AttributeSync) : Prop :=
  ∀ key, (s.server key = server₀ key ∧ ∀ e, s.Applied e → e.2.key ≠ key) ∨
    ∃ e, s.Applied e ∧ e.2.key = key ∧ s.server key = e.2.value ∧
      ∀ f, s.Applied f → f.2.key = key → f.1 ≤ e.1

structure Extends (s s' : AttributeSync) : Prop where
  applied : s'.applied = s.applied
  server : s'.server = s.server
  posted : ∃ l, s'.posted = s.posted ++ l
  sets : ∃ l, s'.sets = s.sets ++ l ∧ ∀ e ∈ l, s.queue.next ≤ e.1
  next : s.queue.next ≤ s'.queue.next

theorem Extends.of_same (hp : s'.posted = s.posted) (hsets : s'.sets = s.sets)
    (happlied : s'.applied = s.applied) (hserver : s'.server = s.server)
    (hnext : s.queue.next ≤ s'.queue.next) : Extends s s' where
  applied := happlied
  server := hserver
  posted := ⟨[], by rw [hp, List.append_nil]⟩
  sets := ⟨[], by rw [hsets, List.append_nil], by simp⟩
  next := hnext

theorem request_of_lt {n : ℕ} (hposted : ∃ l, s'.posted = s.posted ++ l)
    (hn : n < s.posted.length) : s'.request n = s.request n := by
  obtain ⟨l, hl⟩ := hposted
  rw [AttributeSync.request, AttributeSync.request, hl, List.getElem?_append_left hn]

theorem Extends.applied_iff (h : Extends s s') (hs : Traced s) {e : ℕ × AttributeMutation} :
    s'.Applied e ↔ s.Applied e := by
  unfold AttributeSync.Applied
  rw [h.applied]
  constructor
  · rintro ⟨n, hn, he⟩
    exact ⟨n, hn, by rwa [request_of_lt h.posted (hs.applied n hn)] at he⟩
  · rintro ⟨n, hn, he⟩
    exact ⟨n, hn, by rwa [request_of_lt h.posted (hs.applied n hn)]⟩

theorem Extends.newestApplied (h : Extends s s') (hs : Traced s) {server₀ : Attributes}
    (hnew : NewestApplied server₀ s) : NewestApplied server₀ s' := by
  intro key
  simp only [h.applied_iff hs, h.server]
  exact hnew key

theorem Extends.thread (h : Extends s s') (hs : Traced s) (ht : t.Traced s) : t.Traced s' := by
  unfold Thread.Traced at ht ⊢
  split
  · exact ht
  · obtain ⟨l, hl⟩ := h.posted
    refine ⟨?_, (request_of_lt h.posted ht.1).trans ht.2⟩
    rw [hl, List.length_append]
    exact Nat.lt_add_right _ ht.1
  · obtain ⟨l, hl, hnew⟩ := h.sets
    refine ⟨fun id hid => (ht.1 id hid).trans_le h.next, fun e he hid => ?_⟩
    rw [hl] at he
    rcases List.mem_append.1 he with he | he
    · exact (h.applied_iff hs).2 (ht.2 e he hid)
    · exact absurd (ht.1 e.1 hid) (hnew e he).not_gt
  · trivial

theorem Traced.congr (h : Traced s) (hq : s'.queue = s.queue) (hp : s'.posted = s.posted)
    (hsets : s'.sets = s.sets) (happlied : s'.applied = s.applied) : Traced s' := by
  have hrequest : ∀ n, s'.request n = s.request n := by
    intro n
    rw [AttributeSync.request, AttributeSync.request, hp]
  refine ⟨?_, ?_, ?_, ?_, ?_, ?_, ?_⟩ <;>
    simp only [AttributeSync.Applied, hq, hp, hsets, happlied, hrequest]
  · exact h.sorted
  · exact h.below
  · exact h.queued
  · exact h.requests
  · exact h.ordered
  · exact h.applied
  · exact h.delivered

theorem append_room (r : Recorded AttributeMutation) (fault : Option AppendFault)
    {q : Fifo (Recorded AttributeMutation)} (hroom : q.rows.length < attributeMutationsCap) :
    (append attributeMutationsCap r fault q).1.rows =
        q.rows ++ (if fault = some .insert then [] else [(q.next, r)]) ∧
      (append attributeMutationsCap r fault q).1.next =
        if fault = some .insert then q.next else q.next + 1 := by
  rcases fault with _ | _ | _
  · have hkeep : q.rows.length + 1 - attributeMutationsCap = 0 := by omega
    refine ⟨?_, rfl⟩
    simp [append, hkeep]
  · simp [append]
  · refine ⟨?_, rfl⟩
    simp [append]

theorem Traced.set (h : Traced s) (row : Recorded AttributeMutation)
    (hrows : s'.queue.rows = s.queue.rows ++ [(s.queue.next, row)])
    (hnext : s'.queue.next = s.queue.next + 1) (hp : s'.posted = s.posted)
    (hsets : s'.sets = s.sets ++ [(s.queue.next, row.row)]) (happlied : s'.applied = s.applied) :
    Traced s' := by
  have hrequest : ∀ n, s'.request n = s.request n := by
    intro n
    rw [AttributeSync.request, AttributeSync.request, hp]
  refine ⟨?_, ?_, ?_, ?_, ?_, ?_, ?_⟩
  · rw [hsets, List.pairwise_append]
    refine ⟨h.sorted, List.pairwise_singleton .., fun e he f hf => ?_⟩
    rw [List.mem_singleton.1 hf]
    exact h.below e he
  · intro e he
    rw [hsets] at he
    rw [hnext]
    rcases List.mem_append.1 he with he | he
    · exact Nat.lt_succ_of_lt (h.below e he)
    · rw [List.mem_singleton.1 he]
      exact Nat.lt_succ_self _
  · intro r hr
    rw [hrows] at hr
    rw [hsets]
    rcases List.mem_append.1 hr with hr | hr
    · exact List.mem_append_left _ (h.queued r hr)
    · rw [List.mem_singleton.1 hr]
      exact List.mem_append_right _ (List.mem_singleton.2 rfl)
  · intro n e he
    rw [hrequest] at he
    rw [hsets]
    exact List.mem_append_left _ (h.requests n e he)
  · intro n
    rw [hrequest]
    exact h.ordered n
  · intro n hn
    rw [happlied] at hn
    rw [hp]
    exact h.applied n hn
  · intro e he
    rw [hsets] at he
    simp only [AttributeSync.Applied, happlied, hrequest, hrows]
    rcases List.mem_append.1 he with he | he
    · rcases h.delivered e he with ⟨r, hr, hid⟩ | happ
      · exact .inl ⟨r, List.mem_append_left _ hr, hid⟩
      · exact .inr happ
    · rw [List.mem_singleton.1 he]
      exact .inl ⟨_, List.mem_append_right _ (List.mem_singleton.2 rfl), rfl⟩

theorem request_snoc {sub : Subscriber} {page : List (ℕ × Recorded AttributeMutation)}
    (hp : s'.posted = s.posted ++ [(sub, page)]) (n : ℕ) :
    s'.request n =
      if n = s.posted.length then page.map (fun r => (r.1, r.2.row)) else s.request n := by
  rw [AttributeSync.request, AttributeSync.request, hp]
  split_ifs with hn
  · subst hn
    simp
  · rcases Nat.lt_or_gt_of_ne hn with hlt | hgt
    · rw [List.getElem?_append_left hlt]
    · rw [List.getElem?_eq_none (by simpa using hgt), List.getElem?_eq_none hgt.le]

theorem Traced.post (h : Traced s) {sub : Subscriber} {limit : ℕ} (hq : s'.queue = s.queue)
    (hp : s'.posted = s.posted ++ [(sub, s.queue.oldest limit)]) (hsets : s'.sets = s.sets)
    (happlied : s'.applied = s.applied) : Traced s' := by
  have hrequest := request_snoc hp
  have happ : ∀ e, s.Applied e → s'.Applied e := by
    rintro e ⟨n, hn, he⟩
    refine ⟨n, happlied ▸ hn, ?_⟩
    rwa [hrequest, if_neg (h.applied n hn).ne]
  refine ⟨?_, ?_, ?_, fun n e he => ?_, fun n => ?_, fun n hn => ?_, fun e he => ?_⟩
  · rw [hsets]
    exact h.sorted
  · rw [hsets, hq]
    exact h.below
  · rw [hsets, hq]
    exact h.queued
  · rw [hrequest] at he
    rw [hsets]
    split_ifs at he
    · obtain ⟨r, hr, rfl⟩ := List.mem_map.1 he
      exact h.queued r (Fifo.mem_oldest hr)
    · exact h.requests n e he
  · rw [hrequest]
    split_ifs
    · have hpage : (s.queue.oldest limit).Pairwise fun e f => e.1 < f.1 :=
        s.queue.sorted.sublist (List.take_sublist ..)
      exact List.pairwise_map.2 hpage
    · exact h.ordered n
  · rw [happlied] at hn
    rw [hp, List.length_append]
    exact Nat.lt_add_right _ (h.applied n hn)
  · rw [hsets] at he
    rw [hq]
    exact (h.delivered e he).imp_right (happ e)

theorem Traced.remove (h : Traced s) {ids : List ℕ}
    (hids : ∀ e ∈ s.sets, e.1 ∈ ids → s.Applied e) (hq : s'.queue = s.queue.remove ids)
    (hp : s'.posted = s.posted) (hsets : s'.sets = s.sets) (happlied : s'.applied = s.applied) :
    Traced s' := by
  have hrequest : ∀ n, s'.request n = s.request n := by
    intro n
    rw [AttributeSync.request, AttributeSync.request, hp]
  have happ : ∀ e, s'.Applied e ↔ s.Applied e := by
    intro e
    simp only [AttributeSync.Applied, happlied, hrequest]
  refine ⟨?_, ?_, fun r hr => ?_, fun n e he => ?_, fun n => ?_, fun n hn => ?_, fun e he => ?_⟩
  · rw [hsets]
    exact h.sorted
  · rw [hsets, hq]
    exact h.below
  · rw [hq] at hr
    rw [hsets]
    exact h.queued r (Fifo.mem_remove.1 hr).1
  · rw [hrequest] at he
    rw [hsets]
    exact h.requests n e he
  · rw [hrequest]
    exact h.ordered n
  · rw [happlied] at hn
    rw [hp]
    exact h.applied n hn
  · rw [hsets] at he
    rw [happ, hq]
    rcases h.delivered e he with ⟨r, hr, hid⟩ | hdone
    · by_cases hmem : e.1 ∈ ids
      · exact .inr (hids e he hmem)
      · exact .inl ⟨r, Fifo.mem_remove.2 ⟨hr, by rwa [hid]⟩, hid⟩
    · exact .inr hdone

theorem Traced.unique (h : Traced s) {e f : ℕ × AttributeMutation} (he : e ∈ s.sets)
    (hf : f ∈ s.sets) (hid : e.1 = f.1) : e = f := by
  have hinj : ∀ a ∈ s.sets, ∀ b ∈ s.sets, a.1 = b.1 → a = b := by
    have hkeys : (s.sets.map Prod.fst).Nodup :=
      (List.pairwise_map.2 (h.sorted.imp fun hlt => hlt)).imp fun hlt => ne_of_lt hlt
    intro a ha b hb hab
    exact List.inj_on_of_nodup_map hkeys ha hb hab
  exact hinj e he f hf hid

theorem Thread.Bare.traced (h : t.Bare) (s : AttributeSync) : t.Traced s := by
  unfold Thread.Bare at h
  split at h <;> trivial

theorem Traced.append (h : Traced s) {row : Recorded AttributeMutation}
    {fault : Option AppendFault} (hroom : s.queue.rows.length < attributeMutationsCap)
    (hq : s'.queue = (append attributeMutationsCap row fault s.queue).1) (hp : s'.posted = s.posted)
    (hsets : s'.sets = s.sets ++ if fault = some .insert then [] else [(s.queue.next, row.row)])
    (happlied : s'.applied = s.applied) (hserver : s'.server = s.server) :
    Traced s' ∧ Extends s s' := by
  obtain ⟨hrows, hnext⟩ := append_room row fault hroom
  rw [← hq] at hrows hnext
  by_cases hfault : fault = some .insert
  · subst hfault
    have hsame : s'.sets = s.sets := by
      rw [hsets, if_pos rfl, List.append_nil]
    exact ⟨h.congr hq hp hsame happlied, .of_same hp hsame happlied hserver hnext.ge⟩
  · rw [if_neg hfault] at hrows hnext hsets
    refine ⟨h.set row hrows hnext hp hsets happlied, happlied, hserver,
      ⟨[], by rw [hp, List.append_nil]⟩, ⟨_, hsets, by simp⟩, ?_⟩
    rw [hnext]
    exact Nat.le_succ _

theorem Traced.deleting (h : Traced s) (hext : Extends s s') (hsets : s'.sets = s.sets) {n : ℕ}
    {rows : List (ℕ × Recorded AttributeMutation)}
    (hrequest : s.request n = rows.map fun r => (r.1, r.2.row)) (hdone : n ∈ s.applied) :
    (Thread.flushAttributes (.deleting (rows.map Prod.fst))).Traced s' := by
  have hmem : ∀ r ∈ rows, (r.1, r.2.row) ∈ s.request n := by
    intro r hr
    rw [hrequest]
    exact List.mem_map.2 ⟨r, hr, rfl⟩
  constructor
  · intro id hid
    obtain ⟨r, hr, rfl⟩ := List.mem_map.1 hid
    exact (h.below _ (h.requests n _ (hmem r hr))).trans_le hext.next
  · intro e he hid
    obtain ⟨r, hr, hrid⟩ := List.mem_map.1 hid
    rw [hsets] at he
    have heq := h.unique he (h.requests n _ (hmem r hr)) hrid.symm
    exact (hext.applied_iff h).2 ⟨n, hdone, heq ▸ hmem r hr⟩

theorem posting_traced {sub : Subscriber} {limit : ℕ}
    (hp : s'.posted = s.posted ++ [(sub, s.queue.oldest limit)]) :
    (Thread.flushAttributes (.posting s.posted.length (s.queue.oldest limit))).Traced s' := by
  constructor
  · rw [hp, List.length_append]
    exact Nat.lt_succ_self _
  · exact (request_snoc hp _).trans (if_pos rfl)

theorem step_traced (h : Traced s) (ht : t.Traced s) (hserved : t.Served s a)
    (hroom : t.HasRoom s a) :
    Traced (s.step t a).1 ∧ (s.step t a).2.Traced (s.step t a).1 ∧ Extends s (s.step t a).1 := by
  have hlogOut : ∀ l, t ≠ .logOut l := by
    rintro l rfl
    exact ht
  have hcall : ∀ id saved, t = .idle → a ≠ .logOut id saved := by
    rintro id saved rfl rfl
    exact hserved
  have hmove := @step_move s.telemetry t a hlogOut hcall
  have hq : (s.step t a).1.queue = (s.telemetry.step t a).1.attributes.queue := rfl
  have hp : (s.step t a).1.posted = (s.telemetry.step t a).1.attributes.posted := rfl
  have hsets : (s.step t a).1.sets = s.sets ++ s.queued t a := rfl
  have happlied : (s.step t a).1.applied = s.applied := rfl
  have hserver : (s.step t a).1.server = s.server := rfl
  change Traced (s.step t a).1 ∧ (s.telemetry.step t a).2.Traced (s.step t a).1 ∧
    Extends s (s.step t a).1
  generalize (s.step t a).1 = s' at hq hp hsets happlied hserver ⊢
  generalize (s.telemetry.step t a).1.attributes = b at hq hp hmove
  generalize (s.telemetry.step t a).2 = t' at hmove ⊢
  cases hmove with
  | keeps hset hbare =>
    have hnone : s.queued t a = [] := by
      unfold AttributeSync.queued
      split
      · exact absurd rfl (hset _ _ _ rfl)
      · rfl
    rw [hnone, List.append_nil] at hsets
    have hext : Extends s s' := .of_same hp hsets happlied hserver (by rw [hq]; rfl)
    refine ⟨h.congr hq hp hsets happlied, ?_, hext⟩
    rcases hbare with hbare | rfl
    · exact hbare.traced s'
    · exact hext.thread h ht
  | appends hbare =>
    obtain ⟨htraced, hext⟩ := h.append hroom hq hp hsets happlied hserver
    exact ⟨htraced, hbare.traced s', hext⟩
  | lists =>
    have hsame : s'.sets = s.sets := hsets.trans (List.append_nil _)
    exact ⟨h.post hq hp hsame happlied, posting_traced hp, happlied, hserver, ⟨_, hp⟩,
      ⟨[], hsets, by simp⟩, by rw [hq]; rfl⟩
  | settles hresult =>
    rename_i n rows result
    have hsame : s'.sets = s.sets := hsets.trans (List.append_nil _)
    have hext : Extends s s' := .of_same hp hsame happlied hserver (by rw [hq]; rfl)
    have hdone : n ∈ s.applied := by
      rcases hresult with rfl | ⟨err, rfl, hdrops⟩
      · exact hserved
      · have hkept : attributeDrops err = false := hserved
        rw [hkept] at hdrops
        cases hdrops
    exact ⟨h.congr hq hp hsame happlied, h.deleting hext hsame ht.2 hdone, hext⟩
  | deletes =>
    have hsame : s'.sets = s.sets := hsets.trans (List.append_nil _)
    exact ⟨h.remove ht.2 hq hp hsame happlied, trivial,
      .of_same hp hsame happlied hserver (by rw [hq]; rfl)⟩

theorem deliver_newest (h : Traced s) {server₀ : Attributes} (hnew : NewestApplied server₀ s)
    {n : ℕ} (hn : n < s.posted.length) (hfresh : s.NotStale n) :
    NewestApplied server₀ (s.deliver n) := by
  have happ : ∀ e, (s.deliver n).Applied e ↔ s.Applied e ∨ e ∈ s.request n := by
    intro e
    have hdef : (s.deliver n).Applied e ↔ ∃ m ∈ s.applied ++ [n], e ∈ s.request m := by
      rw [AttributeSync.deliver, if_pos hn]
      exact Iff.rfl
    rw [hdef]
    simp only [List.mem_append, List.mem_singleton, or_and_right, exists_or, exists_eq_left]
    exact Iff.rfl
  have hserver : (s.deliver n).server =
      applyInOrder s.server (coalesce ((s.request n).map Prod.snd)) := by
    rw [AttributeSync.deliver, if_pos hn]
  intro key
  simp only [hserver, applyInOrder, get?_coalesce, happ]
  by_cases hnames : ∃ e ∈ s.request n, e.2.key = key
  · right
    obtain ⟨e, he, rfl, hmax⟩ := exists_greatest (h.ordered n) hnames
    refine ⟨e, .inr he, rfl, ?_, ?_⟩
    · rw [lastValue_of_greatest (h.ordered n) he hmax]
      rfl
    · rintro f (⟨m, hm, hf⟩ | hf) hkey
      · obtain ⟨g, hg, hgkey, hle⟩ := hfresh m hm f hf e he hkey.symm
        exact hle.trans (hmax g hg (hgkey.trans hkey))
      · exact hmax f hf hkey
  · have hnone : lastValue ((s.request n).map Prod.snd) key = none := by
      rw [lastValue_eq_none]
      intro r hr hkey
      obtain ⟨e, he, rfl⟩ := List.mem_map.1 hr
      exact hnames ⟨e, he, hkey⟩
    rw [hnone]
    rcases hnew key with ⟨hsame, hnot⟩ | ⟨e, he, hkey, hval, hmax⟩
    · left
      refine ⟨hsame, ?_⟩
      rintro e (he | he)
      · exact hnot e he
      · exact fun hkey => hnames ⟨e, he, hkey⟩
    · right
      refine ⟨e, .inl he, hkey, hval, ?_⟩
      rintro f (hf | hf) hfkey
      · exact hmax f hf hfkey
      · exact absurd ⟨f, hf, hfkey⟩ hnames

theorem deliver_traced (h : Traced s) (n : ℕ) :
    Traced (s.deliver n) ∧ ∀ t : Thread, t.Traced s → t.Traced (s.deliver n) := by
  by_cases hn : n < s.posted.length
  · have happ : ∀ e, s.Applied e → (s.deliver n).Applied e := by
      rintro e ⟨m, hm, he⟩
      rw [AttributeSync.deliver, if_pos hn]
      exact ⟨m, List.mem_append_left _ hm, he⟩
    have hsame : (s.deliver n).queue = s.queue ∧ (s.deliver n).posted = s.posted ∧
        (s.deliver n).sets = s.sets ∧ (s.deliver n).applied = s.applied ++ [n] := by
      rw [AttributeSync.deliver, if_pos hn]
      exact ⟨rfl, rfl, rfl, rfl⟩
    obtain ⟨hq, hp, hsets, happlied⟩ := hsame
    have hrequest : ∀ m, (s.deliver n).request m = s.request m := by
      intro m
      rw [AttributeSync.request, AttributeSync.request, hp]
    refine ⟨⟨?_, ?_, ?_, ?_, ?_, fun m hm => ?_, fun e he => ?_⟩, fun t ht => ?_⟩
    · rw [hsets]
      exact h.sorted
    · rw [hsets, hq]
      exact h.below
    · rw [hsets, hq]
      exact h.queued
    · intro m
      rw [hrequest, hsets]
      exact h.requests m
    · intro m
      rw [hrequest]
      exact h.ordered m
    · rw [hp]
      rw [happlied] at hm
      rcases List.mem_append.1 hm with hm | hm
      · exact h.applied m hm
      · rw [List.mem_singleton.1 hm]
        exact hn
    · rw [hsets] at he
      rw [hq]
      exact (h.delivered e he).imp_right (happ e)
    · unfold Thread.Traced at ht ⊢
      rw [hp, hq, hsets]
      simp only [hrequest]
      split
      · exact ht
      · exact ht
      · exact ⟨ht.1, fun e he hid => happ e (ht.2 e he hid)⟩
      · trivial
  · have hsame : s.deliver n = s := if_neg hn
    rw [hsame]
    exact ⟨h, fun t ht => ht⟩

structure InSync (server₀ : Attributes) (w : AttributeWorld ι) : Prop where
  traced : Traced w.shared
  newest : NewestApplied server₀ w.shared
  threads : ∀ i, (w.task i).Traced w.shared

theorem SyncStarts.inSync {w : AttributeWorld ι} (h : SyncStarts w) :
    InSync w.shared.server w := by
  have hrequest : ∀ n, w.shared.request n = [] := by
    intro n
    simp [AttributeSync.request, h.posted]
  have hsorted : w.shared.sets.Pairwise fun e f => e.1 < f.1 := by
    rw [h.sets]
    exact List.pairwise_map.2 w.shared.queue.sorted
  refine ⟨⟨hsorted, ?_, ?_, ?_, ?_, ?_, ?_⟩, fun key => .inl ⟨rfl, ?_⟩, fun i => ?_⟩
  · intro e he
    rw [h.sets] at he
    obtain ⟨r, hr, rfl⟩ := List.mem_map.1 he
    exact w.shared.queue.below r hr
  · intro r hr
    rw [h.sets]
    exact List.mem_map.2 ⟨r, hr, rfl⟩
  · intro n e he
    rw [hrequest] at he
    exact absurd he List.not_mem_nil
  · intro n
    rw [hrequest]
    exact List.Pairwise.nil
  · intro n hn
    rw [h.applied] at hn
    exact absurd hn List.not_mem_nil
  · intro e he
    rw [h.sets] at he
    obtain ⟨r, hr, rfl⟩ := List.mem_map.1 he
    exact .inl ⟨r, hr, rfl⟩
  · rintro e ⟨n, hn, -⟩
    rw [h.applied] at hn
    exact absurd hn List.not_mem_nil
  · rw [h.idle i]
    trivial

theorem InSync.next [DecidableEq ι] {server₀ : Attributes} {w : AttributeWorld ι}
    (h : InSync server₀ w) {e : Event ι Action ℕ} (hserved : Served w e) (hseq : InSequence w e) :
    InSync server₀ (attributeSystem.next w e) := by
  cases e with
  | act i a =>
    obtain ⟨htraced, hself, hext⟩ := step_traced h.traced (h.threads i) hserved hseq
    refine ⟨htraced, hext.newestApplied h.traced h.newest, fun j => ?_⟩
    by_cases hj : j = i
    · subst hj
      simpa [System.next, attributeSystem] using hself
    · simpa [System.next, attributeSystem, Function.update_of_ne hj] using
        hext.thread h.traced (h.threads j)
  | env n =>
    obtain ⟨htraced, hthreads⟩ := deliver_traced h.traced n
    refine ⟨htraced, ?_, fun i => hthreads _ (h.threads i)⟩
    by_cases hn : n < w.shared.posted.length
    · exact deliver_newest h.traced h.newest hn hseq
    · have hsame : w.shared.deliver n = w.shared := if_neg hn
      change NewestApplied server₀ (w.shared.deliver n)
      rw [hsame]
      exact h.newest

theorem InSync.lastWriterWins {server₀ : Attributes} {w : AttributeWorld ι}
    (h : InSync server₀ w) (hempty : w.shared.queue.rows = []) :
    LastWriterWins server₀ w.shared := by
  have happlied : ∀ e ∈ w.shared.sets, w.shared.Applied e := by
    intro e he
    rcases h.traced.delivered e he with ⟨r, hr, -⟩ | happ
    · rw [hempty] at hr
      exact absurd hr List.not_mem_nil
    · exact happ
  have hset : ∀ e, w.shared.Applied e → e ∈ w.shared.sets := by
    rintro e ⟨n, -, he⟩
    exact h.traced.requests n e he
  intro key
  by_cases hnames : ∃ e ∈ w.shared.sets, e.2.key = key
  · obtain ⟨e, he, rfl, hmax⟩ := exists_greatest h.traced.sorted hnames
    rw [lastValue_of_greatest h.traced.sorted he hmax]
    rcases h.newest e.2.key with ⟨-, hnot⟩ | ⟨f, hf, hkey, hval, hfmax⟩
    · exact absurd rfl (hnot e (happlied e he))
    · have hid : f.1 = e.1 :=
        le_antisymm (hmax f (hset f hf) hkey) (hfmax e (happlied e he) rfl)
      rw [hval, h.traced.unique (hset f hf) he hid]
      rfl
  · have hnone : lastValue (w.shared.sets.map Prod.snd) key = none := by
      rw [lastValue_eq_none]
      intro r hr hkey
      obtain ⟨e, he, rfl⟩ := List.mem_map.1 hr
      exact hnames ⟨e, he, hkey⟩
    rw [hnone]
    rcases h.newest key with ⟨hsame, -⟩ | ⟨f, hf, hkey, -⟩
    · exact hsame
    · exact absurd ⟨f, hset f hf, hkey⟩ hnames

variable [DecidableEq ι]

/-- In a run without overflow whose POSTs are applied in sequence, the last set of every key
is what the server holds whenever the queue is empty and no flush is in progress. -/
theorem attributes_last_writer_wins (w : AttributeWorld ι) (hstart : SyncStarts w)
    (evs : List (Event ι Action ℕ))
    (hserved : ∀ x ∈ attributeSystem.transitions w evs, Served x.1 x.2)
    (hseq : ∀ x ∈ attributeSystem.transitions w evs, InSequence x.1 x.2) :
    ∀ v ∈ attributeSystem.visited w evs, Flushed v → LastWriterWins w.shared.server v.shared := by
  have hstep : ∀ (v : AttributeWorld ι) e, InSync w.shared.server v → Served v e ∧ InSequence v e →
      InSync w.shared.server (attributeSystem.next v e) :=
    fun v e h hcond => h.next hcond.1 hcond.2
  have hrun := System.visited_induct hstep hstart.inSync fun x hx => ⟨hserved x hx, hseq x hx⟩
  exact fun v hv hflushed => (hrun v hv).lastWriterWins hflushed.1

inductive Syncer where
  | scheduler | app
deriving DecidableEq

def nothingSet : AttributeWorld Syncer :=
  ⟨⟨⟨⟨"rov_1", 0⟩, .empty, .empty⟩, [], [], fun _ => none⟩, fun _ => .idle⟩

theorem nothingSet_starts : SyncStarts nothingSet := ⟨fun _ => rfl, rfl, rfl, rfl⟩

def setPlan (i : Syncer) (plan : String) : List (Event Syncer Action ℕ) :=
  [.act i (.setAttributes [⟨"plan", some plan⟩]), .act i (.append none)]

def sendPage (i : Syncer) : List (Event Syncer Action ℕ) :=
  [.act i .flushAttributes, .act i (.flush (.list true))]

def accepted (i : Syncer) : List (Event Syncer Action ℕ) :=
  [.act i (.flush (.reply (.ok ()))), .act i (.flush (.delete true))]

def oneFlushAtATime : List (Event Syncer Action ℕ) :=
  setPlan .app "old" ++ sendPage .scheduler ++ [.env 0] ++ accepted .scheduler ++
    setPlan .app "new" ++ sendPage .app ++ [.env 1] ++ accepted .app

theorem attributes_last_writer_wins_oneFlushAtATime :
    LastWriterWins nothingSet.shared.server
      (attributeSystem.runAll nothingSet oneFlushAtATime).shared :=
  attributes_last_writer_wins nothingSet nothingSet_starts oneFlushAtATime (by decide)
    (by decide) _ System.last_mem_visited ⟨by decide, by rintro ⟨⟩ f ⟨⟩⟩

def overlappingFlushes : List (Event Syncer Action ℕ) :=
  setPlan .app "old" ++ sendPage .scheduler ++ setPlan .app "new" ++ sendPage .app ++
    [.env 1, .env 0] ++ accepted .app ++ accepted .scheduler

/-- Every POST is applied and answered with success, and the older value stays. -/
theorem older_value_stays :
    (∀ x ∈ attributeSystem.transitions nothingSet overlappingFlushes, Served x.1 x.2) ∧
      Flushed (attributeSystem.runAll nothingSet overlappingFlushes) ∧
        ¬ LastWriterWins nothingSet.shared.server
          (attributeSystem.runAll nothingSet overlappingFlushes).shared := by
  refine ⟨by decide, ⟨by decide, by rintro ⟨⟩ f ⟨⟩⟩, fun h => ?_⟩
  have hplan := h "plan"
  revert hplan
  decide

end Rovenue.Sdk
