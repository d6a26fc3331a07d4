import Rovenue.Threads.Answers

/-! The sliding-window limiter on a sorted set of Redis: it decides as a limiter that remembers
every request, and passes no more than its maximum in any window. -/

namespace Rovenue.RateLimit
open Threads

structure RateLimitOptions where
  windowMs : ℕ
  max : ℕ

structure Entry where
  score : ℕ
  member : String

structure SortedSet where
  entries : List Entry
  expiresAt : ℕ

structure Redis where
  now : ℕ
  sets : String → Option SortedSet

def live (set : Option SortedSet) (now : ℕ) : List Entry :=
  set.elim [] fun s => if now < s.expiresAt then s.entries else []

def zremrangebyscore (lo hi : ℤ) (entries : List Entry) : List Entry :=
  entries.filter fun e => ¬(lo ≤ e.score ∧ e.score ≤ hi)

def zadd (score : ℕ) (member : String) (entries : List Entry) : List Entry :=
  if entries.any fun e => e.member = member then
    entries.map fun e => if e.member = member then ⟨score, member⟩ else e
  else entries ++ [⟨score, member⟩]

def Redis.put (s : Redis) (key : String) (entries : List Entry) (ttlMs : ℕ) : Redis :=
  ⟨s.now, Function.update s.sets key (some ⟨entries, s.now + ttlMs⟩)⟩

theorem Redis.put_sets_self {s : Redis} {key : String} {entries : List Entry} {ttlMs : ℕ} :
    (s.put key entries ttlMs).sets key = some ⟨entries, s.now + ttlMs⟩ := Function.update_self ..

theorem Redis.put_sets_of_ne {s : Redis} {key other : String} {entries : List Entry} {ttlMs : ℕ}
    (h : other ≠ key) : (s.put key entries ttlMs).sets other = s.sets other :=
  Function.update_of_ne h ..

inductive Reply where
  | answered
  | lost
  | failed

structure Request where
  key : String
  member : String
  reply : Reply

inductive Verdict where
  | passed (remaining resetSeconds : ℕ)
  | limited (retryAfter resetSeconds : ℕ)
  -- Redis did not answer: the limiter of the process decides
  | insurance
  deriving DecidableEq

def Verdict.isPassed : Verdict → Bool
  | .passed _ _ => true
  | _ => false

def ceilSeconds (ms : ℕ) : ℕ := (ms + 999) / 1000

def verdict (o : RateLimitOptions) (now count : ℕ) (oldestScore : Option ℕ) : Verdict :=
  let resetMs := oldestScore.getD now + o.windowMs
  if o.max < count then .limited (max 1 (ceilSeconds (resetMs - now))) (ceilSeconds resetMs)
  else .passed (o.max - count) (ceilSeconds resetMs)

def rateLimit (o : RateLimitOptions) (s : Redis) (r : Request) : Redis × Verdict :=
  let windowStart : ℤ := s.now - o.windowMs
  let entries := zadd s.now r.member (zremrangebyscore 0 windowStart (live (s.sets r.key) s.now))
  let written := s.put r.key entries o.windowMs
  match r.reply with
  | .answered => (written, verdict o s.now entries.length (entries.map Entry.score).min?)
  | .lost => (written, .insurance)
  | .failed => (s, .insurance)

inductive Event where
  | tick (ms : ℕ)
  | request (r : Request)

def Event.member? : Event → Option String
  | .tick _ => none
  | .request r => some r.member

structure Answer where
  key : String
  time : ℕ
  verdict : Verdict

def limiterStep (o : RateLimitOptions) (s : Redis) : Event → Redis × Option Answer
  | .tick ms => ({ s with now := s.now + ms }, none)
  | .request r => ((rateLimit o s r).1, some ⟨r.key, s.now, (rateLimit o s r).2⟩)

structure Plain where
  now : ℕ
  history : List (String × ℕ)

def window (o : RateLimitOptions) (history : List (String × ℕ)) (key : String) (t : ℕ) : List ℕ :=
  -- the times of a key's requests in the window that ends at `t`
  (history.filter fun a => a.1 = key ∧ t < a.2 + o.windowMs).map Prod.snd

def plainLimit (o : RateLimitOptions) (p : Plain) (r : Request) : Plain × Verdict :=
  let times := window o p.history r.key p.now ++ [p.now]
  let history := p.history ++ [(r.key, p.now)]
  match r.reply with
  | .answered => ({ p with history }, verdict o p.now times.length times.min?)
  | .lost => ({ p with history }, .insurance)
  | .failed => (p, .insurance)

def plainStep (o : RateLimitOptions) (p : Plain) : Event → Plain × Option Answer
  | .tick ms => ({ p with now := p.now + ms }, none)
  | .request r => ((plainLimit o p r).1, some ⟨r.key, p.now, (plainLimit o p r).2⟩)

section Mirror
variable {o : RateLimitOptions} {s : Redis} {p : Plain} {history : List (String × ℕ)}
  {key : String} {t now : ℕ}

def visible (o : RateLimitOptions) (set : Option SortedSet) (t : ℕ) : List Entry :=
  (live set t).filter fun e => t < e.score + o.windowMs

theorem zremrangebyscore_live {set : Option SortedSet} :
    zremrangebyscore 0 ((now : ℤ) - o.windowMs) (live set now) = visible o set now := by
  rw [zremrangebyscore, visible]
  -- scores are never negative, so only the upper bound evicts
  refine List.filter_congr fun e _ => ?_
  rw [decide_eq_decide]
  omega

theorem zadd_fresh {entries : List Entry} {member : String}
    (hfresh : ∀ e ∈ entries, e.member ≠ member) :
    zadd now member entries = entries ++ [⟨now, member⟩] := by
  rw [zadd, if_neg]
  intro hany
  obtain ⟨e, he, hmember⟩ := List.any_eq_true.1 hany
  exact hfresh e he (of_decide_eq_true hmember)

theorem mem_of_mem_visible {set : Option SortedSet} {e : Entry} (he : e ∈ visible o set t) :
    ∃ kept, set = some kept ∧ e ∈ kept.entries := by
  rcases set with _ | kept
  · cases he
  · refine ⟨kept, rfl, ?_⟩
    have hlive : e ∈ live (some kept) t := List.mem_of_mem_filter he
    rw [live, Option.elim_some] at hlive
    split_ifs at hlive
    · exact hlive
    · cases hlive

theorem window_append {a : String × ℕ} :
    window o (history ++ [a]) key t =
      window o history key t ++ if a.1 = key ∧ t < a.2 + o.windowMs then [a.2] else [] := by
  rw [window, List.filter_append, List.map_append, ← window]
  split_ifs with ha <;> simp [ha]

theorem window_later (hle : now ≤ t) :
    window o history key t =
      (window o history key now).filter fun time => t < time + o.windowMs := by
  rw [window, window, List.filter_map, List.filter_filter]
  refine congrArg (List.map Prod.snd) (List.filter_congr fun a _ => ?_)
  have hlt : t < a.2 + o.windowMs → now < a.2 + o.windowMs := hle.trans_lt
  simp only [Function.comp_apply, ← Bool.decide_and, decide_eq_decide]
  tauto

theorem window_eq_nil (hpast : ∀ a ∈ history, a.2 ≤ now) (hover : now + o.windowMs ≤ t) :
    window o history key t = [] := by
  rw [window, List.map_eq_nil_iff, List.filter_eq_nil_iff]
  intro a ha
  have hle := hpast a ha
  simp only [decide_eq_true_eq, not_and, not_lt]
  omega

structure Mirrors (o : RateLimitOptions) (s : Redis) (p : Plain) (pending : List Event) : Prop where
  now : s.now = p.now
  times : ∀ key t, s.now ≤ t →
    (visible o (s.sets key) t).map Entry.score = window o p.history key t
  past : ∀ a ∈ p.history, a.2 ≤ p.now
  fresh : ∀ key set, s.sets key = some set → ∀ e ∈ set.entries,
    e.member ∉ pending.filterMap Event.member?
  nodup : (pending.filterMap Event.member?).Nodup

def written (o : RateLimitOptions) (s : Redis) (r : Request) : List Entry :=
  visible o (s.sets r.key) s.now ++ [{ score := s.now, member := r.member }]

theorem Mirrors.entries {pending : List Event} {r : Request}
    (h : Mirrors o s p (.request r :: pending)) :
    zadd s.now r.member (zremrangebyscore 0 ((s.now : ℤ) - o.windowMs)
        (live (s.sets r.key) s.now)) = written o s r := by
  rw [zremrangebyscore_live]
  refine zadd_fresh fun e he hmember => ?_
  obtain ⟨set, hset, he'⟩ := mem_of_mem_visible he
  have hnot := h.fresh r.key set hset e he'
  rw [hmember] at hnot
  exact hnot (List.mem_cons_self ..)

theorem Mirrors.scores {pending : List Event} {r : Request}
    (h : Mirrors o s p (.request r :: pending)) :
    (written o s r).map Entry.score = window o p.history r.key p.now ++ [p.now] := by
  rw [written, List.map_append, h.times r.key s.now le_rfl, h.now]
  rfl

theorem Mirrors.put {pending : List Event} {r : Request}
    (h : Mirrors o s p (.request r :: pending)) :
    Mirrors o (s.put r.key (written o s r) o.windowMs)
      { p with history := p.history ++ [(r.key, p.now)] } pending where
  now := h.now
  times key t ht := by
    have ht' : s.now ≤ t := ht
    rw [window_append, ← h.now]
    by_cases hkey : key = r.key
    · subst hkey
      rw [Redis.put_sets_self, visible, live, Option.elim_some, written]
      by_cases hlive : t < s.now + o.windowMs
      · -- what is left of the entries is the later window
        have hold : ((visible o (s.sets r.key) s.now).filter
            fun e => t < e.score + o.windowMs).map Entry.score = window o p.history r.key t := by
          rw [window_later ht', ← h.times r.key s.now le_rfl, List.filter_map]
          rfl
        rw [if_pos hlive, if_pos ⟨rfl, hlive⟩, List.filter_append, List.map_append, hold]
        simp [hlive]
      · -- the set has expired, and so has all that the window could hold
        have hpast : ∀ a ∈ p.history, a.2 ≤ s.now := fun a ha => (h.past a ha).trans h.now.ge
        rw [if_neg hlive, if_neg fun hboth => hlive hboth.2,
          window_eq_nil hpast (not_lt.1 hlive)]
        rfl
    · rw [Redis.put_sets_of_ne hkey, if_neg fun hboth => hkey hboth.1.symm, List.append_nil]
      exact h.times key t ht'
  past a ha := by
    rcases List.mem_append.1 ha with ha | ha
    · exact h.past a ha
    · rw [List.mem_singleton.1 ha]
  fresh key set hset e he := by
    have hnodup := h.nodup
    have hcons : (Event.request r :: pending).filterMap Event.member? =
        r.member :: pending.filterMap Event.member? := rfl
    rw [hcons, List.nodup_cons] at hnodup
    have hrest : ∀ key set, s.sets key = some set → ∀ e ∈ set.entries,
        e.member ∉ pending.filterMap Event.member? := by
      intro key set hset e he hmem
      refine h.fresh key set hset e he ?_
      rw [hcons]
      exact List.mem_cons_of_mem _ hmem
    by_cases hkey : key = r.key
    · subst hkey
      rw [Redis.put_sets_self, Option.some_inj] at hset
      subst hset
      rcases List.mem_append.1 he with he | he
      · obtain ⟨old, hold, he'⟩ := mem_of_mem_visible he
        exact hrest _ old hold e he'
      · rw [List.mem_singleton.1 he]
        exact hnodup.1
    · rw [Redis.put_sets_of_ne hkey] at hset
      exact hrest key set hset e he
  nodup := (List.nodup_cons.1 h.nodup).2

theorem Mirrors.untouched {pending : List Event} {e : Event} (h : Mirrors o s p (e :: pending)) :
    Mirrors o s p pending where
  now := h.now
  times := h.times
  past := h.past
  fresh key set hset e' he' hmem := by
    refine h.fresh key set hset e' he' ?_
    rw [List.filterMap_cons]
    split
    · exact hmem
    · exact List.mem_cons_of_mem _ hmem
  nodup := by
    have hnodup := h.nodup
    rw [List.filterMap_cons] at hnodup
    split at hnodup
    · exact hnodup
    · exact (List.nodup_cons.1 hnodup).2

theorem Mirrors.tick {pending : List Event} (h : Mirrors o s p pending) (ms : ℕ) :
    Mirrors o { s with now := s.now + ms } { p with now := p.now + ms } pending where
  now := congrArg (· + ms) h.now
  times key t ht := h.times key t ((Nat.le_add_right _ _).trans ht)
  past a ha := (h.past a ha).trans (Nat.le_add_right _ _)
  fresh := h.fresh
  nodup := h.nodup

theorem Mirrors.step {pending : List Event} {e : Event} (h : Mirrors o s p (e :: pending)) :
    (limiterStep o s e).2 = (plainStep o p e).2 ∧
      Mirrors o (limiterStep o s e).1 (plainStep o p e).1 pending := by
  cases e with
  | tick ms => exact ⟨rfl, h.untouched.tick ms⟩
  | request r =>
    have hcount : (written o s r).length =
        (window o p.history r.key p.now ++ [p.now]).length := by
      rw [← h.scores, List.length_map]
    rw [limiterStep, plainStep, rateLimit, plainLimit, h.entries]
    rcases hreply : r.reply with _ | _ | _
    · refine ⟨?_, h.put⟩
      simp only [h.scores, hcount, h.now]
    · refine ⟨?_, h.put⟩
      simp only [h.now]
    · refine ⟨?_, h.untouched⟩
      simp only [h.now]

theorem mirrors_start {evs : List Event} (hmembers : (evs.filterMap Event.member?).Nodup) :
    Mirrors o ⟨now, fun _ => none⟩ ⟨now, []⟩ evs where
  now := rfl
  times _ _ _ := rfl
  past a ha := by cases ha
  fresh _ _ h := by cases h
  nodup := hmembers

/-- In every run, however many requests of however many keys interleave and whichever transactions
fail, each request gets the verdict and the headers that counting all the earlier requests of its key
within the last `windowMs` gives. -/
theorem rateLimit_counts_window (o : RateLimitOptions) (now : ℕ) (evs : List Event)
    (hmembers : (evs.filterMap Event.member?).Nodup) :
    answers (limiterStep o) ⟨now, fun _ => none⟩ evs = answers (plainStep o) ⟨now, []⟩ evs := by
  exact answers_eq (R := Mirrors o) (fun s p e es h => h.step) evs _ _ (mirrors_start hmembers)

def passedIn (o : RateLimitOptions) (key : String) (t : ℕ) (a : Answer) : Bool :=
  -- the answer let a request of `key` pass within the window that ends at `t`
  a.verdict.isPassed && decide (a.key = key ∧ a.time ≤ t ∧ t < a.time + o.windowMs)

def passedCount (o : RateLimitOptions) (key : String) (t : ℕ) (past : List Answer) : ℕ :=
  -- how many requests of `key` passed within the window that ends at `t`
  past.countP (passedIn o key t)

structure Within (o : RateLimitOptions) (p : Plain) (past : List Answer) : Prop where
  counted : ∀ key t, p.now ≤ t → passedCount o key t past ≤ (window o p.history key t).length
  bounded : ∀ key t, passedCount o key t past ≤ o.max

variable {past : List Answer} {a : Answer}

theorem passedCount_append :
    passedCount o key t (past ++ [a]) =
      passedCount o key t past + if passedIn o key t a = true then 1 else 0 := by
  rw [passedCount, List.countP_append, List.countP_singleton, ← passedCount]

theorem length_window_append :
    (window o (history ++ [(a.key, now)]) key t).length = (window o history key t).length +
      if a.key = key ∧ t < now + o.windowMs then 1 else 0 := by
  rw [window_append, List.length_append]
  split_ifs <;> rfl

theorem length_window_later_le (hle : now ≤ t) :
    (window o history key t).length ≤ (window o history key now).length := by
  rw [window_later hle]
  exact List.length_filter_le _ _

theorem Within.tick (h : Within o p past) (ms : ℕ) : Within o { p with now := p.now + ms } past where
  counted key t ht := h.counted key t ((Nat.le_add_right _ _).trans ht)
  bounded := h.bounded

theorem Within.remembered (h : Within o p past) (htime : a.time = p.now)
    (hbelow : a.verdict.isPassed = true → (window o p.history a.key p.now).length < o.max) :
    Within o { p with history := p.history ++ [(a.key, p.now)] } (past ++ [a]) := by
  have hin : ∀ key t, passedIn o key t a = true →
      a.verdict.isPassed = true ∧ a.key = key ∧ p.now ≤ t ∧ t < p.now + o.windowMs := by
    intro key t hpassed
    rw [passedIn, Bool.and_eq_true, decide_eq_true_eq, htime] at hpassed
    exact hpassed
  refine ⟨fun key t ht => ?_, fun key t => ?_⟩
  · have hbefore := h.counted key t ht
    rw [passedCount_append, length_window_append]
    by_cases hpassed : passedIn o key t a = true
    · obtain ⟨-, hkey, -, hlive⟩ := hin key t hpassed
      rw [if_pos hpassed, if_pos ⟨hkey, hlive⟩]
      exact Nat.succ_le_succ hbefore
    · rw [if_neg hpassed]
      exact hbefore.trans (Nat.le_add_right _ _)
  · rw [passedCount_append]
    by_cases hpassed : passedIn o key t a = true
    · -- all that passed in this window is in the window that the request was counted in
      obtain ⟨hverdict, rfl, hle, -⟩ := hin key t hpassed
      have hroom : passedCount o a.key t past < o.max :=
        calc passedCount o a.key t past ≤ (window o p.history a.key t).length := h.counted _ t hle
          _ ≤ (window o p.history a.key p.now).length := length_window_later_le hle
          _ < o.max := hbelow hverdict
      rw [if_pos hpassed]
      exact hroom
    · rw [if_neg hpassed]
      exact h.bounded key t

theorem Within.unseen (h : Within o p past) (hverdict : a.verdict.isPassed = false) :
    Within o p (past ++ [a]) := by
  have hnot : ∀ key t, passedIn o key t a = false := by
    intro key t
    rw [passedIn, hverdict, Bool.false_and]
  refine ⟨fun key t ht => ?_, fun key t => ?_⟩
  · rw [passedCount_append, hnot key t]
    exact h.counted key t ht
  · rw [passedCount_append, hnot key t]
    exact h.bounded key t

theorem count_le_of_isPassed {count : ℕ} {oldest : Option ℕ}
    (h : (verdict o now count oldest).isPassed = true) : count ≤ o.max := by
  rw [verdict] at h
  split_ifs at h with hover
  · cases h
  · exact not_lt.1 hover

theorem Within.step (h : Within o p past) (e : Event) :
    Within o (plainStep o p e).1 (past ++ (plainStep o p e).2.toList) := by
  cases e with
  | tick ms =>
    rw [plainStep, Option.toList_none, List.append_nil]
    exact h.tick ms
  | request r =>
    rw [plainStep, Option.toList_some, plainLimit]
    rcases r.reply with _ | _ | _
    · refine h.remembered (a := ⟨r.key, p.now, _⟩) rfl fun hpassed => ?_
      have hcount := count_le_of_isPassed hpassed
      rw [List.length_append] at hcount
      exact hcount
    · refine h.remembered (a := ⟨r.key, p.now, .insurance⟩) rfl fun hpassed => ?_
      cases hpassed
    · exact h.unseen rfl

/-- In every run no window of `windowMs`, wherever it begins, sees more than `max` requests of one
key pass. -/
theorem rateLimit_bounds_window (o : RateLimitOptions) (now : ℕ) (evs : List Event)
    (hmembers : (evs.filterMap Event.member?).Nodup) (key : String) (t : ℕ) :
    passedCount o key t (answers (limiterStep o) ⟨now, fun _ => none⟩ evs) ≤ o.max := by
  have hstart : Within o ⟨now, []⟩ [] := ⟨fun _ _ _ => Nat.zero_le _, fun _ _ => Nat.zero_le _⟩
  have hsame := answers_eq (R := Mirrors o) (fun s p e es h => h.step) evs ⟨now, fun _ => none⟩
    ⟨now, []⟩ (mirrors_start hmembers)
  obtain ⟨p, hend⟩ := answers_induct (I := Within o) (fun p past e h => h.step e) evs _ _ hstart
  rw [hsame]
  exact hend.bounded key t

end Mirror

def burstOptions : RateLimitOptions := ⟨60000, 2⟩

def burst : List Event :=
  -- three requests of one key within a second, the answer to the second lost, and one more when all
  -- of them have left the window
  [.request ⟨"rl:203.0.113.7", "1000-0.11", .answered⟩, .tick 400,
    .request ⟨"rl:203.0.113.7", "1400-0.52", .lost⟩, .tick 100,
    .request ⟨"rl:203.0.113.7", "1500-0.37", .answered⟩, .tick 60000,
    .request ⟨"rl:203.0.113.7", "61500-0.94", .answered⟩]

theorem rateLimit_counts_window_burst :
    (answers (limiterStep burstOptions) ⟨1000, fun _ => none⟩ burst).map Answer.verdict =
      [.passed 1 61, .insurance, .limited 60 61, .passed 1 122] := by
  rw [rateLimit_counts_window burstOptions 1000 burst (by decide)]
  decide +kernel

theorem rateLimit_bounds_window_burst :
    passedCount burstOptions "rl:203.0.113.7" 1500
      (answers (limiterStep burstOptions) ⟨1000, fun _ => none⟩ burst) ≤ 2 :=
  rateLimit_bounds_window burstOptions 1000 burst (by decide) _ _

end Rovenue.RateLimit
