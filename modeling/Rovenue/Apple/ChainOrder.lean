import Rovenue.Apple.NotificationPlan

/-! Notifications of a chain in any order of delivery. Two guarded writes of one
row are always applied in the order of their dates: each stamps the row, and the
next one's guard reads the stamp. A chain-wide write neither reads nor stamps. -/

namespace Rovenue.Apple
open Txn

abbrev Delivery := Turn DispatchContext Db Write String

namespace Delivery
variable (t : Delivery)

def date : ℤ := t.label.appleNotificationEventTime

def Sets (key : PurchaseKey) : Prop :=
  setsStatus key t.writes (t.before.purchases.get? key) = true

def chainWide : Bool :=
  t.label.notification.notificationType ∈
    [AppleNotificationType.didFailToRenew, .gracePeriodExpired, .expired, .revoke]

def Reaches (key : PurchaseKey) : Prop :=
  (notificationPlan t.label (t.clock 0) t.before key).isSome = true

end Delivery

/-- No row carries a status older than another that was written to it. -/
def StatusFromNewest (ts : List Delivery) : Prop :=
  ∀ key front (t : Delivery) back, ts = front ++ t :: back → t.Sets key →
    (∀ q ∈ back, ¬q.Sets key) → ∀ q ∈ front, q.Sets key → q.date ≤ t.date

/-- Whenever a chain-wide delivery and another one reach the same row, they are
delivered in the order of their dates. -/
def ChainWideInOrder (ts : List Delivery) : Prop :=
  ts.Pairwise fun earlier later => (earlier.chainWide || later.chainWide) = true →
    ∀ key, earlier.Reaches key → later.Reaches key → earlier.date ≤ later.date

theorem statusFromNewest_prefixes_iff (ts : List Delivery) :
    (∀ qs, qs <+: ts → StatusFromNewest qs) ↔
      ts.Pairwise fun earlier later => ∀ key, earlier.Sets key → later.Sets key →
        earlier.date ≤ later.date := by
  constructor
  · intro h
    induction ts using List.reverseRecOn with
    | nil => exact List.Pairwise.nil
    | append_singleton ts t ih =>
      refine List.pairwise_append.2 ⟨ih fun qs hqs => h qs (hqs.trans (List.prefix_append _ _)),
        List.pairwise_singleton _ _, fun q hq t' ht' key hqk htk => ?_⟩
      obtain rfl := List.mem_singleton.1 ht'
      exact h _ List.prefix_rfl key ts t' [] rfl htk (by simp) q hq hqk
  · rintro h qs hqs key front t back rfl ht - q hq hqk
    have hpairs := h.sublist hqs.sublist
    exact (List.pairwise_append.1 hpairs).2.2 q hq t (by simp) key hqk ht

section Stamp
variable {t : Delivery}

def Stamped (key : PurchaseKey) (d : ℤ) (s : Db) : Prop :=
  -- the row is stamped with an event time no older than `d`
  ∃ status last, standingAt s key = some (status, some last) ∧ d ≤ last

theorem delivery_follows (h : t.Completes handleAppleNotification) :
    (∀ key, t.Sets key ↔ t.Reaches key) ∧ ∀ key, standingAt t.after key =
      StatusWrite.on (notificationPlan t.label (t.clock 0) t.before key)
        (standingAt t.before key) := by
  obtain ⟨c', hreturns, hwrites, hafter⟩ := h
  have hfollows := handleAppleNotification_follows hreturns
  obtain ⟨ws, hw, -, hsets⟩ := hfollows.writes
  refine ⟨fun key => ?_, fun key => ?_⟩
  · rw [Delivery.Sets, Delivery.Reaches, ← hwrites, hw, Session.start_written, List.nil_append]
    exact Bool.eq_iff_iff.1 (hsets key)
  · rw [← hafter]
    exact hfollows.standing key

def StampsWith (d : ℤ) (plan : Option StatusWrite) (o : Option Standing) : Prop :=
  ∀ w, plan = some w → w.eventTime = some d ∧ ∀ status last, o = some (status, some last) → last ≤ d

theorem guard_stampsWith {args : GuardStatusWriteArgs} {d : ℤ} (hd : args.eventTime = some d)
    (o : Option Standing) : StampsWith d (args.plan o) o := by
  rintro w hw
  obtain ⟨⟨status, last⟩, rfl, hplan⟩ := Option.bind_eq_some_iff.1 hw
  simp only [hd, Option.any_some, Option.ite_none_right_eq_some, Bool.and_eq_true,
    Bool.not_eq_true', Option.some.injEq] at hplan
  obtain ⟨⟨hfresh, -⟩, rfl⟩ := hplan
  refine ⟨rfl, fun status' last' ho => ?_⟩
  obtain ⟨-, rfl⟩ := Prod.mk.inj (Option.some.inj ho)
  simpa using hfresh

theorem transaction_stampsWith (ctx : DispatchContext) (status : PurchaseStatus)
    (supersedes : Bool) (s : Db) (key : PurchaseKey) :
    StampsWith ctx.appleNotificationEventTime (transactionPlan ctx status supersedes s key)
      (standingAt s key) := by
  unfold transactionPlan
  split_ifs
  · unfold GuardStatusWriteArgs.upsertPlan
    split_ifs with hnone
    · rintro w hw
      obtain rfl := Option.some.inj hw
      refine ⟨rfl, fun status' last ho => ?_⟩
      simp [ho] at hnone
    · exact guard_stampsWith rfl _
  · exact guard_stampsWith rfl _
  · exact fun w hw => nomatch hw

theorem found_stampsWith (ctx : DispatchContext) {args : GuardStatusWriteArgs}
    (hd : args.eventTime = some ctx.appleNotificationEventTime) (s : Db) (key : PurchaseKey) :
    StampsWith ctx.appleNotificationEventTime (foundPlan ctx args s key) (standingAt s key) := by
  unfold foundPlan onlyRow
  split_ifs with hkey
  · subst hkey
    exact guard_stampsWith hd _
  · exact fun w hw => nomatch hw
  · exact fun w hw => nomatch hw

theorem notification_stamps (t : Delivery) (key : PurchaseKey) :
    if t.chainWide then ∀ w, notificationPlan t.label (t.clock 0) t.before key = some w →
      w.eventTime = none
    else StampsWith t.date (notificationPlan t.label (t.clock 0) t.before key)
      (standingAt t.before key) := by
  -- one transaction at a time, through the guard and stamped; the chain at once, unstamped
  have hchain : ∀ status w, chainPlan t.label status t.before key = some w → w.eventTime = none := by
    intro status w hw
    unfold chainPlan at hw
    split_ifs at hw
    obtain rfl := Option.some.inj hw
    rfl
  have hnone : StampsWith t.date none (standingAt t.before key) := fun w hw => nomatch hw
  unfold notificationPlan Delivery.chainWide
  cases htype : t.label.notification.notificationType <;>
    simp only [List.mem_cons, List.not_mem_nil, reduceCtorEq, or_false, or_true, decide_true,
      decide_false, if_true, Bool.false_eq_true, if_false]
  case subscribed => exact transaction_stampsWith _ _ _ _ _
  case didRenew => exact transaction_stampsWith _ _ _ _ _
  case didChangeRenewalPref =>
    split_ifs
    · exact transaction_stampsWith _ _ _ _ _
    · exact hnone
  case offerRedeemed =>
    split_ifs
    · exact hnone
    · exact transaction_stampsWith _ _ _ _ _
  case refund => exact found_stampsWith _ rfl _ _
  case refundReversed => exact found_stampsWith _ rfl _ _
  case didFailToRenew => exact hchain _
  case gracePeriodExpired => exact hchain _
  case expired => exact hchain _
  case revoke => exact hchain _
  all_goals exact hnone

theorem stamped_step (h : t.Completes handleAppleNotification) {key : PurchaseKey} {d : ℤ}
    (hs : Stamped key d t.before) : Stamped key d t.after := by
  obtain ⟨status, last, ho, hd⟩ := hs
  have hstanding := (delivery_follows h).2 key
  have hstamps := notification_stamps t key
  cases hplan : notificationPlan t.label (t.clock 0) t.before key with
  | none =>
    rw [hplan, ho] at hstanding
    exact ⟨status, last, hstanding, hd⟩
  | some w =>
    rw [hplan, ho] at hstanding
    split_ifs at hstamps
    · rw [StatusWrite.on, hstamps w hplan] at hstanding
      exact ⟨w.status, last, hstanding, hd⟩
    · obtain ⟨htime, hfresh⟩ := hstamps w hplan
      rw [StatusWrite.on, htime] at hstanding
      exact ⟨w.status, t.date, hstanding, hd.trans (hfresh _ _ ho)⟩

theorem stamped_of_reaches (h : t.Completes handleAppleNotification)
    (hguarded : t.chainWide = false) {key : PurchaseKey} (hreach : t.Reaches key) :
    Stamped key t.date t.after := by
  obtain ⟨w, hplan⟩ := Option.isSome_iff_exists.1 hreach
  have hstamps := notification_stamps t key
  rw [if_neg (by simp [hguarded])] at hstamps
  have hstanding := (delivery_follows h).2 key
  rw [hplan, StatusWrite.on, (hstamps w hplan).1] at hstanding
  exact ⟨w.status, t.date, hstanding, le_rfl⟩

theorem date_of_stamped (hguarded : t.chainWide = false) {key : PurchaseKey} {d : ℤ}
    (hs : Stamped key d t.before) (hreach : t.Reaches key) : d ≤ t.date := by
  obtain ⟨w, hplan⟩ := Option.isSome_iff_exists.1 hreach
  obtain ⟨status, last, ho, hd⟩ := hs
  have hstamps := notification_stamps t key
  rw [if_neg (by simp [hguarded])] at hstamps
  exact hd.trans ((hstamps w hplan).2 status last ho)

end Stamp

section Runs
variable {s s' : Db} {ts : List Delivery}

theorem guarded_after_stamp (run : Turns handleAppleNotification s ts s') {key : PurchaseKey}
    {d : ℤ} (hs : Stamped key d s) :
    ∀ t ∈ ts, t.chainWide = false → t.Reaches key → d ≤ t.date := by
  induction run with
  | nil s => simp
  | cons h rest ih =>
    intro t ht hguarded hreach
    obtain rfl | ht := List.mem_cons.1 ht
    · exact date_of_stamped hguarded hs hreach
    · exact ih (stamped_step h hs) t ht hguarded hreach

theorem guarded_inOrder (run : Turns handleAppleNotification s ts s') :
    ts.Pairwise fun earlier later => (earlier.chainWide || later.chainWide) = false →
      ∀ key, earlier.Reaches key → later.Reaches key → earlier.date ≤ later.date := by
  induction run with
  | nil s => exact List.Pairwise.nil
  | cons h rest ih =>
    refine List.pairwise_cons.2 ⟨fun t ht hboth key hearlier hlater => ?_, ih⟩
    obtain ⟨hq, ht'⟩ := Bool.or_eq_false_iff.1 hboth
    exact guarded_after_stamp rest (stamped_of_reaches h hq hearlier) t ht ht' hlater

/-- After every prefix of a run each row's status is from the newest delivery
that wrote it, exactly when the chain-wide deliveries come in order. -/
theorem status_from_newest_iff_chainWide_inOrder
    (run : Turns handleAppleNotification s ts s') :
    (∀ qs, qs <+: ts → StatusFromNewest qs) ↔ ChainWideInOrder ts := by
  rw [statusFromNewest_prefixes_iff, ChainWideInOrder]
  have hsets := fun t ht => (delivery_follows (run.completes t ht)).1
  constructor
  · intro h
    refine h.imp_of_mem fun {q t} hq ht hpair _ key hearlier hlater => ?_
    exact hpair key ((hsets q hq key).2 hearlier) ((hsets t ht key).2 hlater)
  · intro h
    refine (h.and (guarded_inOrder run)).imp_of_mem fun {q t} hq ht hpair key hearlier hlater => ?_
    have hearlier := (hsets q hq key).1 hearlier
    have hlater := (hsets t ht key).1 hlater
    cases hwide : (q.chainWide || t.chainWide) with
    | true => exact hpair.1 hwide key hearlier hlater
    | false => exact hpair.2 hwide key hearlier hlater

end Runs

def chainDb : Db where
  products := ⟨[("prod", { projectId := "p1", identifier := "pro"
                           storeIds := [("apple", "com.pro")], accessIds := ["pro"] })], by decide⟩

def resubscribed : DispatchContext where
  projectId := "p1"
  notification := { notificationType := .subscribed, signedDate := 300 }
  transaction :=
    { transactionId := "t2"
      originalTransactionId := "t1"
      productId := "com.pro"
      expiresDate := some 400 }

def lateExpired : DispatchContext where
  projectId := "p1"
  notification := { notificationType := .expired, signedDate := 200 }
  transaction :=
    { transactionId := "t1"
      originalTransactionId := "t1"
      productId := "com.pro"
      expiresDate := some 200 }

theorem stale_expiry_overrides :
    ∃ (t₁ t₂ : Delivery) (s' : Db), Turns handleAppleNotification chainDb [t₁, t₂] s' ∧
      t₁.label = resubscribed ∧ t₂.label = lateExpired ∧
      ∃ r r', t₂.before.purchases.get? (appleKey "t2") = some r ∧ r.status = .active ∧
        s'.purchases.get? (appleKey "t2") = some r' ∧ r'.status = .expired ∧
        ¬StatusFromNewest [t₁, t₂] := by
  refine ⟨_, _, _,
    @Turns.turn _ _ _ _ _ _ handleAppleNotification resubscribed _ _ (fun _ => 310) freshIds _ _ rfl
      (@Turns.turn _ _ _ _ _ _ handleAppleNotification lateExpired _ _ (fun _ => 320)
        (fun n => "y" ++ freshIds n) _ _ rfl (.nil _)),
    rfl, rfl, _, _, rfl, rfl, rfl, rfl, fun h => ?_⟩
  have hdates := h (appleKey "t2") [_] _ [] rfl rfl (by simp) _ (List.mem_singleton.2 rfl) rfl
  exact absurd hdates (by decide)

theorem status_from_newest_iff_chainWide_inOrder_late :
    ∃ (ts : List Delivery) (s' : Db), Turns handleAppleNotification chainDb ts s' ∧
      ((∀ qs, qs <+: ts → StatusFromNewest qs) ↔ ChainWideInOrder ts) := by
  obtain ⟨t₁, t₂, s', run, -⟩ := stale_expiry_overrides
  exact ⟨_, _, run, status_from_newest_iff_chainWide_inOrder run⟩

end Rovenue.Apple
