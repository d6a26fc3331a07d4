import Rovenue.Sdk.Error
import Rovenue.Threads.System

/-! The funnel claims of one install. Calls run at once on the one database of the SDK; a call's
tail writes the row of the claim's state, whether it succeeded or failed. -/

namespace Rovenue.Sdk
open Threads
open Txn (Table)

structure FunnelClaimState where
  state : String
  subscriberId : Option String
  claimedAtMs : Option ℕ
  createdAtMs : ℕ
  deriving DecidableEq

structure FunnelStore where
  -- the one row of `funnel_install`
  installId : Option String := none
  claims : Table String FunnelClaimState := Table.empty

/-- The statements of `get_or_create_install_id` that fail, if any, and what they would store. -/
structure InstallLookup where
  selectFails : Bool := false
  insertFails : Bool := false
  -- `inst_<cuid2>`
  fresh : String
  deriving DecidableEq

namespace FunnelStore
variable (store : FunnelStore)

def getInstallId (lookup : InstallLookup) : FunnelStore × String :=
  -- `install_id`: one section under the mutex; an error reads as the empty id
  match store.installId with
  | some id =>
    -- a failed read goes on to an insert that meets the row
    (store, if lookup.selectFails then "" else id)
  | none =>
    if lookup.insertFails then (store, "")
    else ({ store with installId := some lookup.fresh }, lookup.fresh)

def setClaimState (installId state : String) (subscriberId : Option String) (nowMs : ℕ) :
    FunnelStore :=
  let claimedAtMs := if state = "claimed" then some nowMs else none
  { store with
    claims := store.claims.set installId
      { state, subscriberId, claimedAtMs
        createdAtMs := ((store.claims.get? installId).map FunnelClaimState.createdAtMs).getD nowMs } }

def hasResolvedFunnelClaim : Bool :=
  match store.installId with
  | some id => (store.claims.get? id).any fun row => row.state = "claimed"
  | none => false

end FunnelStore

structure FunnelClaimResult where
  subscriberId : String
  funnelAnswersJson : String
  deriving DecidableEq

/-- Where a call of `claim_funnel_token` or `claim_install` stands. -/
inductive ClaimCall where
  | idle
  -- `claim_install`, before it has the install id, and waiting for the server
  | installLookup
  | installRequest (installId : String)
  -- `claim_funnel_token`, waiting for the server
  | tokenRequest
  -- `finish_claim`, before it has the install id, and before it writes the state
  | finishing (result : Except RovenueError FunnelClaimResult)
  | recording (installId : String) (result : Except RovenueError FunnelClaimResult)

inductive ClaimInput where
  | claimFunnelToken
  | claimInstall
  | lookup (lookup : InstallLookup)
  | installReply (reply : Except RovenueError (Option String))
  | tokenReply (reply : Except RovenueError FunnelClaimResult)
  -- the write of the state at a time; it may fail, which nobody is told
  | write (nowMs : ℕ) (fails : Bool)

def recordClaim (store : FunnelStore) (installId : String)
    (result : Except RovenueError FunnelClaimResult) (nowMs : ℕ) : FunnelStore :=
  match result with
  | .ok r => store.setClaimState installId "claimed" (some r.subscriberId) nowMs
  | .error _ => store.setClaimState installId "failed" none nowMs

def claimStep (store : FunnelStore) (call : ClaimCall) (input : ClaimInput) :
    FunnelStore × ClaimCall :=
  match call, input with
  | .idle, .claimFunnelToken => (store, .tokenRequest)
  | .idle, .claimInstall => (store, .installLookup)
  | .installLookup, .lookup lookup =>
    let (store, id) := store.getInstallId lookup
    (store, .installRequest id)
  -- an error and no match both leave the call without a write
  | .installRequest _, .installReply (.error _) => (store, .idle)
  | .installRequest _, .installReply (.ok none) => (store, .idle)
  | .installRequest _, .installReply (.ok (some _)) => (store, .tokenRequest)
  | .tokenRequest, .tokenReply reply => (store, .finishing reply)
  | .finishing result, .lookup lookup =>
    let (store, id) := store.getInstallId lookup
    (store, .recording id result)
  | .recording installId result, .write nowMs fails =>
    (if fails then store else recordClaim store installId result nowMs, .idle)
  | call, _ => (store, call)

def claimSystem : System FunnelStore ClaimCall ClaimInput Unit where
  step := claimStep
  env store _ := store
  reset _ _ := .idle

section Steps
variable {ι : Type} [DecidableEq ι] {w : World ι FunnelStore ClaimCall}

abbrev ClaimEvent (ι : Type) := Event ι ClaimInput Unit

def Records (w : World ι FunnelStore ClaimCall) (e : ClaimEvent ι) (installId : String) (ok : Bool) :
    Prop :=
  -- the step writes the outcome `ok` of a claim under the id
  ∃ i nowMs result, e = .act i (.write nowMs false) ∧ w.task i = .recording installId result ∧
    result.isOk = ok

def Resolved (w : World ι FunnelStore ClaimCall) : Prop := w.shared.hasResolvedFunnelClaim = true

/-- The step writes a failure to the row of this install. -/
def Overwrites (w : World ι FunnelStore ClaimCall) (e : ClaimEvent ι) : Prop :=
  ∃ id, w.shared.installId = some id ∧ Records w e id false

theorem getInstallId_change (store : FunnelStore) (lookup : InstallLookup) :
    (store.getInstallId lookup).1 = store ∨
      store.installId = none ∧ (store.getInstallId lookup).1 =
        { store with installId := some lookup.fresh } := by
  unfold FunnelStore.getInstallId
  cases h : store.installId with
  | some id => exact Or.inl rfl
  | none =>
    cases lookup.insertFails with
    | true => exact Or.inl rfl
    | false => exact Or.inr ⟨rfl, rfl⟩

@[simp] theorem installId_setClaimState (store : FunnelStore) (id state : String)
    (subscriberId : Option String) (nowMs : ℕ) :
    (store.setClaimState id state subscriberId nowMs).installId = store.installId := rfl

theorem installId_recordClaim (store : FunnelStore) (id : String)
    (result : Except RovenueError FunnelClaimResult) (nowMs : ℕ) :
    (recordClaim store id result nowMs).installId = store.installId := by
  cases result <;> rfl

theorem resolved_recordClaim {store : FunnelStore} {id own : String}
    (result : Except RovenueError FunnelClaimResult) (nowMs : ℕ) (hown : store.installId = some own) :
    (recordClaim store id result nowMs).hasResolvedFunnelClaim =
      if own = id then result.isOk else store.hasResolvedFunnelClaim := by
  have hclaims : ∀ state subscriberId,
      (store.setClaimState id state subscriberId nowMs).hasResolvedFunnelClaim =
        if own = id then decide (state = "claimed") else store.hasResolvedFunnelClaim := by
    intro state subscriberId
    unfold FunnelStore.hasResolvedFunnelClaim
    rw [installId_setClaimState, hown]
    simp only [FunnelStore.setClaimState, Table.get?_set]
    split_ifs <;> rfl
  unfold recordClaim
  cases result with
  | ok r =>
    rw [hclaims]
    rfl
  | error e =>
    rw [hclaims]
    rfl

theorem claimStep_cases (store : FunnelStore) (call : ClaimCall) (input : ClaimInput) :
    (∃ id result nowMs, call = .recording id result ∧ input = .write nowMs false ∧
      (claimStep store call input).1 = recordClaim store id result nowMs) ∨
    ((∀ id result nowMs, call = .recording id result → input ≠ .write nowMs false) ∧
      ((claimStep store call input).1 = store ∨ store.installId = none)) := by
  -- the steps that do not write a claim's state leave the rows of the claims and a known install id
  -- alone
  rcases call with _ | _ | _ | _ | _ | ⟨id, result⟩
  case recording =>
    rcases input with _ | _ | _ | _ | _ | ⟨nowMs, _ | _⟩
    case write.false => exact Or.inl ⟨id, result, nowMs, rfl, rfl, rfl⟩
    all_goals exact Or.inr ⟨nofun, Or.inl rfl⟩
  case installLookup =>
    cases input with
    | lookup lookup => exact Or.inr ⟨nofun, (getInstallId_change store lookup).imp id And.left⟩
    | _ => exact Or.inr ⟨nofun, Or.inl rfl⟩
  case finishing =>
    cases input with
    | lookup lookup => exact Or.inr ⟨nofun, (getInstallId_change store lookup).imp id And.left⟩
    | _ => exact Or.inr ⟨nofun, Or.inl rfl⟩
  case installRequest =>
    rcases input with _ | _ | _ | (_ | _ | _) | _ | _ <;> exact Or.inr ⟨nofun, Or.inl rfl⟩
  all_goals cases input <;> exact Or.inr ⟨nofun, Or.inl rfl⟩

omit [DecidableEq ι] in
theorem resolved_installId (h : Resolved w) : ∃ own, w.shared.installId = some own := by
  unfold Resolved FunnelStore.hasResolvedFunnelClaim at h
  cases hown : w.shared.installId with
  | some own => exact ⟨own, rfl⟩
  | none =>
    rw [hown] at h
    cases h

theorem resolved_next_iff (e : ClaimEvent ι) (h : Resolved w) :
    Resolved (claimSystem.next w e) ↔ ¬Overwrites w e := by
  obtain ⟨own, hown⟩ := resolved_installId h
  cases e with
  | env d =>
    refine iff_of_true h ?_
    rintro ⟨id, -, i, nowMs, result, he, -⟩
    cases he
  | act i input =>
    rcases claimStep_cases w.shared (w.task i) input with
      ⟨id, result, nowMs, hcall, rfl, hstore⟩ | ⟨hother, hstore⟩
    · have hnext : Resolved (claimSystem.next w (.act i (.write nowMs false))) ↔
          (if own = id then result.isOk else w.shared.hasResolvedFunnelClaim) = true := by
        rw [← resolved_recordClaim result nowMs hown, ← hstore]
        rfl
      have hover : Overwrites w (.act i (.write nowMs false)) ↔ own = id ∧ result.isOk = false := by
        constructor
        · rintro ⟨id', hid', j, nowMs', result', he, hcall', hok⟩
          cases he
          rw [hcall] at hcall'
          cases hcall'
          rw [hown, Option.some.injEq] at hid'
          exact ⟨hid', hok⟩
        · rintro ⟨rfl, hok⟩
          exact ⟨own, hown, i, nowMs, result, rfl, hcall, hok⟩
      rw [hnext, hover]
      split_ifs with hid
      · simp [hid]
      · exact iff_of_true h fun hboth => hid hboth.1
    · have hsame : (claimSystem.next w (.act i input)).shared = w.shared :=
        hstore.resolve_right (by rw [hown]; exact Option.some_ne_none _)
      refine iff_of_true ?_ ?_
      · unfold Resolved
        rw [hsame]
        exact h
      · rintro ⟨id, -, j, nowMs, result, he, hcall, -⟩
        cases he
        exact hother _ _ _ hcall rfl

theorem resolved_next_of_records {e : ClaimEvent ι} {id : String} (h : Records w e id true) :
    Resolved (claimSystem.next w e) ↔ w.shared.installId = some id ∨ Resolved w := by
  obtain ⟨i, nowMs, result, rfl, hcall, hok⟩ := h
  have hstore : (claimSystem.next w (.act i (.write nowMs false))).shared =
      recordClaim w.shared id result nowMs := by
    change (claimStep w.shared (w.task i) (.write nowMs false)).1 = _
    rw [hcall]
    rfl
  unfold Resolved
  rw [hstore]
  cases hown : w.shared.installId with
  | none =>
    have hnone : (recordClaim w.shared id result nowMs).installId = none := by
      rw [installId_recordClaim, hown]
    simp [FunnelStore.hasResolvedFunnelClaim, hnone, hown]
  | some own =>
    rw [resolved_recordClaim result nowMs hown, hok]
    split_ifs with hid
    · simp [hid]
    · simp [hid]

/-- After every success that is recorded, the install counts as resolved in each later state. -/
def StaysResolved (w : World ι FunnelStore ClaimCall) (evs : List (ClaimEvent ι)) : Prop :=
  ∀ before e after id, evs = before ++ e :: after →
    Records (claimSystem.runAll w before) e id true →
      ∀ v ∈ claimSystem.visited (claimSystem.next (claimSystem.runAll w before) e) after, Resolved v

/-- A claim stays resolved just when each success is recorded for this install and no failure is
recorded for it afterwards. -/
theorem staysResolved_iff (w : World ι FunnelStore ClaimCall) (evs : List (ClaimEvent ι)) :
    StaysResolved w evs ↔
      ∀ before e after id, evs = before ++ e :: after →
        Records (claimSystem.runAll w before) e id true →
          ((claimSystem.runAll w before).shared.installId = some id ∨
            Resolved (claimSystem.runAll w before)) ∧
          ∀ x ∈ claimSystem.transitions (claimSystem.next (claimSystem.runAll w before) e) after,
            ¬Overwrites x.1 x.2 := by
  let always : World ι FunnelStore ClaimCall → Prop := fun _ => True
  have hexact : ∀ v (e : ClaimEvent ι), always v → Resolved v →
      (Resolved (claimSystem.next v e) ↔ ¬Overwrites v e) := fun v e _ h => resolved_next_iff e h
  constructor
  · intro h before e after id hsplit hrecords
    have hall := h before e after id hsplit hrecords
    have hfirst := hall _ System.head_mem_visited
    refine ⟨(resolved_next_of_records hrecords).mp hfirst, ?_⟩
    exact (System.visited_iff (fun _ _ _ => trivial) hexact trivial hfirst).mp hall
  · intro h before e after id hsplit hrecords
    obtain ⟨hinstall, hkept⟩ := h before e after id hsplit hrecords
    have hfirst := (resolved_next_of_records hrecords).mpr hinstall
    exact (System.visited_iff (fun _ _ _ => trivial) hexact trivial hfirst).mpr hkept

end Steps

def unclaimedInstall : World Bool FunnelStore ClaimCall := ⟨{}, fun _ => .idle⟩

def claimedBy : FunnelClaimResult := ⟨"sub_1", "\x7b\x7d"⟩

def lateFailure : List (ClaimEvent Bool) :=
  [.act true .claimFunnelToken, .act false .claimFunnelToken, .act true (.tokenReply (.ok claimedBy)),
    .act true (.lookup ⟨false, false, "inst_a"⟩), .act true (.write 10 false),
    .act false (.tokenReply (.error (.ofKind .timeout))),
    .act false (.lookup ⟨false, false, "inst_b"⟩), .act false (.write 20 false)]

/-- The failure that comes late takes the install back to unresolved. -/
theorem late_failure_unresolves :
    ¬∀ (w : World Bool FunnelStore ClaimCall) (evs : List (ClaimEvent Bool)),
      StaysResolved w evs := by
  intro h
  have hall := h unclaimedInstall lateFailure (lateFailure.take 4) (.act true (.write 10 false))
    (lateFailure.drop 5) "inst_a" rfl ⟨true, 10, .ok claimedBy, rfl, rfl, rfl⟩
  have hlast := hall _ System.last_mem_visited
  revert hlast
  unfold Resolved
  decide

end Rovenue.Sdk
