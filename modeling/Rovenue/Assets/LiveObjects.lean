import Rovenue.Assets.Interference

/-! Over every interleaving of uploads, deletes and sweeps: storage stays within its quota and no
live row points at bytes that are gone, as long as each upload commits within the grace window. -/

namespace Rovenue.Assets
open Txn

variable {ι : Type} {calls : ι → Call} {s₀ : AssetDb} {i : ι} {u : Upload}
  {held : Set LockKey} {h h' : History ι AssetDb Write}

def NoRow (u : Upload) (h : History ι AssetDb Write) : Prop :=
  h.db.assets.get? u.assetId = none

def NotPut (u : Upload) (h : History ι AssetDb Write) : Prop := ∀ t, ¬Put h u.storageKey t

def Unreserved (u : Upload) (h : History ι AssetDb Write) : Prop :=
  h.db.reservations.get? u.reservationId = none

theorem NoRow.mono (hcall : calls i = .upload u) (hrow : NoRow u h)
    (hr : Spares calls s₀ i held h h') : NoRow u h' := hr.ownRow u hcall hrow

theorem NotPut.mono (hcall : calls i = .upload u) (hput : NotPut u h)
    (hr : Spares calls s₀ i held h h') : NotPut u h' :=
  fun t hnew => hput t (hr.ownPut u hcall t hnew)

theorem Reserved.mono {reservationId : String} (hcall : calls i = .upload u)
    (hres : Reserved s₀ u reservationId h) (hr : Spares calls s₀ i held h h') :
    Reserved s₀ u reservationId h' := by
  obtain hunlimited | ⟨rfl, r, hopened, hproject, hopen⟩ := hres
  · exact .inl hunlimited
  · refine .inr ⟨rfl, r, hr.opened _ r hopened, hproject, fun hnow => ?_⟩
    exact hr.ownReservation u hcall r (hopen (hr.now.trans_lt hnow)) hnow

theorem Stored.mono (hcall : calls i = .upload u) (hstored : Stored u h) (hrow : NoRow u h)
    (hr : Spares calls s₀ i held h h') : Stored u h' := by
  obtain ⟨t, hput, hthere⟩ := hstored
  refine ⟨t, hr.put _ t hput, fun hnow => ?_⟩
  exact hr.ownObject u hcall hrow t (hthere (hr.now.trans_lt hnow)) hnow

def Settled {α : Type} (R : α → History ι AssetDb Write → Prop) (a : α) (held : Set LockKey)
    (pend : List Write) (h : History ι AssetDb Write) : Prop := held = ∅ ∧ pend = [] ∧ R a h

section Statements
variable {hids : Distinct calls s₀}

theorem autocommit_safe {w : AssetDb → List Write} {R : History ι AssetDb Write → Prop}
    (hlaw : ∀ h₁ h₂, Sound s₀ h₁ → Sound s₀ h₂ → Spares calls s₀ i ∅ h h₁ →
      Spares calls s₀ i ∅ h₁ h₂ →
        Lawful calls s₀ i ∅ h₂ (w h₁.db) ∧ R (h₂.commit i (w h₁.db))) :
    Safe (assetDiscipline hids) i
      (Prog.exec (fun _ => []) w fun _ => () : AssetService Unit).autocommit ∅ [] h
      (Settled fun _ => R) := by
  refine Safe.autocommit (Safe.exec fun h₁ hs₁ hr₁ h₂ hs₂ hr₂ => ?_)
  have hheld : ({k | k ∈ ([] : List LockKey)} ∪ ∅ : Set LockKey) = ∅ := by simp
  rw [hheld] at hr₂ ⊢
  obtain ⟨hlawful, hR⟩ := hlaw h₁ h₂ hs₁ hs₂ hr₁ hr₂
  exact ⟨hlawful, fun _ => ⟨rfl, rfl, hR⟩⟩

theorem attempt_safe {o : Outcome} {p : AssetService Unit} {pend : List Write}
    {Q : Bool → Set LockKey → List Write → History ι AssetDb Write → Prop}
    (hfailed : Q false held pend h)
    (hp : Safe (assetDiscipline hids) i p held pend h fun _ held pend h =>
      Q true held pend h ∧ Q false held pend h) :
    Safe (assetDiscipline hids) i (attempt o p) held pend h Q := by
  cases o with
  | failed => exact hfailed
  | done => exact hp.bind fun _ _ _ _ hQ => hQ.1
  | unseen => exact hp.bind fun _ _ _ _ hQ => hQ.2

theorem release_safe (hcall : calls i = .upload u) {reservationId : String}
    (hres : reservationId = UNLIMITED_RESERVATION ∨ reservationId = u.reservationId) :
    Safe (assetDiscipline hids) i (releaseReservation reservationId).autocommit ∅ [] h
      (Settled fun _ h' => NoRow u h → NoRow u h') := by
  rw [releaseReservation]
  split_ifs with hsentinel
  · refine Safe.autocommit fun h₁ hs₁ hr₁ => ⟨.nothing, fun _ => ⟨rfl, rfl, fun hrow => ?_⟩⟩
    have hrow₁ : NoRow u h₁ := hrow.mono hcall hr₁
    exact hrow₁
  · obtain rfl := hres.resolve_left hsentinel
    refine autocommit_safe fun h₁ h₂ _ _ hr₁ hr₂ => ⟨.release hcall, fun hrow => ?_⟩
    have hrow₂ : NoRow u h₂ := (hrow.mono hcall hr₁).mono hcall hr₂
    exact hrow₂

theorem releaseReservationOrLog_safe (hcall : calls i = .upload u) {reservationId : String}
    (hres : reservationId = UNLIMITED_RESERVATION ∨ reservationId = u.reservationId) :
    Safe (assetDiscipline hids) i (u.releaseReservationOrLog reservationId) ∅ [] h
      (Settled fun _ h' => NoRow u h → NoRow u h') := by
  refine Safe.bind (attempt_safe (Q := Settled fun _ h' => NoRow u h → NoRow u h')
    ⟨rfl, rfl, id⟩ ?_) fun _ _ _ _ hQ => hQ
  exact (release_safe hcall hres).mono fun _ _ _ _ hQ => ⟨hQ, hQ⟩

theorem discard_safe (hcall : calls i = .upload u) (hrow : NoRow u h) :
    Safe (assetDiscipline hids) i (attempt u.delete (deleteObject u.storageKey)) ∅ [] h
      (Settled fun _ _ => True) := by
  refine attempt_safe ⟨rfl, rfl, trivial⟩ (Safe.mono (autocommit_safe
    (R := fun _ => True) fun h₁ h₂ _ _ hr₁ hr₂ => ⟨?_, trivial⟩) fun _ _ _ _ hQ => ⟨hQ, hQ⟩)
  exact .discard hcall ((hrow.mono hcall hr₁).mono hcall hr₂)

structure Holding (s₀ : AssetDb) (u : Upload) (reservationId : String)
    (h : History ι AssetDb Write) : Prop where
  row : NoRow u h
  reserved : Reserved s₀ u reservationId h

theorem Holding.mono {reservationId : String} (hcall : calls i = .upload u)
    (hh : Holding s₀ u reservationId h) (hr : Spares calls s₀ i held h h') :
    Holding s₀ u reservationId h' := ⟨hh.row.mono hcall hr, hh.reserved.mono hcall hr⟩

theorem Reserved.id {reservationId : String} (hres : Reserved s₀ u reservationId h) :
    reservationId = UNLIMITED_RESERVATION ∨ reservationId = u.reservationId :=
  hres.imp And.left And.left

theorem reserveStorage_safe (hcall : calls i = .upload u) (hrow : NoRow u h) (hput : NotPut u h)
    (hres : Unreserved u h) (bytes : ℕ) :
    Safe (assetDiscipline hids) i (reserveStorage u.reservationId u.projectId bytes) ∅ [] h
      (Settled fun reserved h' => NotPut u h' ∧
        ∀ reservationId, reserved = some reservationId → Holding s₀ u reservationId h') := by
  refine Safe.bind (Safe.query (Q := fun limit held pend h' => held = ∅ ∧ pend = [] ∧
    limit = tierLimitBytes s₀.billing u.projectId ∧ NoRow u h' ∧ NotPut u h' ∧ Unreserved u h')
    fun h₁ hs₁ hr₁ => ⟨rfl, rfl, congrArg (tierLimitBytes · u.projectId) hs₁.billing,
      hrow.mono hcall hr₁, hput.mono hcall hr₁, hr₁.noReservation u hcall hres⟩) ?_
  rintro limit _ _ h₁ ⟨rfl, rfl, hlimit, hrow₁, hput₁, hres₁⟩
  cases limit with
  | none =>
    refine ⟨rfl, rfl, hput₁, ?_⟩
    rintro _ ⟨⟩
    exact ⟨hrow₁, .inl ⟨rfl, hlimit.symm⟩⟩
  | some limit =>
    refine Safe.transaction fun _ => Safe.bind (Safe.query (Q := fun _ held pend h' =>
      held = ∅ ∧ pend = [] ∧ NoRow u h' ∧ NotPut u h' ∧ Unreserved u h')
      fun h₂ _ hr₂ => ⟨rfl, rfl, hrow₁.mono hcall hr₂, hput₁.mono hcall hr₂,
        hr₂.noReservation u hcall hres₁⟩) ?_
    rintro createdAt _ _ h₂ ⟨rfl, rfl, hrow₂, hput₂, hres₂⟩
    refine Safe.bind (Safe.acquire (Q := fun _ held pend h' => held = {.quota u.projectId} ∧
      pend = [] ∧ NoRow u h' ∧ NotPut u h' ∧ Unreserved u h') fun h₃ _ hr₃ =>
        ⟨by simp, rfl, hrow₂.mono hcall hr₃, hput₂.mono hcall hr₃,
          hr₃.noReservation u hcall hres₂⟩) ?_
    rintro _ _ _ h₃ ⟨rfl, rfl, hrow₃, hput₃, hres₃⟩
    refine Safe.exec fun h₄ _ hr₄ => ?_
    have hheld : ({k | k ∈ ([] : List LockKey)} ∪ {.quota u.projectId} : Set LockKey) =
        {.quota u.projectId} := by simp
    rw [hheld, applyAll_nil, List.nil_append]
    split_ifs with hfit
    · intro h₅ hs₅ hr₅
      have hr := hr₄.trans hr₅
      have hquota := hr₅.quota u.projectId limit hlimit.symm (Set.mem_singleton _)
      have hnew : Unreserved u h₅ := hr.noReservation u hcall hres₃
      refine ⟨.reserve createdAt hcall hlimit.symm (Set.mem_singleton _) (by omega) hnew,
        fun _ => ⟨rfl, rfl, ?_, ?_⟩⟩
      · intro t hnewPut
        exact (hput₃.mono hcall hr) t ((put_commit.1 hnewPut).resolve_right (by simp))
      · rintro _ ⟨⟩
        have hrow₅ : NoRow u h₅ := hrow₃.mono hcall hr
        refine ⟨hrow₅, .inr ⟨rfl, _, opened_commit.2 (.inr rfl), rfl, fun _ => ?_⟩⟩
        have hget := (Table.get?_insert (t := h₅.db.reservations) (k := u.reservationId)
          (r := ⟨u.projectId, bytes, createdAt⟩)).trans (if_pos rfl)
        rw [hnew, Option.getD_none] at hget
        exact hget
    · intro h₅ hs₅ hr₅
      refine ⟨.nothing, fun _ => ⟨rfl, rfl, ?_, by simp⟩⟩
      intro t hnewPut
      exact (hput₃.mono hcall (hr₄.trans hr₅)) t ((put_commit.1 hnewPut).resolve_right (by simp))

end Statements

section Uploads
variable {hids : Distinct calls s₀} {c : Content} {reservationId : String}

theorem putObjectOrReleaseReservation_safe (hcall : calls i = .upload u)
    (hh : Holding s₀ u reservationId h) (hput : NotPut u h) :
    Safe (assetDiscipline hids) i (u.putObjectOrReleaseReservation reservationId) ∅ [] h
      (Settled fun failure h' =>
        failure = none → Holding s₀ u reservationId h' ∧ Stored u h') := by
  have hstored : Safe (assetDiscipline hids) i (attempt u.put (putObject u.storageKey)) ∅ [] h
      (Settled fun stored h' =>
        stored = true → Holding s₀ u reservationId h' ∧ Stored u h') := by
    refine attempt_safe ⟨rfl, rfl, by simp⟩ (Safe.mono (autocommit_safe
      (R := fun h' => Holding s₀ u reservationId h' ∧ Stored u h') fun h₁ h₂ _ _ hr₁ hr₂ => ?_)
      fun _ _ _ _ hQ => ⟨⟨hQ.1, hQ.2.1, fun _ => hQ.2.2⟩, hQ.1, hQ.2.1, by simp⟩)
    have hr := hr₁.trans hr₂
    obtain ⟨hrow₂, hres₂⟩ := hh.mono hcall hr
    refine ⟨.put _ hcall hrow₂ (hput.mono hcall hr), ⟨hrow₂, ?_⟩, h₁.db.now, ?_, fun _ => ?_⟩
    · exact hres₂.imp_right fun ⟨hid, r, hopened, hrest⟩ =>
        ⟨hid, r, opened_commit.2 (.inl hopened), hrest⟩
    · exact put_commit.2 (.inr rfl)
    · exact (Table.get?_set _).trans (if_pos rfl)
  refine hstored.bind ?_
  rintro stored _ _ h₁ ⟨rfl, rfl, hknown⟩
  cases stored with
  | true => exact ⟨rfl, rfl, fun _ => hknown rfl⟩
  | false =>
    refine Safe.bind (releaseReservationOrLog_safe hcall hh.reserved.id) ?_
    rintro _ _ _ h₂ ⟨rfl, rfl, -⟩
    exact ⟨rfl, rfl, by simp⟩

theorem insertRow_safe (hcall : calls i = .upload u) (hh : Holding s₀ u reservationId h)
    (hstored : Stored u h) :
    Safe (assetDiscipline hids) i (u.insertRow c reservationId) ∅ [] h
      (Settled fun created h' => created = false → NoRow u h') := by
  refine Safe.transaction fun _ => Safe.bind (Q := fun created _ pend h' =>
    pend = (if created = true then [.insertAsset u.assetId (u.row c)] else []) ∧
      Holding s₀ u reservationId h' ∧ Stored u h') (Safe.exec fun h₁ _ hr₁ => ⟨?_,
        hh.mono hcall hr₁, hstored.mono hcall hh.row hr₁⟩) ?_
  · rw [List.nil_append, applyAll_nil]
    cases findLiveAssetByHash (u.row c).projectId (u.row c).contentHash h₁.db <;> rfl
  · rintro created held _ h₁ ⟨rfl, hh₁, hstored₁⟩
    cases created with
    | true =>
      have hcommit : ∀ (held' : Set LockKey) (h₂ : History ι AssetDb Write),
          Spares calls s₀ i held h₁ h₂ → ∀ h₃, Sound s₀ h₃ → Spares calls s₀ i held' h₂ h₃ →
            Lawful calls s₀ i held' h₃
              (.insertAsset u.assetId (u.row c) :: releaseWrites reservationId) ∧
              (InTime (.insertAsset u.assetId (u.row c) :: releaseWrites reservationId) h₃ →
                Settled (fun created h' => created = false → NoRow u h') true ∅ []
                  (h₃.commit i
                    (.insertAsset u.assetId (u.row c) :: releaseWrites reservationId))) := by
        intro held' h₂ hr₂ h₃ _ hr₃
        have hh₂ := hh₁.mono hcall hr₂
        have hh₃ := hh₂.mono hcall hr₃
        have hstored₃ := (hstored₁.mono hcall hh₁.row hr₂).mono hcall hh₂.row hr₃
        exact ⟨.create hcall hh₃.row hstored₃ hh₃.reserved, fun _ => ⟨rfl, rfl, by simp⟩⟩
      rw [if_pos rfl]
      by_cases hsentinel : reservationId = UNLIMITED_RESERVATION
      · rw [releaseWrites, if_pos hsentinel] at hcommit
        simp only [if_true, releaseReservation, if_pos hsentinel]
        exact fun h₃ hs₃ hr₃ => hcommit held h₁ Spares.refl h₃ hs₃ hr₃
      · rw [releaseWrites, if_neg hsentinel] at hcommit
        simp only [if_true, releaseReservation, if_neg hsentinel]
        refine Safe.bind (Safe.exec (Q := fun _ held' pend h₂ =>
          pend = [.insertAsset u.assetId (u.row c), .deleteReservation reservationId] ∧
            Spares calls s₀ i held h₁ h₂) fun h₂ _ hr₂ => ⟨rfl, hr₂⟩) ?_
        rintro _ held' _ h₂ ⟨rfl, hr₂⟩ h₃ hs₃ hr₃
        exact hcommit held' h₂ hr₂ h₃ hs₃ hr₃
    | false =>
      intro h₂ _ hr₂
      have hrow₂ : NoRow u h₂ := hh₁.row.mono hcall hr₂
      exact ⟨.nothing, fun _ => ⟨rfl, rfl, fun _ => hrow₂⟩⟩

theorem commitAssetRow_safe (hcall : calls i = .upload u) (hh : Holding s₀ u reservationId h)
    (hstored : Stored u h) :
    Safe (assetDiscipline hids) i (u.commitAssetRow c reservationId) ∅ [] h
      (Settled fun _ _ => True) := by
  have hid := hh.reserved.id
  rw [Upload.commitAssetRow]
  by_cases hfailed : u.rowTx = .failed
  · rw [if_pos hfailed]
    exact Safe.bind (releaseReservationOrLog_safe hcall hid) fun _ _ _ _ _ => trivial
  · rw [if_neg hfailed]
    refine Safe.bind (insertRow_safe hcall hh hstored) ?_
    rintro created _ _ h₁ ⟨rfl, rfl, hrow⟩
    cases created with
    | true =>
      simp only [if_true]
      split_ifs
      · exact ⟨rfl, rfl, trivial⟩
      · exact Safe.bind (releaseReservationOrLog_safe hcall hid) fun _ _ _ _ _ => trivial
    | false =>
      refine Safe.bind (Safe.query (Q := Settled fun _ h' => NoRow u h') fun h₂ _ hr₂ =>
        ⟨rfl, rfl, (hrow rfl).mono hcall hr₂⟩) ?_
      rintro existing _ _ h₂ ⟨rfl, rfl, hrow₂⟩
      refine Safe.bind (releaseReservationOrLog_safe hcall hid) ?_
      rintro _ _ _ h₃ ⟨rfl, rfl, hrow₃⟩
      refine Safe.bind (discard_safe hcall (hrow₃ hrow₂)) ?_
      rintro _ _ _ h₄ ⟨rfl, rfl, -⟩
      cases existing with
      | none => trivial
      | some e => exact ⟨rfl, rfl, trivial⟩

structure Untouched (u : Upload) (h : History ι AssetDb Write) : Prop where
  row : NoRow u h
  put : NotPut u h
  reservation : Unreserved u h

theorem Untouched.mono (hcall : calls i = .upload u) (hu : Untouched u h)
    (hr : Spares calls s₀ i held h h') : Untouched u h' :=
  ⟨hu.row.mono hcall hr, hu.put.mono hcall hr, hr.noReservation u hcall hu.reservation⟩

theorem query_safe {α : Type} {g : AssetDb → α} (hcall : calls i = .upload u)
    (hu : Untouched u h) : Safe (assetDiscipline hids) i (Prog.query g : AssetService α) ∅ [] h
      (Settled fun _ h' => Untouched u h') :=
  Safe.query fun _ _ hr => ⟨rfl, rfl, hu.mono hcall hr⟩

theorem reserveAndStore_safe (hcall : calls i = .upload u) (hu : Untouched u h) :
    Safe (assetDiscipline hids) i (u.reserveAndStore c) ∅ [] h (Settled fun _ _ => True) := by
  refine Safe.bind (query_safe hcall hu) ?_
  rintro existing _ _ h₁ ⟨rfl, rfl, hu₁⟩
  cases existing with
  | some e => exact ⟨rfl, rfl, trivial⟩
  | none =>
    refine Safe.bind (reserveStorage_safe hcall hu₁.row hu₁.put hu₁.reservation c.byteSize) ?_
    rintro reserved _ _ h₂ ⟨rfl, rfl, hput₂, hh₂⟩
    cases reserved with
    | none => exact ⟨rfl, rfl, trivial⟩
    | some reservationId =>
      refine Safe.bind (putObjectOrReleaseReservation_safe hcall (hh₂ _ rfl) hput₂) ?_
      rintro failure _ _ h₃ ⟨rfl, rfl, hknown⟩
      cases failure with
      | some response => exact ⟨rfl, rfl, trivial⟩
      | none => exact commitAssetRow_safe hcall (hknown rfl).1 (hknown rfl).2

theorem handleBuffered_safe (hcall : calls i = .upload u) (hu : Untouched u h) :
    Safe (assetDiscipline hids) i u.handleBuffered ∅ [] h (Settled fun _ _ => True) := by
  rw [Upload.handleBuffered]
  split_ifs
  · exact ⟨rfl, rfl, trivial⟩
  · cases u.content with
    | error message => exact ⟨rfl, rfl, trivial⟩
    | ok c => exact reserveAndStore_safe hcall hu

theorem streamVideo_safe (hcall : calls i = .upload u) (hu : Untouched u h) (declared : ℕ) :
    Safe (assetDiscipline hids) i (u.streamVideo declared c) ∅ [] h (Settled fun _ _ => True) := by
  refine Safe.bind (reserveStorage_safe hcall hu.row hu.put hu.reservation declared) ?_
  rintro reserved _ _ h₁ ⟨rfl, rfl, hput₁, hh₁⟩
  cases reserved with
  | none => exact ⟨rfl, rfl, trivial⟩
  | some reservationId =>
    have hh := hh₁ _ rfl
    have hid := hh.reserved.id
    dsimp only
    split_ifs
    · refine Safe.bind (release_safe hcall hid) ?_
      rintro _ _ _ h₂ ⟨rfl, rfl, -⟩
      exact ⟨rfl, rfl, trivial⟩
    · refine Safe.bind (putObjectOrReleaseReservation_safe hcall hh hput₁) ?_
      rintro failure _ _ h₂ ⟨rfl, rfl, hknown⟩
      cases failure with
      | some response => exact ⟨rfl, rfl, trivial⟩
      | none =>
        obtain ⟨hh₂, hstored₂⟩ := hknown rfl
        refine Safe.bind (Safe.query (Q := Settled fun _ h' =>
          Holding s₀ u reservationId h' ∧ Stored u h') fun h₃ _ hr₃ =>
            ⟨rfl, rfl, hh₂.mono hcall hr₃, hstored₂.mono hcall hh₂.row hr₃⟩) ?_
        rintro existing _ _ h₃ ⟨rfl, rfl, hh₃, hstored₃⟩
        cases existing with
        | some e =>
          refine Safe.bind (release_safe hcall hid) ?_
          rintro _ _ _ h₄ ⟨rfl, rfl, hrow₄⟩
          refine Safe.bind (discard_safe hcall (hrow₄ hh₃.row)) ?_
          rintro _ _ _ h₅ ⟨rfl, rfl, -⟩
          exact ⟨rfl, rfl, trivial⟩
        | none => exact commitAssetRow_safe hcall hh₃ hstored₃

theorem processAssetUpload_safe (hcall : calls i = .upload u) (hu : Untouched u h) :
    Safe (assetDiscipline hids) i u.processAssetUpload ∅ [] h (Settled fun _ _ => True) := by
  rw [Upload.processAssetUpload]
  split_ifs
  · exact ⟨rfl, rfl, trivial⟩
  · trivial
  · exact ⟨rfl, rfl, trivial⟩
  · refine Safe.bind (query_safe hcall hu) ?_
    rintro limit _ _ h₁ ⟨rfl, rfl, hu₁⟩
    refine Safe.bind (query_safe hcall hu₁) ?_
    rintro used _ _ h₂ ⟨rfl, rfl, hu₂⟩
    split_ifs
    · exact ⟨rfl, rfl, trivial⟩
    · cases u.kind with
      | image => exact handleBuffered_safe hcall hu₂
      | lottie => exact handleBuffered_safe hcall hu₂
      | video =>
        simp only [Upload.handleStreamedVideo]
        split
        · exact streamVideo_safe hcall hu₂ _
        · exact handleBuffered_safe hcall hu₂

end Uploads

section Deletes
variable {hids : Distinct calls s₀} {id key projectId : String}

def Known (id key projectId : String) (h : History ι AssetDb Write) : Prop :=
  ∃ row, h.db.assets.get? id = some row ∧ row.storageKey = key ∧ row.projectId = projectId

def Tombstoned (id key : String) (h : History ι AssetDb Write) : Prop :=
  ∃ row, h.db.assets.get? id = some row ∧ row.storageKey = key ∧ row.live = false

theorem Known.mono (hk : Known id key projectId h) (hr : Spares calls s₀ i held h h') :
    Known id key projectId h' := by
  obtain ⟨row, hrow, hkey, hproject⟩ := hk
  obtain ⟨row', hrow', hkey', hproject', -⟩ := hr.rows id row hrow
  exact ⟨row', hrow', hkey'.trans hkey, hproject'.trans hproject⟩

theorem Tombstoned.mono (ht : Tombstoned id key h) (hr : Spares calls s₀ i held h h') :
    Tombstoned id key h' := by
  obtain ⟨row, hrow, hkey, hdead⟩ := ht
  obtain ⟨row', hrow', hkey', -, hdead'⟩ := hr.rows id row hrow
  exact ⟨row', hrow', hkey'.trans hkey, hdead' hdead⟩

theorem findAssetById_some {row : PaywallAsset} {s : AssetDb}
    (h : findAssetById projectId id s = some row) :
    s.assets.get? id = some row ∧ row.projectId = projectId := by
  obtain ⟨hrow, hp⟩ := Option.filter_eq_some_iff.1 h
  exact ⟨hrow, by simpa using (of_decide_eq_true hp).1⟩

theorem softDeleteAsset_safe (hk : Known id key projectId h) :
    Safe (assetDiscipline hids) i (Prog.transaction fun _ => softDeleteAsset projectId id) ∅ [] h
      (Settled fun _ h' => Tombstoned id key h') := by
  refine Safe.transaction fun _ => Safe.bind (Safe.query (Q := fun _ held pend h' =>
    pend = [] ∧ Known id key projectId h') fun h₁ _ hr₁ => ⟨rfl, hk.mono hr₁⟩) ?_
  rintro deletedAt held _ h₁ ⟨rfl, hk₁⟩
  refine Safe.exec fun h₂ _ hr₂ h₃ _ hr₃ => ?_
  rw [applyAll_nil, List.nil_append]
  cases hfound : findAssetById projectId id h₂.db with
  | some row =>
    refine ⟨.tombstone id deletedAt, fun _ => ⟨rfl, rfl, ?_⟩⟩
    obtain ⟨row₃, hrow₃, hkey₃, -⟩ := (hk₁.mono hr₂).mono hr₃
    refine ⟨row₃.tombstone deletedAt, ?_, hkey₃, rfl⟩
    refine (Table.get?_modify h₃.db.assets).trans ?_
    rw [if_pos rfl, hrow₃, Option.map_some]
  | none =>
    refine ⟨.nothing, fun _ => ⟨rfl, rfl, ?_⟩⟩
    have hdead₂ : Tombstoned id key h₂ := by
      obtain ⟨row₂, hrow₂, hkey₂, hproject₂⟩ := hk₁.mono hr₂
      refine ⟨row₂, hrow₂, hkey₂, ?_⟩
      rw [findAssetById, hrow₂] at hfound
      simpa [Option.filter, hproject₂] using hfound
    obtain ⟨row₃, hrow₃, hkey₃, hdead₃⟩ := hdead₂.mono hr₃
    exact ⟨row₃, hrow₃, hkey₃, hdead₃⟩

theorem purge_safe (o : Outcome) (ht : Tombstoned id key h) :
    Safe (assetDiscipline hids) i (attempt o (deleteObject key)) ∅ [] h
      (Settled fun _ _ => True) := by
  refine attempt_safe ⟨rfl, rfl, trivial⟩ (Safe.mono (autocommit_safe
    (R := fun _ => True) fun h₁ h₂ _ _ hr₁ hr₂ => ⟨?_, trivial⟩) fun _ _ _ _ hQ => ⟨hQ, hQ⟩)
  obtain ⟨row, hrow, rfl, hdead⟩ := (ht.mono hr₁).mono hr₂
  exact .purge hrow hdead

theorem deletion_safe (d : Deletion) :
    Safe (assetDiscipline hids) i d.run ∅ [] h (Settled fun _ _ => True) := by
  rw [Deletion.run]
  by_cases hpermitted : (!d.permitted) = true
  · rw [if_pos hpermitted]
    trivial
  · rw [if_neg hpermitted]
    refine Safe.bind (Safe.query (Q := Settled fun found h' => ∀ row, found = some row →
      Known d.assetId row.storageKey d.projectId h') fun h₁ _ _ => ⟨rfl, rfl, ?_⟩) ?_
    · intro row hfound
      obtain ⟨hrow, hproject⟩ := findAssetById_some hfound
      exact ⟨row, hrow, rfl, hproject⟩
    · rintro found _ _ h₁ ⟨rfl, rfl, hfound⟩
      cases found with
      | none => exact ⟨rfl, rfl, trivial⟩
      | some asset =>
        have hk := hfound asset rfl
        dsimp only
        split_ifs
        · exact ⟨rfl, rfl, trivial⟩
        · refine Safe.bind (attempt_safe (Q := Settled fun tombstoned h' =>
            tombstoned = true → Tombstoned d.assetId asset.storageKey h') ⟨rfl, rfl, by simp⟩
            ((softDeleteAsset_safe hk).mono fun _ _ _ _ hQ =>
              ⟨⟨hQ.1, hQ.2.1, fun _ => hQ.2.2⟩, hQ.1, hQ.2.1, by simp⟩)) ?_
          rintro tombstoned _ _ h₂ ⟨rfl, rfl, ht⟩
          cases tombstoned with
          | false => trivial
          | true =>
            refine Safe.bind (purge_safe d.delete (ht rfl)) ?_
            rintro _ _ _ h₃ ⟨rfl, rfl, -⟩
            exact ⟨rfl, rfl, trivial⟩

end Deletes

section Sweeps
variable {hids : Distinct calls s₀} {w : Sweep} {started : ℤ} {live : List String}

def Snapshot (calls : ι → Call) (s₀ : AssetDb) (i : ι) (started : ℤ) (live : List String)
    (h : History ι AssetDb Write) : Prop :=
  ∃ h₀, started ≤ h₀.db.now ∧ live = liveKeys h₀.db ∧ Spares calls s₀ i ∅ h₀ h

theorem Snapshot.mono (hsnap : Snapshot calls s₀ i started live h)
    (hr : Spares calls s₀ i ∅ h h') : Snapshot calls s₀ i started live h' := by
  obtain ⟨h₀, hstart, hlive, hr₀⟩ := hsnap
  exact ⟨h₀, hstart, hlive, hr₀.trans hr⟩

theorem Snapshot.now_le (hsnap : Snapshot calls s₀ i started live h) : started ≤ h.db.now := by
  obtain ⟨h₀, hstart, -, hr₀⟩ := hsnap
  exact hstart.trans hr₀.now

theorem mem_liveKeys {s : AssetDb} {id : String} {row : PaywallAsset}
    (h : s.assets.get? id = some row) (hlive : row.live) : row.storageKey ∈ liveKeys s := by
  have hmem : (id, row) ∈ s.assets.entries := s.assets.mem_entries.2 h
  exact List.mem_map.2 ⟨(id, row), List.mem_filter.2 ⟨hmem, hlive⟩, rfl⟩

theorem Sound.lastModified_eq (hs : Sound s₀ h) (hs' : Sound s₀ h')
    (hput : ∀ key t, Put h key t → Put h' key t) {key : String} {t t' : ℤ}
    (hobj : h.db.bucket.get? key = some t) (hobj' : h'.db.bucket.get? key = some t') : t = t' := by
  obtain hold | hnew := hs.origin key t hobj
  · obtain hold' | hnew' := hs'.origin key t' hobj'
    · exact Option.some.inj (hold.symm.trans hold')
    · rw [hs'.putNew key t' hnew'] at hold
      cases hold
  · exact (hs'.lastModified hobj' (hput key t hnew)).symm

theorem Snapshot.not_live (hsnap : Snapshot calls s₀ i started live h') (hs : Sound s₀ h)
    (hs' : Sound s₀ h') (hr : Spares calls s₀ i ∅ h h') {key : String} {t : ℤ} (hkey : key ∉ live)
    (hobj : h.db.bucket.get? key = some t) (hold : t + graceMs ≤ started) {id : String}
    {row : PaywallAsset} (hrow : h'.db.assets.get? id = some row) (hlive : row.live) :
    row.storageKey ≠ key := by
  rintro rfl
  obtain ⟨h₀, hstart, rfl, hr₀⟩ := hsnap
  obtain ⟨row₀, hrow₀, hlive₀⟩ | ⟨t', hput, hnow⟩ := hr₀.live id row hrow hlive
  · obtain ⟨row', hrow', hkey', -⟩ := hr₀.rows id row₀ hrow₀
    obtain rfl := Option.some.inj (hrow.symm.trans hrow')
    exact hkey (hkey' ▸ mem_liveKeys hrow₀ hlive₀)
  · obtain hinit | hnew := hs.origin _ t hobj
    · rw [hs'.putNew _ t' hput] at hinit
      cases hinit
    · obtain rfl := hs'.putOnce _ t t' (hr.put _ t hnew) hput
      omega

theorem listAllKeys_safe (hsnap : Snapshot calls s₀ i started live h) (tokens : List String)
    (after : Option String) :
    Safe (assetDiscipline hids) i (listAllKeys after tokens) ∅ [] h
      (Settled fun _ h' => Snapshot calls s₀ i started live h') := by
  induction tokens generalizing after h with
  | nil => exact Safe.query fun _ _ hr => ⟨rfl, rfl, hsnap.mono hr⟩
  | cons token tokens ih =>
    refine Safe.bind (Safe.query (Q := Settled fun _ h' => Snapshot calls s₀ i started live h')
      fun _ _ hr => ⟨rfl, rfl, hsnap.mono hr⟩) ?_
    rintro page _ _ h₁ ⟨rfl, rfl, hsnap₁⟩
    refine Safe.bind (ih hsnap₁ (some token)) ?_
    rintro rest _ _ h₂ ⟨rfl, rfl, hsnap₂⟩
    exact ⟨rfl, rfl, hsnap₂⟩

theorem sweepObject_safe (hcall : calls i = .sweep w)
    (hsnap : Snapshot calls s₀ i started live h) (hs : Sound s₀ h) {key : String} {t : ℤ}
    (hkey : key ∉ live) (hobj : h.db.bucket.get? key = some t) (hold : t + graceMs ≤ started) :
    Safe (assetDiscipline hids) i (deleteObject key) ∅ [] h
      (Settled fun _ h' => Snapshot calls s₀ i started live h') := by
  refine autocommit_safe fun h₁ h₂ _ hs₂ hr₁ hr₂ => ?_
  have hr := hr₁.trans hr₂
  have hsnap₂ := hsnap.mono hr
  have hage : ∀ t', h₂.db.bucket.get? key = some t' → t' + graceMs ≤ h₂.db.now := by
    intro t' hobj'
    obtain rfl := hs.lastModified_eq hs₂ hr.put hobj hobj'
    exact hold.trans hsnap₂.now_le
  refine ⟨.sweep (fun id row hrow hlive =>
    hsnap₂.not_live hs hs₂ hr hkey hobj hold hrow hlive) hage, hsnap₂.mono ?_⟩
  exact .deleteObject fun u hu => by rw [hcall] at hu; cases hu

theorem sweepKeys_safe (hcall : calls i = .sweep w)
    (hsnap : Snapshot calls s₀ i started live h) (keys : List String) (reclaimed : ℕ) :
    Safe (assetDiscipline hids) i (sweepKeys w.unseen (started - graceMs) live keys reclaimed)
      ∅ [] h (Settled fun _ h' => Snapshot calls s₀ i started live h') := by
  induction keys generalizing h reclaimed with
  | nil => exact ⟨rfl, rfl, hsnap⟩
  | cons key keys ih =>
    rw [sweepKeys]
    split_ifs with hkey
    · exact ih hsnap reclaimed
    · refine Safe.bind (Safe.query (Q := Settled fun lastModified h' =>
        Snapshot calls s₀ i started live h' ∧ Sound s₀ h' ∧
          ∀ t, lastModified = some t → h'.db.bucket.get? key = some t) fun h₁ hs₁ hr₁ =>
            ⟨rfl, rfl, hsnap.mono hr₁, hs₁, fun t ht => ?_⟩) ?_
      · rw [applyAll_nil] at ht
        split_ifs at ht
        exact ht
      · rintro lastModified _ _ h₁ ⟨rfl, rfl, hsnap₁, hs₁, hobj⟩
        cases lastModified with
        | none => exact ih hsnap₁ reclaimed
        | some t =>
          dsimp only
          split_ifs with hyoung
          · exact ih hsnap₁ reclaimed
          · refine Safe.bind (sweepObject_safe hcall hsnap₁ hs₁ hkey (hobj t rfl) (by omega)) ?_
            rintro _ _ _ h₂ ⟨rfl, rfl, hsnap₂⟩
            exact ih hsnap₂ (reclaimed + 1)

theorem sweepOrphanedAssets_safe (hcall : calls i = .sweep w) :
    Safe (assetDiscipline hids) i (sweepOrphanedAssets w) ∅ [] h (Settled fun _ _ => True) := by
  refine Safe.bind (Safe.query (Q := Settled fun now h' => now ≤ h'.db.now) fun h₁ _ _ =>
    ⟨rfl, rfl, le_refl _⟩) ?_
  rintro started _ _ h₁ ⟨rfl, rfl, hstart⟩
  refine Safe.bind (Safe.query (Q := Settled fun live h' =>
    Snapshot calls s₀ i started live h') fun h₂ _ hr₂ =>
      ⟨rfl, rfl, h₂, hstart.trans hr₂.now, rfl, Spares.refl⟩) ?_
  rintro live _ _ h₂ ⟨rfl, rfl, hsnap₂⟩
  refine Safe.bind (listAllKeys_safe hsnap₂ w.pageEnds none) ?_
  rintro keys _ _ h₃ ⟨rfl, rfl, hsnap₃⟩
  refine Safe.bind (sweepKeys_safe hcall hsnap₃ keys 0) ?_
  rintro reclaimed _ _ h₄ ⟨rfl, rfl, hsnap₄⟩
  refine Safe.bind (autocommit_safe (R := fun _ => True) fun h₅ h₆ _ _ hr₅ hr₆ =>
    ⟨.expire _ ?_, trivial⟩) fun _ _ _ _ hQ => hQ
  have hnow := ((hsnap₄.mono hr₅).mono hr₆).now_le
  omega

end Sweeps

section Runs

theorem call_safe (hids : Distinct calls s₀) (i : ι) :
    Safe (assetDiscipline hids) i (calls i).run ∅ [] ⟨s₀, []⟩ fun _ _ _ _ => True := by
  cases hcall : calls i with
  | upload u =>
    have hu : Untouched u (⟨s₀, []⟩ : History ι AssetDb Write) :=
      ⟨hids.asset hcall, fun t hput => by simp [Put] at hput, hids.reservation hcall⟩
    exact Safe.bind (processAssetUpload_safe hcall hu) fun _ _ _ _ _ => trivial
  | delete d => exact Safe.bind (deletion_safe d) fun _ _ _ _ _ => trivial
  | sweep w => exact Safe.bind (sweepOrphanedAssets_safe hcall) fun _ _ _ _ _ => trivial
  | clock elapses =>
    refine Safe.mono (Safe.forEach (I := fun held pend _ => held = ∅ ∧ pend = []) elapses
      (fun n _ held pend h hI => ?_) ⟨rfl, rfl⟩) fun _ _ _ _ _ => trivial
    obtain ⟨rfl, rfl⟩ := hI
    exact (autocommit_safe (R := fun _ => True) fun h₁ h₂ _ _ _ _ =>
      ⟨.elapse n, trivial⟩).mono fun _ _ _ _ hQ => ⟨hQ.1, hQ.2.1⟩

def assetWorld (calls : ι → Call) (s₀ : AssetDb) : World ι AssetDb LockKey Write String :=
  .init s₀ 0 fun i => (calls i).run

theorem sound_init (hkeyed : WellKeyed s₀) (hquota : WithinQuota s₀) (hstored : LiveStored s₀) :
    Sound s₀ (⟨s₀, []⟩ : History ι AssetDb Write) where
  billing := rfl
  quota := hquota
  keyed := hkeyed
  stored := hstored
  origin _ _ hobj := .inl hobj
  putOnce _ _ _ hput := by simp [Put] at hput
  putNew _ _ hput := by simp [Put] at hput

variable [DecidableEq ι]

theorem assetWorld_sound (hids : Distinct calls s₀) (hkeyed : WellKeyed s₀)
    (hquota : WithinQuota s₀) (hstored : LiveStored s₀) (evs : List (Event ι String))
    (htime : ∀ c ∈ (assetWorld calls s₀).commits evs, InTime c.writes c.before) :
    ∀ h ∈ (assetWorld calls s₀).visited evs, Sound s₀ h := by
  have hsafe : (assetWorld calls s₀).Safe (assetDiscipline hids) :=
    .init (sound_init hkeyed hquota hstored) fun i => call_safe hids i
  exact hsafe.visited htime

/-- While every upload commits within the grace window, no sweep, delete or failure takes the
bytes of a live row. -/
theorem live_assets_stored (hids : Distinct calls s₀) (hkeyed : WellKeyed s₀)
    (hquota : WithinQuota s₀) (hstored : LiveStored s₀) (evs : List (Event ι String))
    (htime : ∀ c ∈ (assetWorld calls s₀).commits evs, InTime c.writes c.before) :
    ∀ h ∈ (assetWorld calls s₀).visited evs, LiveStored h.db := by
  intro h hh
  exact (assetWorld_sound hids hkeyed hquota hstored evs htime h hh).stored

/-- And concurrent uploads never overshoot a project's storage limit. -/
theorem storage_within_quota (hids : Distinct calls s₀) (hkeyed : WellKeyed s₀)
    (hquota : WithinQuota s₀) (hstored : LiveStored s₀) (evs : List (Event ι String))
    (htime : ∀ c ∈ (assetWorld calls s₀).commits evs, InTime c.writes c.before) :
    ∀ h ∈ (assetWorld calls s₀).visited evs, WithinQuota h.db := by
  intro h hh
  exact (assetWorld_sound hids hkeyed hquota hstored evs htime h hh).quota

end Runs

def raceDb : AssetDb where
  billing := { tierLimits := ⟨[(("free", "monthly"), some 10)], by decide⟩ }

def raceUpload (assetId reservationId contentHash : String) (byteSize : ℕ) : Upload where
  kind := .image
  projectId := "p"
  name := "hero.png"
  assetId := assetId
  reservationId := reservationId
  detected := some .image
  content := .ok ⟨contentHash, byteSize⟩

def raceCalls : Fin 4 → Call
  | 0 => .upload (raceUpload "a" "r" "x" 6)
  | 1 => .upload (raceUpload "b" "s" "y" 7)
  | 2 => .clock [86400000]
  | 3 => .sweep {}

def raceEvents : List (Event (Fin 4) String) :=
  (List.replicate 22 [.run 0, .run 1]).flatten ++ [.run 2, .run 2] ++ List.replicate 9 (.run 3)

theorem raceIds : Distinct raceCalls raceDb where
  assetId {i j u v} hi hj heq := by
    fin_cases i <;> fin_cases j <;> cases hi <;> cases hj <;> first | rfl | simp [raceUpload] at heq
  reservationId {i j u v} hi hj heq := by
    fin_cases i <;> fin_cases j <;> cases hi <;> cases hj <;> first | rfl | simp [raceUpload] at heq
  clean {i u} hi := by fin_cases i <;> cases hi <;> decide
  limited {i u} hi := by fin_cases i <;> cases hi <;> decide
  asset {i u} hi := rfl
  object {i u} hi := rfl
  reservation {i u} hi := rfl

theorem raceDb_withinQuota : WithinQuota raceDb := by
  intro p limit hlimit
  have hten : tierLimitBytes raceDb.billing p = some 10 := rfl
  obtain rfl := Option.some.inj (hten.symm.trans hlimit)
  exact (by decide : (0 : ℤ) ≤ 10)

theorem race_in_time : ∀ c ∈ (assetWorld raceCalls raceDb).commits raceEvents,
    InTime c.writes c.before := by
  decide +kernel

theorem live_assets_stored_race :
    LiveStored ((assetWorld raceCalls raceDb).runAll raceEvents).hist.db :=
  live_assets_stored raceIds (fun _ _ h => by cases h) raceDb_withinQuota
    (fun _ _ h => by cases h) raceEvents race_in_time _ (World.last_mem_visited _ _)

theorem storage_within_quota_race :
    WithinQuota ((assetWorld raceCalls raceDb).runAll raceEvents).hist.db :=
  storage_within_quota raceIds (fun _ _ h => by cases h) raceDb_withinQuota
    (fun _ _ h => by cases h) raceEvents race_in_time _ (World.last_mem_visited _ _)

end Rovenue.Assets
