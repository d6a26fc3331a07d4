import Rovenue.Experiments.ScheduleGraph

/-! The check alone finds every cycle that an update would close. Its verdict holds at the write
where the chain that it walked still does. -/

namespace Rovenue.Experiments
open Txn (Table)
open Threads Relation
open Graph (Cyclic)

variable {s : ScheduleDb} {projectId id p : String}

theorem mem_findScheduleChain {e : String × Option String} :
    e ∈ s.findScheduleChainByProject projectId ↔ ∃ row,
      s.experiments.get? e.1 = some row ∧ row.projectId = projectId ∧
        row.startAfterExperimentId = e.2 := by
  unfold ScheduleDb.findScheduleChainByProject
  rw [List.mem_map]
  constructor
  · rintro ⟨⟨id, row⟩, hmem, rfl⟩
    obtain ⟨hentry, hproject⟩ := List.mem_filter.1 hmem
    exact ⟨row, s.experiments.mem_entries.1 hentry, of_decide_eq_true hproject, rfl⟩
  · intro ⟨row, hget, hproject, hedge⟩
    refine ⟨(e.1, row), List.mem_filter.2 ⟨s.experiments.mem_entries.2 hget,
      decide_eq_true hproject⟩, ?_⟩
    rw [hedge]

theorem next_eq_some {a b : String} : s.next projectId a = some b ↔ ∃ row,
    s.experiments.get? a = some row ∧ row.projectId = projectId ∧
      row.startAfterExperimentId = some b ∧ b ≠ "" := by
  unfold ScheduleDb.next nextOf
  rw [Option.filter_eq_some_iff, Option.bind_eq_some_iff]
  constructor
  · intro ⟨⟨e, hfind, hedge⟩, hb⟩
    have hmem := List.mem_reverse.1 (List.mem_of_find?_eq_some hfind)
    have hid : e.1 = a := by simpa using List.find?_some hfind
    obtain ⟨row, hget, hproject, hstart⟩ := mem_findScheduleChain.1 hmem
    exact ⟨row, hid ▸ hget, hproject, hstart.trans hedge, of_decide_eq_true hb⟩
  · intro ⟨row, hget, hproject, hstart, hb⟩
    refine ⟨?_, decide_eq_true hb⟩
    have hmem : (a, some b) ∈ (s.findScheduleChainByProject projectId).reverse :=
      List.mem_reverse.2 (mem_findScheduleChain.2 ⟨row, hget, hproject, hstart⟩)
    have hsome : ((s.findScheduleChainByProject projectId).reverse.find?
        fun e => e.1 = a).isSome := List.find?_isSome.2 ⟨_, hmem, decide_eq_true rfl⟩
    obtain ⟨e, hfind⟩ := Option.isSome_iff_exists.1 hsome
    refine ⟨e, hfind, ?_⟩
    have hid : e.1 = a := by simpa using List.find?_some hfind
    obtain ⟨row', hget', -, hstart'⟩ := mem_findScheduleChain.1
      (List.mem_reverse.1 (List.mem_of_find?_eq_some hfind))
    rw [hid, hget] at hget'
    obtain rfl := Option.some.inj hget'
    exact hstart'.symm.trans hstart

theorem scheduleWalk_isSome (chain : List (String × Option String)) (target : Option String)
    (p : String) : (scheduleWalk chain target p).isSome := by
  have hkeys : ∀ v, (nextOf chain v).isSome = true → v ∈ chain.map Prod.fst := by
    intro v hv
    obtain ⟨b, hb⟩ := Option.isSome_iff_exists.1 hv
    unfold nextOf at hb
    obtain ⟨hedge, -⟩ := Option.filter_eq_some_iff.1 hb
    obtain ⟨e, hfind, -⟩ := Option.bind_eq_some_iff.1 hedge
    have hid : e.1 = v := by simpa using List.find?_some hfind
    have hmem := List.mem_reverse.1 (List.mem_of_find?_eq_some hfind)
    exact hid ▸ List.mem_map_of_mem hmem
  refine Graph.walk_isSome hkeys List.nodup_nil nofun ?_
  rw [List.length_map, List.length_nil]
  omega

theorem scheduleWalk_iff {chain : List (String × Option String)} :
    scheduleWalk chain (some id) p = some true ↔ ReflTransGen (Graph.Leads (nextOf chain)) p id :=
  Graph.walk_iff (scheduleWalk_isSome chain (some id) p)

theorem next_mono {s' : ScheduleDb} {a b : String}
    (hrows : ∀ row', s'.experiments.get? a = some row' → row'.startAfterExperimentId = some b →
      ∃ row, s.experiments.get? a = some row ∧ row.projectId = row'.projectId ∧
        row.startAfterExperimentId = some b)
    (h : Graph.Leads (s'.next projectId) a b) : Graph.Leads (s.next projectId) a b := by
  obtain ⟨row', hget', hproject, hedge, hb⟩ := next_eq_some.1 h
  obtain ⟨row, hget, hsame, hstart⟩ := hrows row' hget' hedge
  exact next_eq_some.2 ⟨row, hget, hsame.trans hproject, hstart, hb⟩

theorem next_setStatus {status : ExperimentStatus} {a b : String}
    (h : Graph.Leads ((s.setStatus id status).next projectId) a b) :
    Graph.Leads (s.next projectId) a b := by
  refine next_mono (fun row' hget' hedge => ?_) h
  change (s.experiments.modify id _).get? a = some row' at hget'
  rw [Table.get?_modify] at hget'
  split_ifs at hget'
  · obtain ⟨row, hget, rfl⟩ := Option.map_eq_some_iff.1 hget'
    exact ⟨row, hget, rfl, hedge⟩
  · exact ⟨row', hget', rfl, hedge⟩

theorem next_deleteExperiment {a b : String}
    (h : Graph.Leads ((s.deleteExperiment id).next projectId) a b) :
    Graph.Leads (s.next projectId) a b := by
  refine next_mono (fun row' hget' hedge => ?_) h
  change ((s.experiments.erase id).map (ExperimentRow.forget id)).get? a = some row' at hget'
  rw [Table.get?_map, Table.get?_erase] at hget'
  split_ifs at hget'
  · cases hget'
  · obtain ⟨row, hget, rfl⟩ := Option.map_eq_some_iff.1 hget'
    by_cases hpoints : row.startAfterExperimentId = some id
    · have hforget : row.forget id = { row with startAfterExperimentId := none } := if_pos hpoints
      rw [hforget] at hedge
      cases hedge
    · have hforget : row.forget id = row := if_neg hpoints
      rw [hforget] at hedge ⊢
      exact ⟨row, hget, rfl, hedge⟩

theorem next_clear {a b : String}
    (h : Graph.Leads ((s.updateExperiment id none).next projectId) a b) :
    Graph.Leads (s.next projectId) a b := by
  refine next_mono (fun row' hget' hedge => ?_) h
  change (s.experiments.modify id _).get? a = some row' at hget'
  rw [Table.get?_modify] at hget'
  split_ifs at hget'
  · obtain ⟨row, hget, rfl⟩ := Option.map_eq_some_iff.1 hget'
    cases hedge
  · exact ⟨row', hget', rfl, hedge⟩

theorem next_updateExperiment {a b : String} (hexists : s.exists? (some p) = true)
    (h : Graph.Leads ((s.updateExperiment id (some p)).next projectId) a b) :
    Graph.Leads (Function.update (s.next projectId) id (some p)) a b := by
  unfold ScheduleDb.updateExperiment at h
  rw [dif_pos hexists] at h
  by_cases ha : a = id
  · subst ha
    obtain ⟨row', hget', -, hedge, -⟩ := next_eq_some.1 h
    rw [Table.get?_modify, if_pos rfl] at hget'
    obtain ⟨row, -, rfl⟩ := Option.map_eq_some_iff.1 hget'
    obtain rfl := Option.some.inj hedge
    exact Graph.leads_update_self
  · rw [Graph.leads_update_of_ne ha]
    refine next_mono (fun row' hget' hedge => ⟨row', ?_, rfl, hedge⟩) h
    rwa [Table.get?_modify, if_neg ha] at hget'

theorem next_updateExperiment_eq {row : ExperimentRow} (hexists : s.exists? (some p) = true)
    (hp : p ≠ "") (hrow : s.findByIdInProject id projectId = some row) :
    (s.updateExperiment id (some p)).next projectId =
      Function.update (s.next projectId) id (some p) := by
  obtain ⟨hget, hproject⟩ := Option.filter_eq_some_iff.1 hrow
  funext a
  ext b
  refine ⟨next_updateExperiment hexists, fun h => ?_⟩
  unfold ScheduleDb.updateExperiment
  rw [dif_pos hexists]
  refine next_eq_some.2 ?_
  by_cases ha : a = id
  · subst ha
    obtain rfl : p = b := Option.some.inj (Graph.leads_update_self.symm.trans h)
    refine ⟨row.startAfter (some p), ?_, of_decide_eq_true hproject, rfl, hp⟩
    rw [Table.get?_modify, if_pos rfl, hget]
    rfl
  · obtain ⟨row', hget', hrest⟩ := next_eq_some.1 ((Graph.leads_update_of_ne ha).1 h)
    refine ⟨row', ?_, hrest⟩
    rwa [Table.get?_modify, if_neg ha]

theorem acyclic_createExperiment {row : ExperimentRow} (h : s.Acyclic projectId) :
    (s.createExperiment id row).Acyclic projectId := by
  unfold ScheduleDb.createExperiment
  split_ifs with hexists
  swap
  · exact h
  intro hcyclic
  have hrows : ∀ a, a ≠ id → (s.experiments.insert id row).get? a = s.experiments.get? a := by
    intro a ha
    rw [Table.get?_insert, if_neg ha]
  cases hold : s.experiments.get? id with
  | some row₀ =>
    refine h (hcyclic.mono fun a b hab => next_mono (fun row' hget' hedge => ?_) hab)
    refine ⟨row', ?_, rfl, hedge⟩
    by_cases ha : a = id
    · subst ha
      rw [Table.get?_insert, if_pos rfl, hold] at hget'
      rw [hold]
      exact hget'
    · rwa [hrows a ha] at hget'
  | none =>
    have hold' : ∀ a b, a ≠ id → Graph.Leads ((⟨s.experiments.insert id row,
        referenced_insert hexists⟩ : ScheduleDb).next projectId) a b →
        Graph.Leads (s.next projectId) a b := by
      intro a b ha hab
      refine next_mono (fun row' hget' hedge => ⟨row', ?_, rfl, hedge⟩) hab
      rwa [hrows a ha] at hget'
    have hown : ∀ b, Graph.Leads ((⟨s.experiments.insert id row,
        referenced_insert hexists⟩ : ScheduleDb).next projectId) id b →
        row.startAfterExperimentId = some b := by
      intro b hab
      obtain ⟨row', hget', -, hedge, -⟩ := next_eq_some.1 hab
      rw [Table.get?_insert, if_pos rfl, hold] at hget'
      obtain rfl := Option.some.inj hget'
      exact hedge
    cases hstart : row.startAfterExperimentId with
    | none =>
      refine h (hcyclic.mono fun a b hab => hold' a b (fun ha => ?_) hab)
      subst ha
      exact nomatch hstart.symm.trans (hown b hab)
    | some p =>
      unfold ScheduleDb.exists? at hexists
      rw [hstart] at hexists
      have hp : p ≠ id := by
        rintro rfl
        rw [Option.all_some, hold] at hexists
        cases hexists
      have hfresh : ∀ a, ¬Graph.Leads (s.next projectId) a id := by
        intro a hab
        obtain ⟨row', hget', -, hedge, -⟩ := next_eq_some.1 hab
        have hsome := s.references a row' id hget' hedge
        rw [hold] at hsome
        cases hsome
      refine h (Graph.cyclic_fresh hfresh hp (hcyclic.mono fun a b hab => ?_))
      by_cases ha : a = id
      · subst ha
        obtain rfl : p = b := Option.some.inj (hstart.symm.trans (hown b hab))
        exact Graph.leads_update_self
      · exact (Graph.leads_update_of_ne ha).2 (hold' a b ha hab)

def ScheduleCall.Passed (t : ScheduleCall) : Prop :=
  ∀ existing chain, t.stage = .checked existing chain → ∀ body p, t.request = .update body →
    p ∈ t.request.predecessor → ¬ReflTransGen (Graph.Leads (nextOf chain)) p t.id

theorem passed_begin {t : ScheduleCall} : (t.to (t.request.begin s t.id)).Passed := by
  intro existing chain hstage body p hrequest hp
  change t.request.begin s t.id = _ at hstage
  change t.request = _ at hrequest
  change p ∈ t.request.predecessor at hp
  rw [hrequest] at hstage hp
  simp only [ScheduleRequest.begin] at hstage
  cases hfound : s.findExperimentById t.id with
  | none => simp [hfound] at hstage
  | some row =>
    simp only [hfound] at hstage
    cases hstatus : row.status with
    | draft =>
      simp only [hstatus] at hstage
      have hpred : (body.join).filter (· ≠ "") = some p := hp
      rw [hpred] at hstage
      simp only at hstage
      split_ifs at hstage
    | _ => simp [hstatus] at hstage

theorem passed_step {t : ScheduleCall} {e : ScheduleEvent} (h : t.Passed) :
    (t.step s e).2.Passed := by
  obtain ⟨id, request, stage⟩ := t
  cases e with
  | crash => exact fun _ _ hstage => nomatch hstage
  | next =>
    cases stage with
    | waiting => exact passed_begin
    | read existing =>
      cases request with
      | delete => exact fun _ _ hstage => nomatch hstage
      | create row | update body =>
        simp only [ScheduleCall.step]
        split
        · exact fun _ _ hstage => nomatch hstage
        · split_ifs <;> exact fun _ _ hstage => nomatch hstage
    | found existing =>
      simp only [ScheduleCall.step]
      cases hpred : request.predecessor with
      | none => exact fun _ _ hstage => nomatch hstage
      | some p =>
        simp only
        split_ifs with hwalk
        · exact fun _ _ hstage => nomatch hstage
        · intro existing' chain hstage body q hrequest hq
          obtain ⟨rfl, rfl⟩ := ScheduleStage.checked.inj hstage
          change request = _ at hrequest
          obtain rfl : p = q := Option.some.inj (hpred.symm.trans hq)
          subst hrequest
          exact fun hpath => hwalk (scheduleWalk_iff.2 hpath)
    | checked existing chain => exact fun _ _ hstage => nomatch hstage
    | finished | rejected | lost => exact h

theorem path_of_holds {next chain : String → Option String} {q : String}
    (hholds : ∀ a b, ReflTransGen (Graph.Leads next) p a → next a = some b → chain a = some b)
    (h : ReflTransGen (Graph.Leads next) p q) : ReflTransGen (Graph.Leads chain) p q := by
  induction h with
  | refl => exact .refl
  | @tail a b hpath hedge ih => exact ih.tail (hholds a b hpath hedge)

theorem acyclic_updateExperiment {q : Option String} (h : s.Acyclic projectId)
    (hfar : ∀ p, q.filter (· ≠ "") = some p →
      ¬ReflTransGen (Graph.Leads (s.next projectId)) p id) :
    (s.updateExperiment id q).Acyclic projectId := by
  cases q with
  | none => exact fun hcyclic => h (hcyclic.mono fun _ _ hab => next_clear hab)
  | some p =>
    by_cases hexists : s.exists? (some p) = true
    swap
    · unfold ScheduleDb.updateExperiment
      rw [dif_neg hexists]
      exact h
    intro hcyclic
    by_cases hp : p = ""
    · refine h (hcyclic.mono fun a b hab => ?_)
      have hedge := next_updateExperiment hexists hab
      have ha : a ≠ id := by
        rintro rfl
        obtain ⟨-, -, -, -, hb⟩ := next_eq_some.1 hab
        exact hb ((hedge.unique Graph.leads_update_self).trans hp)
      exact (Graph.leads_update_of_ne ha).1 hedge
    · obtain hold | hpath := Graph.cyclic_update
        (hcyclic.mono fun _ _ hab => next_updateExperiment hexists hab)
      · exact h hold
      · exact hfar p (by simp [hp]) hpath

variable {ι : Type} [DecidableEq ι] {w : ScheduleWorld ι}

structure ScheduleInv (projectId : String) (w : ScheduleWorld ι) : Prop where
  acyclic : w.shared.Acyclic projectId
  passed : ∀ i, (w.task i).Passed

omit [DecidableEq ι] in
theorem acyclic_write {i : ι} {existing : ExperimentRow} {chain : List (String × Option String)}
    (hinv : ScheduleInv projectId w) (hstage : (w.task i).stage = .checked existing chain)
    (hholds : ChainHolds projectId w (.act i .next)) :
    ((w.task i).write w.shared).Acyclic projectId := by
  unfold ScheduleCall.write
  cases hrequest : (w.task i).request with
  | create row => exact acyclic_createExperiment hinv.acyclic
  | delete => exact fun hcyclic => hinv.acyclic (hcyclic.mono fun _ _ => next_deleteExperiment)
  | update body =>
    cases body with
    | none => exact hinv.acyclic
    | some q =>
      refine acyclic_updateExperiment hinv.acyclic fun p hp hpath => ?_
      have hpred : p ∈ (w.task i).request.predecessor := by
        rw [hrequest]
        exact hp
      exact hinv.passed i existing chain hstage (some q) p hrequest hpred
        (path_of_holds (hholds existing chain hstage (some q) p hrequest hpred) hpath)

omit [DecidableEq ι] in
theorem acyclic_step {i : ι} {e : ScheduleEvent} (hinv : ScheduleInv projectId w)
    (hholds : ChainHolds projectId w (.act i e)) :
    ((w.task i).step w.shared e).1.Acyclic projectId := by
  cases e with
  | crash => exact hinv.acyclic
  | next =>
    unfold ScheduleCall.step
    cases hstage : (w.task i).stage with
    | checked existing chain => exact acyclic_write hinv hstage hholds
    | read existing =>
      cases hrequest : (w.task i).request with
      | delete =>
        unfold ScheduleCall.write
        rw [hrequest]
        exact fun hcyclic => hinv.acyclic (hcyclic.mono fun _ _ => next_deleteExperiment)
      | create row | update body =>
        simp only
        split
        · exact hinv.acyclic
        · split_ifs <;> exact hinv.acyclic
    | found existing =>
      simp only
      split
      · exact hinv.acyclic
      · split_ifs <;> exact hinv.acyclic
    | _ => exact hinv.acyclic

theorem scheduleInv_next {ev : Event ι ScheduleEvent StatusChange}
    (hinv : ScheduleInv projectId w) (hholds : ChainHolds projectId w ev) :
    ScheduleInv projectId (scheduleSystem.next w ev) := by
  cases ev with
  | env d =>
    exact ⟨fun hcyclic => hinv.acyclic (hcyclic.mono fun _ _ => next_setStatus), hinv.passed⟩
  | act i e =>
    refine ⟨acyclic_step hinv hholds, fun j => ?_⟩
    by_cases hj : j = i
    · subst hj
      have hself : (scheduleSystem.next w (.act j e)).task j =
          ((w.task j).step w.shared e).2 := Function.update_self ..
      rw [hself]
      exact passed_step (hinv.passed j)
    · have hother : (scheduleSystem.next w (.act i e)).task j = w.task j :=
        Function.update_of_ne hj ..
      rw [hother]
      exact hinv.passed j

theorem assertNoScheduleCycle_iff {row : ExperimentRow} (hp : p ≠ "")
    (hrow : s.findByIdInProject id projectId = some row) :
    assertNoScheduleCycle s projectId (some id) (some p) ≠ .ok () ↔
      s.findByIdInProject p projectId = none ∨
        TransGen (Graph.Leads ((s.updateExperiment id (some p)).next projectId)) id id := by
  -- on one state, the check lets an update pass exactly when its predecessor is in the project and
  -- the new edge closes no cycle
  have hfilter : (some p).filter (· ≠ "") = some p := by simp [hp]
  unfold assertNoScheduleCycle
  rw [hfilter]
  simp only
  cases hpred : s.findByIdInProject p projectId with
  | none => split_ifs <;> simp_all
  | some pred =>
    have hexists : s.exists? (some p) = true := by
      obtain ⟨hget, -⟩ := Option.filter_eq_some_iff.1 hpred
      unfold ScheduleDb.exists?
      rw [Option.all_some, hget]
      rfl
    rw [next_updateExperiment_eq hexists hp hrow, Graph.closes_iff]
    have hwalk : scheduleWalk (s.findScheduleChainByProject projectId) (some id) p = some true ↔
        ReflTransGen (Graph.Leads (s.next projectId)) p id := scheduleWalk_iff
    rw [← hwalk]
    by_cases hself : id = p
    · subst hself
      have hmeets := hwalk.2 .refl
      simp [hmeets]
    · have hne : some id ≠ some p := fun heq => hself (Option.some.inj heq)
      rw [if_neg hne, if_neg (by simp)]
      split_ifs with hmeets <;> simp [hmeets]

/-- Where the chains that the updates walked hold at their writes, the graph stays without a
cycle; the check alone is exact; and the walk ends on every edge map. -/
theorem schedule_acyclic {evs : List (Event ι ScheduleEvent StatusChange)}
    (hacyclic : w.shared.Acyclic projectId) (hwaiting : ∀ i, (w.task i).stage = .waiting)
    (hholds : ∀ x ∈ scheduleSystem.transitions w evs, ChainHolds projectId x.1 x.2) :
    (∀ v ∈ scheduleSystem.visited w evs, v.shared.Acyclic projectId) ∧
    (∀ (s : ScheduleDb) (id p : String) (row : ExperimentRow), p ≠ "" →
      s.findByIdInProject id projectId = some row →
        (assertNoScheduleCycle s projectId (some id) (some p) ≠ .ok () ↔
          s.findByIdInProject p projectId = none ∨
            TransGen (Graph.Leads ((s.updateExperiment id (some p)).next projectId)) id id)) ∧
    ∀ (chain : List (String × Option String)) (experimentId : Option String) (p : String),
      (scheduleWalk chain experimentId p).isSome := by
  refine ⟨fun v hv => ?_, fun s id p row => assertNoScheduleCycle_iff, scheduleWalk_isSome⟩
  have hpassed : ∀ i, (w.task i).Passed := fun i _ _ hstage =>
    nomatch (hwaiting i).symm.trans hstage
  have hinv : ScheduleInv projectId v := scheduleSystem.visited_induct
    (fun _ _ hinv hev => scheduleInv_next hinv hev) ⟨hacyclic, hpassed⟩ hholds v hv
  exact hinv.acyclic

def ChainSame (projectId : String) (w : ScheduleWorld ι) :
    Event ι ScheduleEvent StatusChange → Bool
  | .act i .next =>
    match (w.task i).stage with
    | .checked _ chain => chain = w.shared.findScheduleChainByProject projectId
    | _ => true
  | _ => true

omit [DecidableEq ι] in
theorem chainHolds_of_same {ev : Event ι ScheduleEvent StatusChange}
    (h : ChainSame projectId w ev = true) : ChainHolds projectId w ev := by
  cases ev with
  | env d => trivial
  | act i e =>
    cases e with
    | crash => trivial
    | next =>
      intro existing chain hstage body p _ _ a b _ hedge
      simp only [ChainSame, hstage] at h
      rw [of_decide_eq_true h]
      exact hedge

def emptySchedule : ScheduleDb where
  experiments := .empty
  references id row p hget := by
    rw [Table.get?_empty] at hget
    cases hget

def unscheduled : ExperimentRow := { projectId := "p", type := .flag }

def threeDrafts : ScheduleDb :=
  ((emptySchedule.createExperiment "a" unscheduled).createExperiment "b"
    unscheduled).createExperiment "c" unscheduled

theorem threeDrafts_acyclic : threeDrafts.Acyclic "p" := by
  have hempty : emptySchedule.Acyclic "p" := by
    intro ⟨v, hv⟩
    obtain ⟨u, hedge, -⟩ := TransGen.head'_iff.1 hv
    cases hedge
  exact acyclic_createExperiment (acyclic_createExperiment (acyclic_createExperiment hempty))

def twoUpdates (next : String) : ScheduleWorld (Fin 2) where
  -- the first asks to start after the second, the second after `next`
  shared := threeDrafts
  task
    | 0 => ⟨"a", .update (some (some "b")), .waiting⟩
    | 1 => ⟨"b", .update (some (some next)), .waiting⟩

theorem schedule_acyclic_inTurn :
    (∀ v ∈ scheduleSystem.visited (twoUpdates "c") ((List.replicate 4 (.act 0 .next)) ++
      List.replicate 4 (.act 1 .next)), v.shared.Acyclic "p") ∧
    (∀ (s : ScheduleDb) (id p : String) (row : ExperimentRow), p ≠ "" →
      s.findByIdInProject id "p" = some row →
        (assertNoScheduleCycle s "p" (some id) (some p) ≠ .ok () ↔
          s.findByIdInProject p "p" = none ∨
            TransGen (Graph.Leads ((s.updateExperiment id (some p)).next "p")) id id)) ∧
    ∀ (chain : List (String × Option String)) (experimentId : Option String) (p : String),
      (scheduleWalk chain experimentId p).isSome :=
  schedule_acyclic threeDrafts_acyclic (fun i => by fin_cases i <;> rfl) fun x hx =>
    chainHolds_of_same <| by
      have hsame : ∀ x ∈ scheduleSystem.transitions (twoUpdates "c")
          ((List.replicate 4 (.act 0 .next)) ++ List.replicate 4 (.act 1 .next)),
          ChainSame "p" x.1 x.2 = true := by decide
      exact hsame x hx

/-- Each passes the check before the other one writes. -/
theorem crossing_updates_close_cycle :
    threeDrafts.Acyclic "p" ∧
    ¬(scheduleSystem.runAll (twoUpdates "a") ((List.replicate 3 (.act 0 .next)) ++
      List.replicate 3 (.act 1 .next) ++ [.act 0 .next, .act 1 .next])).shared.Acyclic "p" := by
  refine ⟨threeDrafts_acyclic, not_not.2 ⟨"a", .tail (.single ?_) (?_ : Graph.Leads _ "b" "a")⟩⟩
  · unfold Graph.Leads
    decide
  · unfold Graph.Leads
    decide

end Rovenue.Experiments
