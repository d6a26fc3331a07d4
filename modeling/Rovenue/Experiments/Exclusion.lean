import Rovenue.Experiments.Engine

/-! Experiments of one mutual-exclusion group: what a call may return, and what the calls
together may leave assigned. -/

namespace Rovenue.Experiments
open Threads
open Txn (Table)

def Exclusive (groupOf : String → Option String) (ids : Set String) : Prop :=
  ∀ a ∈ ids, ∀ b ∈ ids, ∀ g, namespaceOf (groupOf a) = some g →
    namespaceOf (groupOf b) = some g → a = b

def NoRivals (groupOf : String → Option String) (ids ids' : Set String) : Prop :=
  ∀ a ∈ ids, ∀ b ∈ ids', ∀ g, namespaceOf (groupOf a) = some g →
    namespaceOf (groupOf b) = some g → a = b

def Assignments.ids (assigned : Assignments) : Set String := {id | (assigned.get? id).isSome}

variable {ι A V Q : Type} {groupOf : String → Option String}

def Evaluation.newIds (ev : Evaluation V) : Set String := {id | id ∈ ev.newAssignments.map Prod.fst}

def resultIds (results : Table String (ExperimentResult V)) : Set String :=
  {id | ∃ key r, results.get? key = some r ∧ r.experimentId = id}

section Sets
variable {ids ids' : Set String}

theorem Exclusive.mono (h : Exclusive groupOf ids) (hsub : ids' ⊆ ids) : Exclusive groupOf ids' :=
  fun a ha b hb => h a (hsub ha) b (hsub hb)

theorem exclusive_union_iff (h : Exclusive groupOf ids) (h' : Exclusive groupOf ids') :
    Exclusive groupOf (ids ∪ ids') ↔ NoRivals groupOf ids' ids := by
  constructor
  · intro hunion a ha b hb
    exact hunion a (.inr ha) b (.inl hb)
  · intro hrivals a ha b hb g hag hbg
    rcases ha with ha | ha
    · rcases hb with hb | hb
      · exact h a ha b hb g hag hbg
      · exact (hrivals b hb a ha g hbg hag).symm
    · rcases hb with hb | hb
      · exact hrivals a ha b hb g hag hbg
      · exact h' a ha b hb g hag hbg

theorem ids_insertAssignments (assigned : Assignments) (rows : List (String × String)) :
    (insertAssignmentsSkipDuplicates assigned rows).ids =
      assigned.ids ∪ {id | id ∈ rows.map Prod.fst} := by
  induction rows generalizing assigned with
  | nil => simp [insertAssignmentsSkipDuplicates]
  | cons row rows ih =>
    have hhead : Assignments.ids (assigned.insert row.1 row.2) = assigned.ids ∪ {row.1} := by
      ext id
      simp only [Assignments.ids, Set.mem_ofPred_eq, Table.get?_insert, Set.mem_union,
        Set.mem_singleton_iff]
      by_cases hid : id = row.1 <;> simp [hid]
    rw [insertAssignmentsSkipDuplicates, List.foldl_cons]
    refine (ih _).trans ?_
    rw [hhead]
    ext id
    simp only [Set.mem_union, Set.mem_singleton_iff, Set.mem_ofPred_eq, List.map_cons,
      List.mem_cons, or_assoc]

end Sets

/-- What the loop keeps: every group with a member is claimed, and the results are among the
assignments, old and new. -/
structure Consistent (groupOf : String → Option String) (assigned : Assignments)
    (ev : Evaluation V) : Prop where
  claimed : ∀ id ∈ assigned.ids ∪ ev.newIds, ∀ g, namespaceOf (groupOf id) = some g →
    g ∈ ev.namespacesClaimed
  results : resultIds ev.results ⊆ assigned.ids ∪ ev.newIds
  exclusive : Exclusive groupOf assigned.ids → Exclusive groupOf (assigned.ids ∪ ev.newIds)

section Loop
variable {lib : Library A Q} {bundle : ExperimentBundle V Q groupOf} {subscriberId : String}
  {attributes : A} {assigned : Assignments} {ev ev' : Evaluation V} {exp : CachedExperiment V}
  {variant : Variant V}

theorem mem_ids_of_sticky (h : stickyVariant assigned exp = some variant) :
    exp.id ∈ assigned.ids := by
  obtain ⟨variantId, hid, -⟩ := Option.bind_eq_some_iff.1 h
  have hget := (Option.filter_eq_some_iff.1 hid).1
  rw [Assignments.ids, Set.mem_ofPred_eq, hget]
  rfl

theorem Consistent.record (h : Consistent groupOf assigned ev)
    (hmem : exp.id ∈ assigned.ids ∪ ev.newIds) :
    Consistent groupOf assigned (ev.record exp variant) where
  claimed := h.claimed
  exclusive := h.exclusive
  results := by
    rintro id ⟨key, r, hr, rfl⟩
    rw [Evaluation.record, Table.get?_set] at hr
    split_ifs at hr
    · obtain rfl := Option.some.inj hr
      exact hmem
    · exact h.results ⟨key, r, hr, rfl⟩

theorem Consistent.assign (h : Consistent groupOf assigned ev)
    (hgroup : exp.mutualExclusionGroup = groupOf exp.id) (hfree : excluded assigned ev exp = false) :
    Consistent groupOf assigned (ev.assign exp variant) := by
  have hids : assigned.ids ∪ (ev.assign exp variant).newIds =
      (assigned.ids ∪ ev.newIds) ∪ {exp.id} := by
    ext id
    simp only [Evaluation.newIds, Evaluation.assign, List.map_append, List.mem_append, Set.mem_union,
      Set.mem_ofPred_eq, List.map_cons, List.map_nil, List.mem_singleton, Set.mem_singleton_iff,
      or_assoc]
  have hclaims : (ev.assign exp variant).namespacesClaimed =
      ev.namespacesClaimed ∪ (namespaceOf (groupOf exp.id)).toFinset := by
    rw [← hgroup]
    rfl
  constructor
  · intro id hid g hg
    rw [hids] at hid
    rw [hclaims, Finset.mem_union, Option.mem_toFinset]
    rcases hid with hold | rfl
    · exact .inl (h.claimed id hold g hg)
    · exact .inr hg
  · rw [hids]
    exact h.results.trans Set.subset_union_left
  · intro hassigned
    have hbefore := h.exclusive hassigned
    rw [hids, exclusive_union_iff hbefore]
    · rintro a rfl b hb g hag hbg
      by_contra hne
      -- the group is claimed by another, so only an assignment of its own lets it through
      have hclaimed := h.claimed b hb g hbg
      have hany : (namespaceOf exp.mutualExclusionGroup).any (· ∈ ev.namespacesClaimed) = true := by
        rw [hgroup, hag]
        simpa using hclaimed
      rw [excluded, hany, Bool.true_and, Option.isNone_eq_false_iff] at hfree
      exact hne (hbefore exp.id (.inl hfree) b hb g hag hbg)
    · rintro a rfl b rfl g - -
      rfl

theorem Consistent.evaluateExperiment (h : Consistent groupOf assigned ev)
    (hgroup : exp.mutualExclusionGroup = groupOf exp.id)
    (heval : evaluateExperiment lib bundle subscriberId attributes assigned ev exp = some ev') :
    Consistent groupOf assigned ev' := by
  unfold Experiments.evaluateExperiment at heval
  rcases haudience : bundle.audiences.get? exp.audienceId with _ | rules
  · simp only [haudience, Option.some.injEq] at heval
    exact heval ▸ h
  simp only [haudience] at heval
  split_ifs at heval with hmatch hheld hexcluded
  · obtain rfl := Option.some.inj heval
    exact h
  · obtain rfl := Option.some.inj heval
    exact ⟨h.claimed, h.results, h.exclusive⟩
  · obtain rfl := Option.some.inj heval
    exact h
  · rcases hsticky : stickyVariant assigned exp with _ | variant
    · simp only [hsticky] at heval
      obtain ⟨variant, -, rfl⟩ := Option.map_eq_some_iff.1 heval
      refine (h.assign hgroup (by simpa using hexcluded)).record (.inr ?_)
      simp [Evaluation.newIds, Evaluation.assign]
    · simp only [hsticky, Option.some.injEq] at heval
      subst heval
      exact h.record (.inl (mem_ids_of_sticky hsticky))

theorem consistent_of_evaluate
    (heval : evaluate lib bundle subscriberId attributes assigned = some ev) :
    Consistent groupOf assigned ev := by
  have hloop : ∀ (exps : List (CachedExperiment V)) (ev₀ ev : Evaluation V),
      (∀ exp ∈ exps, exp.mutualExclusionGroup = groupOf exp.id) → Consistent groupOf assigned ev₀ →
      exps.foldlM (Experiments.evaluateExperiment lib bundle subscriberId attributes assigned) ev₀ =
        some ev → Consistent groupOf assigned ev := by
    intro exps
    induction exps with
    | nil =>
      intro ev₀ ev _ h₀ hfold
      obtain rfl := Option.some.inj hfold
      exact h₀
    | cons exp exps ih =>
      intro ev₀ ev hgroups h₀ hfold
      obtain ⟨mid, hmid, hrest⟩ := Option.bind_eq_some_iff.1 hfold
      have hhead := h₀.evaluateExperiment (hgroups exp (List.mem_cons_self ..)) hmid
      exact ih mid ev (fun e he => hgroups e (List.mem_cons_of_mem _ he)) hhead hrest
  refine hloop _ _ _ bundle.fixed ?_ heval
  constructor
  · rintro id (hid | hid) g hg
    · obtain ⟨variantId, hvariant⟩ := Option.isSome_iff_exists.1 hid
      have hmem := assigned.mem_entries.2 hvariant
      rw [claimedBy, List.mem_toFinset, List.mem_filterMap]
      exact ⟨id, List.mem_map.2 ⟨_, hmem, rfl⟩, hg⟩
    · simp [Evaluation.newIds] at hid
  · rintro id ⟨key, r, hr, -⟩
    simp at hr
  · intro h
    refine h.mono ?_
    rintro id (hid | hid)
    · exact hid
    · simp [Evaluation.newIds] at hid

end Loop

def Stage.ids : Stage V Q groupOf → Set String
  | .publishing _ ev | .inserting ev => resultIds ev.results ∪ ev.newIds
  | .returned results => resultIds results
  | _ => ∅

/-- Neither what is assigned nor what a call returned has two experiments of one group. -/
def NoOverlap (w : World ι Assignments (Call A V Q groupOf)) : Prop :=
  Exclusive groupOf w.shared.ids ∧
    ∀ i results, (w.task i).stage = .returned results → Exclusive groupOf (resultIds results)

/-- A batch is inserted only while no other experiment of its groups is assigned. -/
def FindsNoRival (w : World ι Assignments (Call A V Q groupOf)) :
    Event ι (Outside V Q groupOf) Empty → Prop
  | .act i e =>
    match (w.task i).stage with
    | .inserting ev => e.fault = false → NoRivals groupOf ev.newIds w.shared.ids
    | _ => True
  | .env d => d.elim

theorem findsNoRival_of_none {w : World ι Assignments (Call A V Q groupOf)}
    (h : w.shared.entries = [])
    (e : Event ι (Outside V Q groupOf) Empty) : FindsNoRival w e := by
  rcases e with ⟨i, e⟩ | d
  · rw [FindsNoRival]
    split
    · intro _ a _ b hb
      obtain ⟨variantId, hvariant⟩ := Option.isSome_iff_exists.1 hb
      have hmem := w.shared.mem_entries.2 hvariant
      simp [h] at hmem
    · trivial
  · exact d.elim

def ReadFrom (w : World ι Assignments (Call A V Q groupOf)) : Prop :=
  -- what a call has in hand is no worse than the assignments it read, and none of those has gone
  -- since
  ∀ i, ∃ read ⊆ w.shared.ids, Exclusive groupOf read → Exclusive groupOf (w.task i).stage.ids

section Run
variable [DecidableEq ι] {lib : Library A Q} {subscriberId : String}
  {w : World ι Assignments (Call A V Q groupOf)}
  {evs : List (Event ι (Outside V Q groupOf) Empty)}

theorem afterLoop_ids (ev : Evaluation V) :
    (afterLoop ev : Stage V Q groupOf).ids ⊆ resultIds ev.results ∪ ev.newIds := by
  rw [afterLoop]
  split_ifs
  · exact Set.subset_union_left
  · exact subset_rfl

theorem evaluateExperiments_cases (s : Assignments) (t : Call A V Q groupOf)
    (e : Outside V Q groupOf) :
    s.ids ⊆ (evaluateExperiments lib subscriberId s t e).1.ids ∧
      ((evaluateExperiments lib subscriberId s t e).2.stage.ids ⊆ t.stage.ids ∨
        (Exclusive groupOf s.ids →
          Exclusive groupOf (evaluateExperiments lib subscriberId s t e).2.stage.ids)) := by
  have hempty : Exclusive groupOf ∅ := fun a ha => ha.elim
  rcases hstage : t.stage with _ | bundle | ⟨_ | ⟨x, exposures⟩, ev⟩ | ev | results | _
  · simp only [evaluateExperiments, hstage]
    refine ⟨?_, .inr fun _ => ?_⟩
    · split_ifs <;> exact subset_rfl
    · split_ifs
      · exact hempty
      · refine hempty.mono ?_
        rintro id ⟨key, r, hr, -⟩
        simp at hr
      · exact hempty
  · simp only [evaluateExperiments, hstage]
    rcases heval : evaluate lib bundle subscriberId t.attributes s with _ | ev
    · refine ⟨?_, .inr fun _ => ?_⟩
      · split_ifs <;> exact subset_rfl
      · split_ifs <;> exact hempty
    · have hconsistent := consistent_of_evaluate heval
      refine ⟨?_, .inr fun hs => ?_⟩
      · split_ifs <;> exact subset_rfl
      · split_ifs
        · exact hempty
        · exact (hconsistent.exclusive hs).mono
            (Set.union_subset hconsistent.results Set.subset_union_right)
  · simp only [evaluateExperiments, hstage]
    exact ⟨subset_rfl, .inl (afterLoop_ids ev)⟩
  · simp only [evaluateExperiments, hstage]
    exact ⟨subset_rfl, .inl subset_rfl⟩
  · simp only [evaluateExperiments, hstage]
    refine ⟨?_, .inl Set.subset_union_left⟩
    split_ifs
    · exact subset_rfl
    · rw [ids_insertAssignments]
      exact Set.subset_union_left
  · simp only [evaluateExperiments, hstage]
    exact ⟨subset_rfl, .inl subset_rfl⟩
  · simp only [evaluateExperiments, hstage]
    exact ⟨subset_rfl, .inl subset_rfl⟩

theorem ReadFrom.next (h : ReadFrom w) (e : Event ι (Outside V Q groupOf) Empty) :
    ReadFrom ((experimentEngine lib subscriberId).next w e) := by
  rcases e with ⟨i, e⟩ | d
  · intro j
    obtain ⟨hgrow, hstage⟩ :
        w.shared.ids ⊆ (evaluateExperiments lib subscriberId w.shared (w.task i) e).1.ids ∧ _ :=
      evaluateExperiments_cases w.shared (w.task i) e
    obtain ⟨read, hread, hexclusive⟩ := h j
    by_cases hj : j = i
    · subst hj
      simp only [System.next, experimentEngine, Function.update_self]
      rcases hstage with hsub | hfresh
      · exact ⟨read, hread.trans hgrow, fun hr => (hexclusive hr).mono hsub⟩
      · exact ⟨w.shared.ids, hgrow, hfresh⟩
    · simp only [System.next, experimentEngine, Function.update_of_ne hj]
      exact ⟨read, hread.trans hgrow, hexclusive⟩
  · exact d.elim

theorem exclusive_next_iff (h : ReadFrom w) (hs : Exclusive groupOf w.shared.ids)
    (e : Event ι (Outside V Q groupOf) Empty) :
    Exclusive groupOf ((experimentEngine lib subscriberId).next w e).shared.ids ↔
      FindsNoRival w e := by
  rcases e with ⟨i, e⟩ | d
  · simp only [System.next, experimentEngine, FindsNoRival]
    rcases hstage : (w.task i).stage with _ | bundle | ⟨_ | ⟨x, exposures⟩, ev⟩ | ev | results | _
    · simp only [evaluateExperiments, hstage]
      split_ifs <;> exact iff_of_true hs trivial
    · simp only [evaluateExperiments, hstage]
      split_ifs
      · exact iff_of_true hs trivial
      · split <;> exact iff_of_true hs trivial
    · simp only [evaluateExperiments, hstage]
      exact iff_of_true hs trivial
    · simp only [evaluateExperiments, hstage]
      exact iff_of_true hs trivial
    · simp only [evaluateExperiments, hstage]
      rcases hfault : e.fault with _ | _
      · obtain ⟨read, hread, hexclusive⟩ := h i
        have hnew : Exclusive groupOf ev.newIds := by
          refine (hexclusive (hs.mono hread)).mono ?_
          rw [hstage]
          exact Set.subset_union_right
        simp only [Bool.false_eq_true, if_false, forall_const]
        rw [ids_insertAssignments]
        exact exclusive_union_iff hs hnew
      · simp only [if_true, reduceCtorEq, false_implies, iff_true]
        exact hs
    · simp only [evaluateExperiments, hstage]
      exact iff_of_true hs trivial
    · simp only [evaluateExperiments, hstage]
      exact iff_of_true hs trivial
  · exact d.elim

def Stage.unsaved : Stage V Q groupOf → Set String
  | .publishing _ ev | .inserting ev => ev.newIds
  | _ => ∅

theorem afterLoop_unsaved (ev : Evaluation V) :
    (afterLoop ev : Stage V Q groupOf).unsaved ⊆ ev.newIds := by
  rw [afterLoop]
  split_ifs
  · exact Set.empty_subset _
  · exact subset_rfl

theorem unsaved_step {s : Assignments} {t : Call A V Q groupOf} (e : Outside V Q groupOf)
    (h : Exclusive groupOf (s.ids ∪ t.stage.unsaved)) :
    Exclusive groupOf
      (s.ids ∪ (evaluateExperiments lib subscriberId s t e).2.stage.unsaved) := by
  have hread : Exclusive groupOf (s.ids ∪ ∅) := h.mono (Set.union_subset_union_right _
    (Set.empty_subset _))
  rcases hstage : t.stage with _ | bundle | ⟨_ | ⟨x, exposures⟩, ev⟩ | ev | results | _
  · simp only [evaluateExperiments, hstage]
    split_ifs <;> exact hread
  · simp only [evaluateExperiments, hstage]
    rcases heval : evaluate lib bundle subscriberId t.attributes s with _ | ev
    · split_ifs <;> exact hread
    · split_ifs
      · exact hread
      · exact (consistent_of_evaluate heval).exclusive (hread.mono Set.subset_union_left)
  · rw [hstage] at h
    simp only [evaluateExperiments, hstage]
    exact h.mono (Set.union_subset_union_right _ (afterLoop_unsaved ev))
  · rw [hstage] at h
    simp only [evaluateExperiments, hstage]
    exact h
  · simp only [evaluateExperiments, hstage]
    exact hread
  · simp only [evaluateExperiments, hstage]
    exact hread
  · simp only [evaluateExperiments, hstage]
    exact hread

/-- A call between whose read and whose insert nothing is inserted finds no rival. -/
theorem findsNoRival_of_undisturbed {i : ι} {e : Outside V Q groupOf}
    (hs : Exclusive groupOf w.shared.ids) (hstart : (w.task i).stage.unsaved = ∅)
    (hquiet : ∀ x ∈ (experimentEngine lib subscriberId).transitions w evs,
      ((experimentEngine lib subscriberId).next x.1 x.2).shared = x.1.shared) :
    FindsNoRival ((experimentEngine lib subscriberId).runAll w evs) (.act i e) := by
  let Inv (v : World ι Assignments (Call A V Q groupOf)) : Prop :=
    Exclusive groupOf (v.shared.ids ∪ (v.task i).stage.unsaved)
  have hstep : ∀ v (e' : Event ι (Outside V Q groupOf) Empty), Inv v →
      ((experimentEngine lib subscriberId).next v e').shared = v.shared →
      Inv ((experimentEngine lib subscriberId).next v e') := by
    rintro v (⟨j, e'⟩ | d) hv hsame
    · show Exclusive groupOf (_ ∪ _)
      rw [hsame]
      by_cases hj : i = j
      · subst hj
        simp only [System.next, Function.update_self]
        exact unsaved_step e' hv
      · simp only [System.next, Function.update_of_ne hj]
        exact hv
    · exact d.elim
  have hinit : Inv w := by
    show Exclusive groupOf (_ ∪ _)
    rw [hstart, Set.union_empty]
    exact hs
  have hkept := System.runAll_induct hstep hinit hquiet
  rw [FindsNoRival]
  split
  · rename_i ev hstage
    intro _ a ha b hb g hag hbg
    have hunsaved :
        a ∈ (((experimentEngine lib subscriberId).runAll w evs).task i).stage.unsaved := by
      rw [hstage]
      exact ha
    exact hkept a (.inr hunsaved) b (.inl hb) g hag hbg
  · trivial

/-- From a subscriber without assignments: groups never overlap in a run just when each batch
that is inserted finds no rival. -/
theorem noOverlap_iff_findsNoRival (hwaiting : ∀ i, (w.task i).stage = .waiting)
    (hnone : w.shared = .empty) :
    (∀ v ∈ (experimentEngine lib subscriberId).visited w evs, NoOverlap v) ↔
      ∀ x ∈ (experimentEngine lib subscriberId).transitions w evs, FindsNoRival x.1 x.2 := by
  have hread : ReadFrom w := by
    refine fun i => ⟨∅, Set.empty_subset _, fun _ a ha => ?_⟩
    rw [hwaiting] at ha
    exact ha.elim
  have hempty : Exclusive groupOf w.shared.ids := by
    rw [hnone]
    intro a ha
    simp [Assignments.ids] at ha
  have hnext : ∀ (v : World ι Assignments (Call A V Q groupOf)) e, ReadFrom v →
      ReadFrom ((experimentEngine lib subscriberId).next v e) :=
    fun v e hv => hv.next e
  rw [← System.visited_iff (P := fun v => Exclusive groupOf v.shared.ids) hnext
    (fun v e hv hs => exclusive_next_iff hv hs e) hread hempty]
  constructor
  · exact fun h v hv => (h v hv).1
  · intro h v hv
    refine ⟨h v hv, fun i results hresults => ?_⟩
    have hreadFrom := System.visited_invariant hnext hread v hv
    obtain ⟨read, hsub, hexclusive⟩ := hreadFrom i
    have hids := hexclusive ((h v hv).mono hsub)
    rwa [hresults] at hids

end Run

def byCountry : Library String String := ⟨fun rules country => rules.get? "country" = some country,
  fun _ => 0⟩

def inOneGroup : String → Option String := fun _ => some "prices"

def targeting (id : String) (audienceId : String) : CachedExperiment Unit where
  id := id
  key := id
  type := .flag
  audienceId := audienceId
  mutualExclusionGroup := some "prices"
  variants := [⟨"on", "On", (), 1⟩]

def usAndCa : ExperimentBundle Unit String inOneGroup where
  experiments := [targeting "A" "us", targeting "B" "ca"]
  audiences := (Table.empty.set "us" (Table.empty.set "country" "US")).set "ca"
    (Table.empty.set "country" "CA")
  holdoutPercentage := 0
  fixed := by
    intro exp hexp
    rcases List.mem_pair.1 hexp with rfl | rfl <;> rfl

def usThenCa : World Bool Assignments (Call String Unit String inOneGroup) where
  shared := .empty
  task
    | false => { attributes := "US" }
    | true => { attributes := "CA" }

def bothReadFirst : List (Event Bool (Outside Unit String inOneGroup) Empty) :=
  [.act false ⟨usAndCa, false⟩, .act false ⟨usAndCa, false⟩, .act true ⟨usAndCa, false⟩,
    .act true ⟨usAndCa, false⟩, .act false ⟨usAndCa, false⟩, .act true ⟨usAndCa, false⟩,
    .act false ⟨usAndCa, false⟩, .act true ⟨usAndCa, false⟩]

def oneCall : List (Event Bool (Outside Unit String inOneGroup) Empty) :=
  [.act false ⟨usAndCa, false⟩, .act false ⟨usAndCa, false⟩, .act false ⟨usAndCa, false⟩,
    .act false ⟨usAndCa, false⟩]

theorem both_experiments_assigned :
    ¬∀ v ∈ (experimentEngine byCountry "s").visited usThenCa bothReadFirst, NoOverlap v := by
  intro hall
  have hA : ((((experimentEngine byCountry "s").runAll usThenCa bothReadFirst).shared.get?
      "A").isSome) = true := by decide +kernel
  have hB : ((((experimentEngine byCountry "s").runAll usThenCa bothReadFirst).shared.get?
      "B").isSome) = true := by decide +kernel
  have hsame := (hall _ System.last_mem_visited).1 "A" hA "B" hB "prices" rfl rfl
  exact absurd hsame (by decide)

theorem noOverlap_iff_findsNoRival_oneCall :
    (∀ i, (usThenCa.task i).stage = .waiting) ∧
      ∀ v ∈ (experimentEngine byCountry "s").visited usThenCa oneCall, NoOverlap v := by
  have hwaiting : ∀ i, (usThenCa.task i).stage = .waiting := by
    intro i
    cases i <;> rfl
  have hnone : ∀ x ∈ (experimentEngine byCountry "s").transitions usThenCa oneCall,
      x.1.shared.entries = [] := by
    decide +kernel
  refine ⟨hwaiting, (noOverlap_iff_findsNoRival hwaiting rfl).2 fun x hx => ?_⟩
  exact findsNoRival_of_none (hnone x hx) x.2

end Rovenue.Experiments
