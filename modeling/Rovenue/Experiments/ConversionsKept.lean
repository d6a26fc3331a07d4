import Rovenue.Experiments.RecordEvent

/-! When no conversion is lost. Each assignment is a cell that calls read and overwrite; its events
count every write just when each write landed on what its call had read. -/

namespace Rovenue.Experiments
open Threads
open Txn (Table)
open Js (Json Value)

def AssignmentRow.reading (metrics : Value) (row : AssignmentRow) : AssignmentWithMetrics :=
  ⟨row.events, row.convertedAt, metrics⟩

def assignmentCell (metrics : Value) : Cell AssignmentWithMetrics AssignmentRow Recording where
  view := AssignmentRow.reading metrics
  write a r row := AssignmentDb.applyPatch (r.patch a) row

def eventCount (a : AssignmentWithMetrics) : ℕ := (Json.elements (some a.events)).length

variable {metrics : Value} {row : AssignmentRow}

theorem eventCount_write (a : AssignmentWithMetrics) (r : Recording) (row : AssignmentRow) :
    eventCount ((assignmentCell metrics).view ((assignmentCell metrics).write a r row)) =
      eventCount a + 1 := by
  show (Json.elements (some a.events) ++ [r.event]).length = _
  exact List.length_append

def conversionAfter (metrics : Value) (row : AssignmentRow) (rs : List Recording) : Conversion :=
  if row.convertedAt = none then
    match rs.find? fun r => r.call.isConversion metrics with
    | none => row.toConversion
    | some r =>
      { convertedAt := some r.now
        purchaseId := (r.call.conversion r.now).purchaseId.or row.purchaseId
        revenue := (r.call.conversion r.now).revenue.or row.revenue }
  else row.toConversion

theorem elements_foldl_apply (rs : List Recording) :
    Json.elements (some (rs.foldl (assignmentCell metrics).apply row).events) =
      Json.elements (some row.events) ++ rs.map Recording.event := by
  induction rs generalizing row with
  | nil => simp
  | cons r rs ih =>
    have hone : Json.elements (some ((assignmentCell metrics).apply row r).events) =
        Json.elements (some row.events) ++ [r.event] := rfl
    rw [List.foldl_cons, ih, hone, List.map_cons, List.append_assoc, List.singleton_append]

theorem toConversion_apply (r : Recording) :
    ((assignmentCell metrics).apply row r).toConversion = conversionAfter metrics row [r] := by
  have hread : (assignmentCell metrics).apply row r =
      AssignmentDb.applyPatch (r.patch (row.reading metrics)) row := rfl
  rw [hread]
  obtain ⟨⟨_ | at_, purchaseId, revenue⟩, experimentId, subscriberId, events⟩ := row
  · unfold conversionAfter AssignmentDb.applyPatch Recording.patch AssignmentRow.reading
    by_cases hconv : r.call.isConversion metrics = true
    · simp [hconv, RecordEventCall.conversion]
    · simp [hconv]
  · simp [conversionAfter, AssignmentDb.applyPatch, Recording.patch, AssignmentRow.reading]

theorem conversionAfter_cons (r : Recording) (rs : List Recording) :
    conversionAfter metrics ((assignmentCell metrics).apply row r) rs =
      conversionAfter metrics row (r :: rs) := by
  have hone : ((assignmentCell metrics).apply row r).toConversion = conversionAfter metrics row [r] :=
    toConversion_apply r
  generalize (assignmentCell metrics).apply row r = next at hone ⊢
  by_cases hrow : row.convertedAt = none
  · by_cases hconv : r.call.isConversion metrics = true
    · simp [conversionAfter, hrow, hconv, hone]
    · have hsame : next.toConversion = row.toConversion := by
        rw [hone]
        simp [conversionAfter, hrow, hconv]
      simp [conversionAfter, hrow, hconv, hsame]
  · have hsame : next.toConversion = row.toConversion := by
      rw [hone]
      simp [conversionAfter, hrow]
    simp [conversionAfter, hrow, hsame]

theorem toConversion_foldl_apply (rs : List Recording) :
    (rs.foldl (assignmentCell metrics).apply row).toConversion = conversionAfter metrics row rs := by
  induction rs generalizing row with
  | nil => simp [conversionAfter]
  | cons r rs ih => rw [List.foldl_cons, ih, conversionAfter_cons]

section Runs
variable {ι : Type} [DecidableEq ι] {id : String} {w : RecordingWorld ι}

def access (id : String) (x : RecordingWorld ι × RecordingEvent ι) :
    List (Cell.Access ι Recording) :=
  ((foundIn id x).toList.map fun y => .act y.1 none) ++
    (landedIn id x).toList.map fun y => .act y.1 (some y.2)

def Copies (id : String) (metrics : Value) (task : ι → RecordingTask)
    (copy : ι → AssignmentWithMetrics) : Prop :=
  ∀ i r assignments a, task i = .writing r assignments → assignments.get? id = some a →
    copy i = a ∧ a.metrics = metrics

omit [DecidableEq ι] in
theorem Copies.of_eq {task task' : ι → RecordingTask} {copy : ι → AssignmentWithMetrics}
    (h : Copies id metrics task copy)
    (htask : ∀ i r assignments, task' i = .writing r assignments → task i = .writing r assignments) :
    Copies id metrics task' copy :=
  fun i r assignments a hwriting ha => h i r assignments a (htask i r assignments hwriting) ha

theorem Copies.update {task : ι → RecordingTask} {copy : ι → AssignmentWithMetrics}
    (h : Copies id metrics task copy) {i : ι} {t : RecordingTask} {v : AssignmentWithMetrics}
    (hi : ∀ r assignments a, t = .writing r assignments → assignments.get? id = some a →
      v = a ∧ a.metrics = metrics) :
    Copies id metrics (Function.update task i t) (Function.update copy i v) := by
  intro j r assignments a hwriting ha
  by_cases hj : j = i
  · subst hj
    rw [Function.update_self] at hwriting ⊢
    exact hi r assignments a hwriting ha
  · rw [Function.update_of_ne hj] at hwriting ⊢
    exact h j r assignments a hwriting ha

structure Mirrors (id : String) (metrics : Value) (w : RecordingWorld ι)
    (c : World ι AssignmentRow AssignmentWithMetrics) : Prop where
  row : w.shared.experimentAssignments.get? id = some c.shared
  joined : (w.shared.experiments.get? c.shared.experimentId).bind RunningColumns.metrics = metrics
  copies : Copies id metrics w.task c.task

theorem step_cases (w : RecordingWorld ι) (i : ι) (input : RecordingInput) :
    (∃ call now, w.task i = .called call ∧ input = .read now) ∨
    (∃ r assignments id a, w.task i = .writing r assignments ∧ input = .update id ∧
      assignments.get? id = some a) ∨
    ((recordingSystem.next w (.act i input)).shared = w.shared ∧
      (∀ id, foundIn id (w, .act i input) = none ∧ landedIn id (w, .act i input) = none) ∧
      ∀ r assignments, (recordingSystem.next w (.act i input)).task i = .writing r assignments ↔
        w.task i = .writing r assignments) := by
  have hshared : (recordingSystem.next w (.act i input)).shared =
      (recordingStep w.shared (w.task i) input).1 := rfl
  have htask : (recordingSystem.next w (.act i input)).task i =
      (recordingStep w.shared (w.task i) input).2 := Function.update_self ..
  rw [hshared, htask]
  simp only [foundIn, landedIn]
  rcases hcall : w.task i with _ | call | ⟨r, assignments⟩
  case called =>
    cases input with
    | read now => exact Or.inl ⟨call, now, rfl, rfl⟩
    | _ => simp [recordingStep, hcall]
  case writing =>
    cases input with
    | update id =>
      cases ha : assignments.get? id with
      | some a => exact Or.inr (Or.inl ⟨r, assignments, id, a, rfl, rfl, ha⟩)
      | none =>
        refine Or.inr (Or.inr ⟨by simp [recordingStep, ha], fun id' => ⟨rfl, ?_⟩, ?_⟩)
        · by_cases hid : id = id'
          · subst hid
            simp [hcall, ha]
          · simp [hcall, hid]
        · simp [recordingStep, ha]
    | _ => simp [recordingStep, hcall]
  case idle => cases input <;> simp [recordingStep, hcall]

theorem get?_findAssignments {db : AssignmentDb} {subscriberId : String}
    {a : AssignmentWithMetrics} (hrow : db.experimentAssignments.get? id = some row)
    (hfound : (db.findAssignmentsWithMetrics subscriberId).get? id = some a) :
    a = row.reading ((db.experiments.get? row.experimentId).bind RunningColumns.metrics) := by
  unfold AssignmentDb.findAssignmentsWithMetrics at hfound
  rw [Table.get?_filterMap, hrow, Option.bind_some] at hfound
  obtain ⟨experiment, hexperiment, ha⟩ := Option.bind_eq_some_iff.mp hfound
  rw [hexperiment, Option.bind_some]
  split_ifs at ha
  exact (Option.some.inj ha).symm

theorem settle_eq_writing {r r' : Recording}
    {assignments assignments' : Table String AssignmentWithMetrics}
    (h : settle r assignments = .writing r' assignments') : r' = r ∧ assignments' = assignments := by
  unfold settle at h
  split_ifs at h
  cases h
  exact ⟨rfl, rfl⟩

theorem next_read {i : ι} {call : RecordEventCall} (now : Import.UtcDate)
    (hcall : w.task i = .called call) :
    recordingSystem.next w (.act i (.read now)) = ⟨w.shared, Function.update w.task i
      (settle ⟨call, now⟩ (w.shared.findAssignmentsWithMetrics call.subscriberId))⟩ := by
  show World.mk (recordingStep w.shared (w.task i) (.read now)).1
    (Function.update w.task i (recordingStep w.shared (w.task i) (.read now)).2) = _
  rw [hcall]
  rfl

theorem next_update {i : ι} {r : Recording} {assignments : Table String AssignmentWithMetrics}
    {id : String} {a : AssignmentWithMetrics} (hwriting : w.task i = .writing r assignments)
    (ha : assignments.get? id = some a) :
    recordingSystem.next w (.act i (.update id)) =
      ⟨w.shared.updateAssignmentEvents id (r.patch a),
        Function.update w.task i (settle r (assignments.erase id))⟩ := by
  show World.mk (recordingStep w.shared (w.task i) (.update id)).1
    (Function.update w.task i (recordingStep w.shared (w.task i) (.update id)).2) = _
  rw [hwriting]
  simp only [recordingStep, ha]

variable {c : World ι AssignmentRow AssignmentWithMetrics}

def Follows (id : String) (metrics : Value) (w : RecordingWorld ι) (e : RecordingEvent ι)
    (c : World ι AssignmentRow AssignmentWithMetrics) : Prop :=
  Mirrors id metrics (recordingSystem.next w e)
      ((assignmentCell metrics).system.runAll c (access id (w, e))) ∧
    (LandsAsRead id w e ↔
      ∀ x ∈ (assignmentCell metrics).system.transitions c (access id (w, e)),
        (assignmentCell metrics).Fresh x.1 x.2)

theorem Mirrors.read (h : Mirrors id metrics w c) {i : ι} {call : RecordEventCall}
    (now : Import.UtcDate) (hcall : w.task i = .called call) :
    Follows id metrics w (.act i (.read now)) c := by
  have hlands : LandsAsRead id w (.act i (.read now)) := fun j r as a row he => by cases he
  have haccess : access id (w, .act i (.read now)) =
      (((w.shared.findAssignmentsWithMetrics call.subscriberId).get? id).map
        fun _ => Event.act i none).toList := by
    simp only [access, foundIn, landedIn, hcall]
    cases (w.shared.findAssignmentsWithMetrics call.subscriberId).get? id <;> rfl
  have hcopy : ∀ a, (w.shared.findAssignmentsWithMetrics call.subscriberId).get? id = some a →
      a = c.shared.reading metrics := by
    intro a ha
    rw [get?_findAssignments h.row ha, h.joined]
  unfold Follows
  rw [next_read now hcall, haccess]
  cases hget : (w.shared.findAssignmentsWithMetrics call.subscriberId).get? id with
  | none =>
    refine ⟨⟨h.row, h.joined, ?_⟩, by simp [hlands, System.transitions]⟩
    have hsame := h.copies.update (i := i) (v := c.task i)
      (t := settle ⟨call, now⟩ (w.shared.findAssignmentsWithMetrics call.subscriberId))
      fun r assignments a hwriting ha => by
        obtain ⟨-, rfl⟩ := settle_eq_writing hwriting
        rw [hget] at ha
        cases ha
    rwa [Function.update_eq_self] at hsame
  | some found =>
    refine ⟨⟨h.row, h.joined, h.copies.update ?_⟩, ?_⟩
    · intro r assignments a hwriting ha
      obtain ⟨-, rfl⟩ := settle_eq_writing hwriting
      rw [hcopy a ha]
      exact ⟨rfl, rfl⟩
    · refine iff_of_true hlands fun x hx => ?_
      obtain rfl := List.mem_singleton.mp hx
      intro j r he
      cases he

theorem Mirrors.update (h : Mirrors id metrics w c) {i : ι} {r : Recording}
    {assignments : Table String AssignmentWithMetrics} {id' : String} {a : AssignmentWithMetrics}
    (hwriting : w.task i = .writing r assignments) (ha : assignments.get? id' = some a) :
    Follows id metrics w (.act i (.update id')) c := by
  have hcopies : Copies id metrics
      (Function.update w.task i (settle r (assignments.erase id'))) c.task := by
    have hsame := h.copies.update (i := i) (v := c.task i) (t := settle r (assignments.erase id'))
      fun r' assignments' a' hwriting' ha' => by
        obtain ⟨-, rfl⟩ := settle_eq_writing hwriting'
        rw [Table.get?_erase] at ha'
        split_ifs at ha'
        exact h.copies i r assignments a' hwriting ha'
    rwa [Function.update_eq_self] at hsame
  have hlanded : landedIn id (w, .act i (.update id')) = if id' = id then some (i, r) else none := by
    simp only [landedIn, hwriting]
    split_ifs with hid
    · rw [← hid, ha, Option.map_some]
    · rfl
  have hrow : (w.shared.updateAssignmentEvents id' (r.patch a)).experimentAssignments.get? id =
      some (if id = id' then AssignmentDb.applyPatch (r.patch a) c.shared else c.shared) := by
    show (w.shared.experimentAssignments.modify id' _).get? id = _
    rw [Table.get?_modify]
    split_ifs with hid
    · rw [h.row, Option.map_some]
    · exact h.row
  unfold Follows access
  rw [next_update hwriting ha, hlanded]
  by_cases hid : id' = id
  · subst hid
    obtain ⟨hcopy, hmetrics⟩ := h.copies i r assignments a hwriting ha
    have hwrite : (assignmentCell metrics).system.runAll c [.act i (some r)] =
        ⟨AssignmentDb.applyPatch (r.patch a) c.shared, c.task⟩ := by
      show World.mk (AssignmentDb.applyPatch (r.patch (c.task i)) c.shared)
        (Function.update c.task i (c.task i)) = _
      rw [Function.update_eq_self, hcopy]
    rw [if_pos rfl] at hrow ⊢
    refine ⟨?_, ?_⟩
    · show Mirrors id' metrics _ ((assignmentCell metrics).system.runAll c [.act i (some r)])
      rw [hwrite]
      exact ⟨hrow, h.joined, hcopies⟩
    · show _ ↔ ∀ x ∈ [(c, Event.act i (some r))], (assignmentCell metrics).Fresh x.1 x.2
      rw [List.forall_mem_singleton]
      constructor
      · intro hlands j r' he
        cases he
        obtain ⟨hevents, hat⟩ := hlands i r assignments a c.shared rfl hwriting ha h.row
        show c.task i = c.shared.reading metrics
        rw [hcopy, AssignmentRow.reading, hevents, hat, ← hmetrics]
      · intro hfresh j r' assignments' a' row he hwriting' ha' hrow'
        cases he
        have hread : c.task i = c.shared.reading metrics := hfresh i r rfl
        rw [h.row] at hrow'
        cases hrow'
        rw [← (h.copies i r' assignments' a' hwriting' ha').1, hread]
        exact ⟨rfl, rfl⟩
  · rw [if_neg hid]
    rw [if_neg fun hsame => hid hsame.symm] at hrow
    refine ⟨⟨hrow, h.joined, hcopies⟩, iff_of_true ?_ fun x hx => ?_⟩
    · intro j r' assignments' a' row he
      cases he
      exact absurd rfl hid
    · cases hx

theorem Mirrors.next (h : Mirrors id metrics w c) (e : RecordingEvent ι) :
    Follows id metrics w e c := by
  rcases e with ⟨i, input⟩ | d
  swap
  · exact d.elim
  rcases step_cases w i input with
    ⟨call, now, hcall, rfl⟩ | ⟨r, assignments, id', a, hwriting, rfl, ha⟩ | ⟨hshared, hnone, htask⟩
  · exact h.read now hcall
  · exact h.update hwriting ha
  · have haccess : access id (w, .act i input) = [] := by
      unfold access
      rw [(hnone id).1, (hnone id).2]
      rfl
    unfold Follows
    rw [haccess]
    refine ⟨⟨?_, ?_, ?_⟩, ?_⟩
    · rw [hshared]
      exact h.row
    · rw [hshared]
      exact h.joined
    · refine h.copies.of_eq fun j r assignments hwriting => ?_
      by_cases hj : j = i
      · subst hj
        exact (htask r assignments).mp hwriting
      · have hother : (recordingSystem.next w (.act i input)).task j = w.task j :=
          Function.update_of_ne hj _ _
        rw [← hother]
        exact hwriting
    · refine iff_of_true ?_ fun x hx => by cases hx
      intro j r assignments a row he hwriting ha
      cases he
      have hlanded := (hnone id).2
      simp only [landedIn, hwriting, ha, if_true, Option.map_some] at hlanded
      cases hlanded

def accesses (id : String) (w : RecordingWorld ι) (evs : List (RecordingEvent ι)) :
    List (Cell.Access ι Recording) :=
  (recordingSystem.transitions w evs).flatMap (access id)

theorem Mirrors.runAll (h : Mirrors id metrics w c) (evs : List (RecordingEvent ι)) :
    Mirrors id metrics (recordingSystem.runAll w evs)
        ((assignmentCell metrics).system.runAll c (accesses id w evs)) ∧
      ((∀ x ∈ recordingSystem.transitions w evs, LandsAsRead id x.1 x.2) ↔
        ∀ x ∈ (assignmentCell metrics).system.transitions c (accesses id w evs),
          (assignmentCell metrics).Fresh x.1 x.2) := by
  induction evs generalizing w c with
  | nil => exact ⟨h, by simp [accesses, System.transitions]⟩
  | cons e es ih =>
    obtain ⟨hnext, hlands⟩ := h.next e
    obtain ⟨hrun, hrest⟩ := ih hnext
    have hsplit : accesses id w (e :: es) =
        access id (w, e) ++ accesses id (recordingSystem.next w e) es := List.flatMap_cons
    rw [hsplit, System.runAll_append, System.transitions_append, System.runAll_cons,
      System.transitions, List.forall_mem_cons]
    refine ⟨hrun, ?_⟩
    rw [hlands, hrest]
    exact List.forall_mem_append.symm

def found (id : String) (w : RecordingWorld ι) (evs : List (RecordingEvent ι)) :
    List (ι × Recording) :=
  (recordingSystem.transitions w evs).filterMap (foundIn id)

def landed (id : String) (w : RecordingWorld ι) (evs : List (RecordingEvent ι)) :
    List (ι × Recording) :=
  (recordingSystem.transitions w evs).filterMap (landedIn id)

theorem written_accesses (evs : List (RecordingEvent ι)) :
    Cell.written (accesses id w evs) = (landed id w evs).map Prod.snd := by
  unfold accesses landed
  induction recordingSystem.transitions w evs with
  | nil => rfl
  | cons x xs ih =>
    have happend : ∀ es fs : List (Cell.Access ι Recording),
        Cell.written (es ++ fs) = Cell.written es ++ Cell.written fs :=
      fun es fs => List.filterMap_append
    have hone : Cell.written (access id x) = ((landedIn id x).map Prod.snd).toList := by
      unfold access
      rw [happend]
      cases foundIn id x <;> cases landedIn id x <;> rfl
    rw [List.flatMap_cons, happend, hone, ih, List.filterMap_cons]
    cases landedIn id x <;> rfl

def pendingFor (id : String) : RecordingTask → Option Recording
  | .writing r assignments => (assignments.get? id).map fun _ => r
  | _ => none

theorem pendingFor_called (call : RecordEventCall) : pendingFor id (.called call) = none := rfl

theorem pendingFor_writing (r : Recording) (assignments : Table String AssignmentWithMetrics) :
    pendingFor id (.writing r assignments) = (assignments.get? id).map fun _ => r := rfl

theorem pendingFor_settle (r : Recording) (assignments : Table String AssignmentWithMetrics) :
    pendingFor id (settle r assignments) = (assignments.get? id).map fun _ => r := by
  unfold settle
  split_ifs with hempty
  · have hnone : assignments.get? id = none := by
      rw [Table.get?_eq_none, hempty]
      exact List.not_mem_nil
    rw [hnone]
    rfl
  · rfl

theorem pendingFor_congr {t t' : RecordingTask}
    (h : ∀ r assignments, t' = .writing r assignments ↔ t = .writing r assignments) :
    pendingFor id t' = pendingFor id t := by
  cases t with
  | writing r assignments => rw [(h r assignments).mpr rfl]
  | idle =>
    cases t' with
    | writing r assignments => cases (h r assignments).mp rfl
    | _ => rfl
  | called call =>
    cases t' with
    | writing r assignments => cases (h r assignments).mp rfl
    | _ => rfl

omit [DecidableEq ι] in
theorem fst_of_foundIn {j : ι} {input : RecordingInput} {y : ι × Recording}
    (h : foundIn id (w, .act j input) = some y) : y.1 = j := by
  cases input with
  | read now =>
    simp only [foundIn] at h
    split at h
    · obtain ⟨a, -, rfl⟩ := Option.map_eq_some_iff.mp h
      rfl
    · cases h
  | _ => simp [foundIn] at h

omit [DecidableEq ι] in
theorem fst_of_landedIn {j : ι} {input : RecordingInput} {y : ι × Recording}
    (h : landedIn id (w, .act j input) = some y) : y.1 = j := by
  cases input with
  | update id' =>
    simp only [landedIn] at h
    split at h
    · split_ifs at h
      obtain ⟨a, -, rfl⟩ := Option.map_eq_some_iff.mp h
      rfl
    · cases h
  | _ => simp [landedIn] at h

def ofTask (i : ι) (o : Option (ι × Recording)) : List (ι × Recording) :=
  o.toList.filter (·.1 = i)

theorem ofTask_of_ne {i j : ι} {o : Option (ι × Recording)} (h : ∀ y, o = some y → y.1 = j)
    (hne : j ≠ i) : ofTask i o = [] := by
  cases o with
  | none => rfl
  | some y =>
    have hy : y.1 ≠ i := (h y rfl).trans_ne hne
    simp [ofTask, hy]

def pendingOf (id : String) (i : ι) (w : RecordingWorld ι) : List (ι × Recording) :=
  ((pendingFor id (w.task i)).map (i, ·)).toList

theorem found_landed_next (id : String) (i : ι) (w : RecordingWorld ι) (e : RecordingEvent ι) :
    (pendingOf id i w ++ ofTask i (foundIn id (w, e))).Perm
      (ofTask i (landedIn id (w, e)) ++ pendingOf id i (recordingSystem.next w e)) := by
  rcases e with ⟨j, input⟩ | d
  swap
  · exact d.elim
  by_cases hj : j = i
  swap
  · have hother : (recordingSystem.next w (.act j input)).task i = w.task i :=
      Function.update_of_ne (Ne.symm hj) _ _
    unfold pendingOf
    rw [hother, ofTask_of_ne (fun y => fst_of_foundIn) hj, ofTask_of_ne (fun y => fst_of_landedIn) hj]
    simp
  subst hj
  rcases step_cases w j input with
    ⟨call, now, hcall, rfl⟩ | ⟨r, assignments, id', a, hwriting, rfl, ha⟩ | ⟨-, hnone, htask⟩
  · have hlanded : landedIn id (w, .act j (.read now)) = none := rfl
    unfold pendingOf
    rw [hlanded, next_read now hcall, hcall]
    simp only [Function.update_self, pendingFor_settle, foundIn, hcall, pendingFor_called]
    cases (w.shared.findAssignmentsWithMetrics call.subscriberId).get? id <;> simp [ofTask]
  · have hfound : foundIn id (w, .act j (.update id')) = none := rfl
    unfold pendingOf
    rw [hfound, next_update hwriting ha, hwriting]
    simp only [Function.update_self, pendingFor_settle, landedIn, hwriting, pendingFor_writing,
      Table.get?_erase]
    by_cases hid : id' = id
    · subst hid
      simp [ha, ofTask]
    · have hid' : id ≠ id' := Ne.symm hid
      simp [hid, hid', ofTask]
  · unfold pendingOf
    rw [(hnone id).1, (hnone id).2, pendingFor_congr htask]
    simp [ofTask]

theorem found_landed_runAll (id : String) (i : ι) (w : RecordingWorld ι)
    (evs : List (RecordingEvent ι)) :
    (pendingOf id i w ++ (found id w evs).filter (·.1 = i)).Perm
      ((landed id w evs).filter (·.1 = i) ++ pendingOf id i (recordingSystem.runAll w evs)) := by
  induction evs generalizing w with
  | nil => simp [found, landed, System.transitions]
  | cons e es ih =>
    have hsplit : ∀ f : RecordingWorld ι × RecordingEvent ι → Option (ι × Recording),
        ((recordingSystem.transitions w (e :: es)).filterMap f).filter (·.1 = i) =
          ofTask i (f (w, e)) ++ ((recordingSystem.transitions (recordingSystem.next w e)
            es).filterMap f).filter (·.1 = i) := by
      intro f
      rw [System.transitions, List.filterMap_cons, ofTask]
      cases f (w, e) with
      | none => rfl
      | some y => exact List.filter_append [y] _
    have hhead := found_landed_next id i w e
    have hrest := ih (recordingSystem.next w e)
    unfold found landed at hrest ⊢
    rw [hsplit, hsplit, System.runAll_cons, ← List.append_assoc, List.append_assoc (ofTask i _)]
    refine (hhead.append_right _).trans ?_
    rw [List.append_assoc]
    exact hrest.append_left _

theorem found_perm_landed (id : String) (evs : List (RecordingEvent ι)) (hstart : ∀ i, w.task i = .idle)
    (hend : ∀ i, (recordingSystem.runAll w evs).task i = .idle) :
    (found id w evs).Perm (landed id w evs) := by
  classical
  have htask : ∀ i, ((found id w evs).filter (·.1 = i)).Perm ((landed id w evs).filter (·.1 = i)) := by
    intro i
    have hrun := found_landed_runAll id i w evs
    unfold pendingOf at hrun
    rw [hstart i, hend i] at hrun
    simpa [pendingFor] using hrun
  rw [List.perm_iff_count]
  intro y
  have hcount : ∀ l : List (ι × Recording), l.count y = (l.filter (·.1 = y.1)).count y :=
    fun l => (List.count_filter (by simp)).symm
  rw [hcount, hcount (landed id w evs)]
  exact (htask y.1).count_eq y

/-- What an assignment should hold after a run. -/
def KeptIn (id : String) (w : RecordingWorld ι) (evs : List (RecordingEvent ι)) : Prop :=
  ∀ row, w.shared.experimentAssignments.get? id = some row →
    ∃ row', (recordingSystem.runAll w evs).shared.experimentAssignments.get? id = some row' ∧
      (Json.elements (some row'.events)).Perm
        (Json.elements (some row.events) ++ (found id w evs).map fun x => x.2.event) ∧
      row'.toConversion = conversionAfter
        ((w.shared.experiments.get? row.experimentId).bind RunningColumns.metrics) row
        ((landed id w evs).map Prod.snd)

theorem absent_runAll (h : w.shared.experimentAssignments.get? id = none)
    (evs : List (RecordingEvent ι)) :
    ∀ v ∈ recordingSystem.visited w evs, v.shared.experimentAssignments.get? id = none := by
  refine System.visited_invariant (fun v e hv => ?_) h
  rcases e with ⟨i, input⟩ | d
  · rcases step_cases v i input with
      ⟨call, now, hcall, rfl⟩ | ⟨r, assignments, id', a, hwriting, rfl, ha⟩ | ⟨hshared, -, -⟩
    · rw [next_read now hcall]
      exact hv
    · rw [next_update hwriting ha]
      show (v.shared.experimentAssignments.modify id' _).get? id = none
      rw [Table.get?_modify, ite_eq_right_iff.mpr]
      · exact hv
      · rintro rfl
        rw [hv]
        rfl
    · rw [hshared]
      exact hv
  · exact d.elim

theorem keptIn_iff (id : String) (w : RecordingWorld ι) (evs : List (RecordingEvent ι))
    (hstart : ∀ i, w.task i = .idle) (hend : ∀ i, (recordingSystem.runAll w evs).task i = .idle) :
    KeptIn id w evs ↔ ∀ x ∈ recordingSystem.transitions w evs, LandsAsRead id x.1 x.2 := by
  cases hrow : w.shared.experimentAssignments.get? id with
  | none =>
    refine iff_of_true (fun row hrow' => by rw [hrow] at hrow'; cases hrow') ?_
    intro x hx i r assignments a row he hwriting ha hrow'
    rw [absent_runAll hrow evs x.1 (System.fst_mem_visited hx)] at hrow'
    cases hrow'
  | some row =>
    set metrics := (w.shared.experiments.get? row.experimentId).bind RunningColumns.metrics with hm
    let c : World ι AssignmentRow AssignmentWithMetrics := ⟨row, fun _ => row.reading metrics⟩
    have hmirrors : Mirrors id metrics w c := by
      refine ⟨hrow, rfl, fun i r assignments a hwriting => ?_⟩
      rw [hstart i] at hwriting
      cases hwriting
    obtain ⟨hrun, hlands⟩ := hmirrors.runAll evs
    have htight : Cell.Tight eventCount (assignmentCell metrics)
        (Json.elements (some row.events)).length c := ⟨rfl, fun i => Or.inl rfl⟩
    have hexact := htight.runAll_iff eventCount_write (accesses id w evs)
    have hperm := found_perm_landed id evs hstart hend
    rw [hlands, ← hexact, written_accesses, List.length_map]
    constructor
    · intro hkept
      obtain ⟨row', hrow', hevents, -⟩ := hkept row hrow
      rw [hrun.row] at hrow'
      cases hrow'
      have hlength := hevents.length_eq
      rw [List.length_append, List.length_map, hperm.length_eq] at hlength
      exact hlength
    · intro hcount row₀ hrow₀
      rw [hrow] at hrow₀
      cases hrow₀
      rw [← List.length_map (f := Prod.snd), ← written_accesses] at hcount
      have hfinal := Cell.shared_runAll_of_fresh (hexact.mp hcount)
      rw [written_accesses] at hfinal
      refine ⟨_, hrun.row, ?_, ?_⟩
      · rw [hfinal, elements_foldl_apply, List.map_map]
        exact (hperm.symm.map _).append_left _
      · rw [hfinal, toConversion_foldl_apply]

/-- Every assignment keeps every event and its first conversion exactly when no update meets an
assignment that another call has updated since its own read it. -/
theorem conversionsKept_iff (w : RecordingWorld ι) (evs : List (RecordingEvent ι))
    (hstart : ∀ i, w.task i = .idle) (hend : ∀ i, (recordingSystem.runAll w evs).task i = .idle) :
    (∀ id, KeptIn id w evs) ↔
      ∀ x ∈ recordingSystem.transitions w evs, ∀ id, LandsAsRead id x.1 x.2 := by
  constructor
  · intro hkept x hx id
    exact (keptIn_iff id w evs hstart hend).mp (hkept id) x hx
  · intro hlands id
    exact (keptIn_iff id w evs hstart hend).mpr fun x hx => hlands x hx id

end Runs

def oneAssignment : RecordingWorld Bool where
  shared :=
    { experiments := Table.empty.insert "exp_1" ⟨.running, some (.arr [.str "purchase"])⟩
      experimentAssignments :=
        Table.empty.insert "asg_1" { experimentId := "exp_1", subscriberId := "sub_1" } }
  task _ := .idle

def purchaseEvent (purchaseId : String) : RecordEventCall :=
  ⟨"sub_1", "purchase", some [("purchaseId", some (.str purchaseId))]⟩

def newYear (second : ℕ) : Import.UtcDate := ⟨2026, 1, 1, 0, 0, second, 0⟩

def overlappingCalls : List (RecordingEvent Bool) :=
  [.act true (.recordEvent (purchaseEvent "pur_1")), .act false (.recordEvent (purchaseEvent "pur_2")),
    .act true (.read (newYear 1)), .act false (.read (newYear 2)), .act true (.update "asg_1"),
    .act false (.update "asg_1")]

theorem oneAssignment_idle (i : Bool) : oneAssignment.task i = .idle := rfl

theorem overlappingCalls_return (i : Bool) :
    (recordingSystem.runAll oneAssignment overlappingCalls).task i = .idle := by
  cases i <;> rfl

theorem conversionsKept_iff_overlapping :
    (∀ id, KeptIn id oneAssignment overlappingCalls) ↔
      ∀ x ∈ recordingSystem.transitions oneAssignment overlappingCalls, ∀ id,
        LandsAsRead id x.1 x.2 :=
  conversionsKept_iff oneAssignment overlappingCalls oneAssignment_idle overlappingCalls_return

/-- The second write takes the first event out of the list. -/
theorem overlapping_call_loses_event :
    ¬∀ (w : RecordingWorld Bool) (evs : List (RecordingEvent Bool)), (∀ i, w.task i = .idle) →
      (∀ i, (recordingSystem.runAll w evs).task i = .idle) → ∀ id, KeptIn id w evs := by
  intro h
  have hkept := h oneAssignment overlappingCalls oneAssignment_idle overlappingCalls_return "asg_1"
  obtain ⟨row', hrow', hevents, -⟩ := hkept _ rfl
  have hone : (recordingSystem.runAll oneAssignment
      overlappingCalls).shared.experimentAssignments.get? "asg_1" = some
        { experimentId := "exp_1"
          subscriberId := "sub_1"
          events := .arr [(purchaseEvent "pur_2").event (newYear 2)]
          convertedAt := some (newYear 2)
          purchaseId := some (.str "pur_2") } := rfl
  rw [hone] at hrow'
  cases hrow'
  exact absurd hevents.length_eq (by decide)

end Rovenue.Experiments
