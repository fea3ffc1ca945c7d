import Agora.EventBus.Bus

namespace Agora.EventBus

/-!
# Delivery

A call of `publish` is to reach one member of every group that matches, and one of `subscribe` from the
start every event that its pattern matches.  Both reach all that they have selected unless a handler raises
before the end, and `subscribe` selects too little when its pattern matches other subjects.
-/

variable {B H : Type}

/-! ### Tasks -/

namespace BusTask

variable (task : BusTask B H)

/-- All that the call has selected. -/
def plan : List (Delivery B H) := task.delivered ++ task.waiting

/-- What the call delivers when nothing raises from now on. -/
def total : List (Delivery B H) := if task.raised then task.delivered else task.plan

/-- What is not delivered any more. -/
def missing : List (Delivery B H) := if task.raised then task.waiting else []

/-- Nothing is missing that its subscription matches. -/
def Complete : Prop := ∀ d ∈ task.missing, ¬ isMatch d.subject d.target.pattern = true

theorem total_append_missing : task.total ++ task.missing = task.plan := by
  unfold total missing plan
  split_ifs
  · rfl
  · exact List.append_nil _

theorem plan_invoke (raises : Bool) : (task.invoke raises).plan = task.plan := by
  unfold invoke plan
  split_ifs
  · rfl
  · cases h : task.waiting with
    | nil => simp [h]
    | cons d rest => simp

/-- What is delivered stays delivered, and nothing is once a handler has raised. -/
theorem invoke_of_raised (raises : Bool) (h : task.raised = true) : task.invoke raises = task := by
  unfold invoke
  rw [if_pos h]

/-- A handler that raises leaves what comes after it undelivered. -/
theorem complete_invoke (raises : Bool) : (task.invoke raises).Complete
    ↔ task.Complete ∧ (raises = true → task.raised = false →
      ∀ d ∈ task.waiting.tail, ¬ isMatch d.subject d.target.pattern = true) := by
  by_cases hraised : task.raised = true
  · rw [invoke_of_raised task raises hraised]
    simp [hraised]
  · rw [Bool.not_eq_true] at hraised
    have hcomplete : task.Complete := by simp [Complete, missing, hraised]
    rw [and_iff_right hcomplete]
    unfold Complete missing invoke
    cases hwaiting : task.waiting with
    | nil => simp [hraised]
    | cons d rest => cases raises <;> simp [hraised]

end BusTask

/-- What a step selects, if it is a call that delivers. -/
def plan (s : BusState B H) : BusStep B H → Option (List (Delivery B H))
  | .publish subject event => some (s.publishPlan subject event)
  | .subscribe subscriptionId subject group handler fromStart =>
    some (s.backlog subscriptionId subject group handler fromStart)
  | .unsubscribe _ | .invoke .. => none

/-! ### What is required -/

/-- One member of every group that has a matching subscription. -/
structure OncePerGroup (handlers : List (HandlerEntry H)) (subject : String)
    (targets : List (Target H)) : Prop where
  once : (targets.map (·.group)).Nodup
  groups : ∀ group, group ∈ targets.map (·.group)
    ↔ ∃ entry ∈ matching handlers subject, entry.group = group ∧ entry.members ≠ []
  members : ∀ t ∈ targets, t ∈ membersOf handlers subject t.group

/-- What a call has to deliver that is made in this state. -/
def Fulfilled (s : BusState B H) : BusStep B H → List (Delivery B H) → Prop
  | .publish subject event, ds => OncePerGroup s.handlers subject (ds.map (·.target))
    ∧ ∀ d ∈ ds, d.subject = subject ∧ d.event = s.stored subject event
  | .subscribe subscriptionId pattern _ _ true, ds =>
    (∀ subject, isMatch subject pattern = true →
        (ds.filter (·.subject = subject)).map (·.event) = s.subjects subject)
      ∧ ∀ d ∈ ds, d.target.subscriptionId = subscriptionId
  | .subscribe _ _ _ _ false, _ | .unsubscribe _, _ | .invoke .., _ => True

/-- Every call of the run delivers what it has to. -/
def Delivers (steps : List (BusStep B H)) : Prop :=
  ∀ earlier step later, steps = earlier ++ step :: later →
    ∀ ds, plan (after perform .empty earlier) step = some ds →
      ∃ task, (after perform .empty steps).tasks[(after perform .empty earlier).tasks.length]? = some task
        ∧ Fulfilled (after perform .empty earlier) step task.total

/-- Every subject has its events in order, and a new one gets the next number. -/
structure Numbered (s : BusState B H) : Prop where
  numbers : ∀ subject, (s.subjects subject).map (·.ledgerSeq) = List.range' 1 (s.subjects subject).length
  next : ∀ subject event, (s.publish subject event).subjects subject
    = s.subjects subject ++ [{ event with ledgerSeq := (s.subjects subject).length + 1 }]

/-- The condition: a subscription from the start is for a subject, or for a pattern without events under
    other subjects, and no handler raises while others that match are waiting. -/
def Heard (s : BusState B H) : BusStep B H → Prop
  | .subscribe _ pattern _ _ true => ∀ subject, isMatch subject pattern = true → subject ≠ pattern →
    s.subjects subject = []
  | .invoke i true => ∀ task, s.tasks[i]? = some task → task.raised = false →
    ∀ d ∈ task.waiting.tail, ¬ isMatch d.subject d.target.pattern = true
  | .publish .. | .subscribe _ _ _ _ false | .unsubscribe _ | .invoke _ false => True

/-! ### Selection -/

theorem map_filterMap_of_inv {α κ : Type} {f : κ → Option α} {key : α → κ}
    (hf : ∀ k a, f k = some a → key a = k) (l : List κ) :
    (l.filterMap f).map key = l.filter fun k => (f k).isSome := by
  induction l with
  | nil => rfl
  | cons k l ih =>
    cases hk : f k with
    | none => simp [hk, ih]
    | some a => simp [hk, ih, hf k a hk]

section Selection

variable {s : BusState B H} {subject group : String} {t : Target H}

theorem mem_membersOf : t ∈ membersOf s.handlers subject group
    ↔ ∃ entry ∈ matching s.handlers subject, entry.group = group ∧ t ∈ entry.targets := by
  simp [membersOf, and_assoc]

theorem group_of_mem_targets {entry : HandlerEntry H} (h : t ∈ entry.targets) :
    t.group = entry.group ∧ t.pattern = entry.pattern := by
  obtain ⟨member, -, rfl⟩ := List.mem_map.mp h
  exact ⟨rfl, rfl⟩

/-- A member of a group that matches, with the group and the pattern it is in. -/
theorem of_mem_membersOf (h : t ∈ membersOf s.handlers subject group) :
    t.group = group ∧ isMatch subject t.pattern = true := by
  obtain ⟨entry, hentry, hgroup, ht⟩ := mem_membersOf.mp h
  obtain ⟨htgroup, htpattern⟩ := group_of_mem_targets ht
  refine ⟨htgroup.trans hgroup, ?_⟩
  rw [htpattern]
  exact (List.mem_filter.mp hentry).2

theorem turn_eq_some (h : s.turn subject group = some t) : t ∈ membersOf s.handlers subject group :=
  List.mem_of_getElem? h

theorem turn_isSome : (s.turn subject group).isSome ↔ membersOf s.handlers subject group ≠ [] := by
  simp only [BusState.turn, isSome_getElem?]
  constructor
  · intro h hnil
    rw [hnil] at h
    exact absurd h (Nat.not_lt_zero _)
  · intro h
    exact Nat.mod_lt _ (List.length_pos_of_ne_nil h)

theorem mem_groupsOf : group ∈ groupsOf s.handlers subject
    ↔ ∃ entry ∈ matching s.handlers subject, entry.group = group := by
  simp [groupsOf]

theorem nodup_groupsOf : (groupsOf s.handlers subject).Nodup :=
  (List.perm_insertionSort _ _).nodup_iff.mpr (List.nodup_dedup _)

/-- **Selection.**  One member of every group. -/
theorem oncePerGroup_selectDeliveries :
    OncePerGroup s.handlers subject (s.selectDeliveries subject) := by
  have hgroups : (s.selectDeliveries subject).map (·.group)
      = (groupsOf s.handlers subject).filter fun group => (s.turn subject group).isSome :=
    map_filterMap_of_inv (fun group t h => (of_mem_membersOf (turn_eq_some h)).1) _
  refine ⟨?_, fun group => ?_, fun t ht => ?_⟩
  · rw [hgroups]
    exact nodup_groupsOf.filter _
  · rw [hgroups, List.mem_filter, mem_groupsOf, turn_isSome]
    constructor
    · rintro ⟨-, hne⟩
      obtain ⟨t, ht⟩ := List.exists_mem_of_ne_nil _ hne
      obtain ⟨entry, hentry, hgroup, hmem⟩ := mem_membersOf.mp ht
      refine ⟨entry, hentry, hgroup, fun hnil => ?_⟩
      rw [HandlerEntry.targets, hnil] at hmem
      exact absurd hmem List.not_mem_nil
    · rintro ⟨entry, hentry, hgroup, hne⟩
      refine ⟨⟨entry, hentry, hgroup⟩, ?_⟩
      obtain ⟨member, hmember⟩ := List.exists_mem_of_ne_nil _ hne
      exact List.ne_nil_of_mem (mem_membersOf.mpr
        ⟨entry, hentry, hgroup, List.mem_map_of_mem hmember⟩)
  · obtain ⟨group, -, hturn⟩ := List.mem_filterMap.mp ht
    have hmem := turn_eq_some hturn
    rwa [(of_mem_membersOf hmem).1]

theorem map_target_publishPlan (event : EventEnvelope B) :
    (s.publishPlan subject event).map (·.target) = s.selectDeliveries subject := by
  unfold BusState.publishPlan
  rw [List.map_map]
  exact List.map_id _

theorem isMatch_of_mem_publishPlan {event : EventEnvelope B} {d : Delivery B H}
    (h : d ∈ s.publishPlan subject event) : isMatch d.subject d.target.pattern = true := by
  obtain ⟨t, ht, rfl⟩ := List.mem_map.mp h
  exact (of_mem_membersOf (oncePerGroup_selectDeliveries.members t ht)).2

end Selection

/-! ### Calls -/

section Calls

variable {s : BusState B H} {step : BusStep B H} {ds total missing : List (Delivery B H)}

theorem of_mem_backlog {subscriptionId subject group : String} {handler : H} {fromStart : Bool}
    {d : Delivery B H} (h : d ∈ s.backlog subscriptionId subject group handler fromStart) :
    d.subject = subject ∧ d.target.pattern = subject ∧ d.target.subscriptionId = subscriptionId := by
  unfold BusState.backlog at h
  split_ifs at h
  · obtain ⟨event, -, rfl⟩ := List.mem_map.mp h
    exact ⟨rfl, rfl, rfl⟩
  · exact absurd h List.not_mem_nil

/-- A publication is fulfilled exactly when nothing of its selection is missing. -/
theorem fulfilled_publish {subject : String} {event : EventEnvelope B}
    (htotal : total ++ missing = s.publishPlan subject event) :
    Fulfilled s (.publish subject event) total
      ↔ ∀ d ∈ missing, ¬ isMatch d.subject d.target.pattern = true := by
  have hplan := @oncePerGroup_selectDeliveries B H s subject
  rw [← map_target_publishPlan event, ← htotal, List.map_append] at hplan
  constructor
  · rintro ⟨htargets, -⟩ d hd
    -- The group of a missing member would have another one.
    exfalso
    have hgroup : d.target.group ∈ (total.map (·.target)).map (·.group) := by
      rw [htargets.groups, ← hplan.groups, List.map_append]
      exact List.mem_append_right _ (List.mem_map_of_mem (List.mem_map_of_mem hd))
    have honce := hplan.once
    rw [List.map_append] at honce
    exact (List.nodup_append.mp honce).2.2 _ hgroup _
      (List.mem_map_of_mem (List.mem_map_of_mem hd)) rfl
  · intro hmissing
    have hnil : missing = [] := by
      refine List.eq_nil_iff_forall_not_mem.mpr fun d hd => hmissing d hd ?_
      exact isMatch_of_mem_publishPlan (htotal ▸ List.mem_append_right total hd)
    rw [hnil, List.append_nil] at htotal
    rw [hnil, List.map_nil, List.append_nil] at hplan
    refine ⟨hplan, fun d hd => ?_⟩
    rw [htotal] at hd
    obtain ⟨t, -, rfl⟩ := List.mem_map.mp hd
    exact ⟨rfl, rfl⟩

/-- A subscription from the start is fulfilled exactly when no other subject has events for it, and nothing
    is missing that it matches. -/
theorem fulfilled_subscribe {subscriptionId pattern group : String} {handler : H}
    (htotal : total ++ missing = s.backlog subscriptionId pattern group handler true) :
    Fulfilled s (.subscribe subscriptionId pattern group handler true) total
      ↔ (∀ subject, isMatch subject pattern = true → subject ≠ pattern → s.subjects subject = [])
        ∧ ∀ d ∈ missing, ¬ isMatch d.subject d.target.pattern = true := by
  have hof {d : Delivery B H} (hd : d ∈ total ++ missing) :
      d.subject = pattern ∧ d.target.pattern = pattern ∧ d.target.subscriptionId = subscriptionId :=
    of_mem_backlog (htotal ▸ hd)
  have hother {subject : String} (hne : subject ≠ pattern) :
      total.filter (·.subject = subject) = [] := by
    refine List.filter_eq_nil_iff.mpr fun d hd h => hne ?_
    rw [← of_decide_eq_true h, (hof (List.mem_append_left _ hd)).1]
  have hsame : total.filter (·.subject = pattern) = total :=
    List.filter_eq_self.mpr fun d hd => decide_eq_true (hof (List.mem_append_left _ hd)).1
  have hevents : (total ++ missing).map (·.event) = s.subjects pattern := by
    rw [htotal, BusState.backlog, if_pos rfl, List.map_map]
    exact List.map_id _
  constructor
  · rintro ⟨hall, -⟩
    refine ⟨fun subject hmatch hne => ?_, fun d hd hmatch => ?_⟩
    · rw [← hall subject hmatch, hother hne]
      rfl
    · obtain ⟨hsubject, hpattern, -⟩ := hof (List.mem_append_right _ hd)
      rw [hsubject, hpattern] at hmatch
      have hlength := congrArg List.length ((hall pattern hmatch).trans hevents.symm)
      rw [hsame, List.length_map, List.length_map, List.length_append] at hlength
      have hpositive := List.length_pos_of_mem hd
      omega
  · rintro ⟨hnone, hmissing⟩
    refine ⟨fun subject hmatch => ?_, fun d hd => (hof (List.mem_append_left _ hd)).2.2⟩
    by_cases hne : subject = pattern
    · rw [hne] at hmatch ⊢
      have hnil : missing = [] := by
        refine List.eq_nil_iff_forall_not_mem.mpr fun d hd => hmissing d hd ?_
        obtain ⟨hsubject, hpattern, -⟩ := hof (List.mem_append_right total hd)
        rw [hsubject, hpattern]
        exact hmatch
      rw [hsame, ← hevents, hnil, List.append_nil]
    · rw [hother hne, hnone subject hmatch hne]
      rfl

/-- **Calls.**  What a call delivers is what it has to deliver exactly when it was heard, and nothing is
    missing that matches. -/
theorem fulfilled_iff (hplan : plan s step = some ds) (htotal : total ++ missing = ds) :
    Fulfilled s step total
      ↔ Heard s step ∧ ∀ d ∈ missing, ¬ isMatch d.subject d.target.pattern = true := by
  cases step with
  | publish subject event =>
    obtain rfl := Option.some.inj hplan
    rw [fulfilled_publish htotal]
    exact (and_iff_right trivial).symm
  | subscribe subscriptionId pattern group handler fromStart =>
    obtain rfl := Option.some.inj hplan
    cases fromStart with
    | true => exact fulfilled_subscribe htotal
    | false =>
      obtain ⟨-, hnil⟩ := List.append_eq_nil_iff.mp htotal
      rw [hnil]
      exact iff_of_true trivial ⟨trivial, List.forall_mem_nil _⟩
  | unsubscribe subscriptionId => cases hplan
  | invoke i raises => cases hplan

end Calls

/-! ### Steps -/

section Steps

variable {s : BusState B H} {step : BusStep B H} {ds : List (Delivery B H)} {task : BusTask B H} {i : ℕ}

theorem tasks_of_plan (h : plan s step = some ds) :
    (perform step s).2.tasks = s.tasks ++ [⟨[], ds, false⟩] := by
  cases step with
  | publish subject event =>
    obtain rfl := Option.some.inj h
    rfl
  | subscribe subscriptionId subject group handler fromStart =>
    obtain rfl := Option.some.inj h
    rfl
  | unsubscribe subscriptionId => cases h
  | invoke i raises => cases h

theorem tasks_unsubscribe (subscriptionId : String) : (s.unsubscribe subscriptionId).tasks = s.tasks := by
  unfold BusState.unsubscribe
  cases s.subscriptions.find? (·.subscriptionId = subscriptionId) with
  | none => rfl
  | some subscription => rfl

theorem tasks_invoke (i : ℕ) (raises : Bool) : (perform (.invoke i raises) s).2.tasks
    = s.tasks.modify i (·.invoke raises) := rfl

theorem length_tasks_of_none (h : plan s step = none) :
    (perform step s).2.tasks.length = s.tasks.length := by
  cases step with
  | publish subject event => cases h
  | subscribe subscriptionId subject group handler fromStart => cases h
  | unsubscribe subscriptionId => exact congrArg List.length (tasks_unsubscribe subscriptionId)
  | invoke i raises => rw [tasks_invoke, List.length_modify]

/-- A task keeps its number and its selection. -/
theorem exists_task_perform (step : BusStep B H) (h : s.tasks[i]? = some task) :
    ∃ task', (perform step s).2.tasks[i]? = some task' ∧ task'.plan = task.plan := by
  cases hplan : plan s step with
  | some ds =>
    refine ⟨task, ?_, rfl⟩
    rw [tasks_of_plan hplan, List.getElem?_append_left (List.getElem?_eq_some_iff.mp h).1]
    exact h
  | none =>
    cases step with
    | publish subject event => cases hplan
    | subscribe subscriptionId subject group handler fromStart => cases hplan
    | unsubscribe subscriptionId =>
      refine ⟨task, ?_, rfl⟩
      show (s.unsubscribe subscriptionId).tasks[i]? = some task
      rw [tasks_unsubscribe]
      exact h
    | invoke j raises =>
      rw [tasks_invoke, List.getElem?_modify, h]
      by_cases hij : j = i
      · exact ⟨task.invoke raises, by simp [hij], task.plan_invoke raises⟩
      · exact ⟨task, by simp [hij], rfl⟩

/-- Nothing is missing that matches. -/
def AllComplete (s : BusState B H) : Prop :=
  ∀ (i : ℕ) (task : BusTask B H), s.tasks[i]? = some task → task.Complete

theorem allComplete_of_plan (h : plan s step = some ds) : AllComplete (perform step s).2
    ↔ AllComplete s ∧ (plan s step = none → Heard s step) := by
  have hnone : plan s step = none → Heard s step := by
    intro hn
    rw [hn] at h
    cases h
  rw [and_iff_left hnone]
  unfold AllComplete
  rw [tasks_of_plan h]
  constructor
  · intro hall i task htask
    refine hall i task ?_
    rw [List.getElem?_append_left (List.getElem?_eq_some_iff.mp htask).1]
    exact htask
  · intro hall i task htask
    rcases List.mem_append.mp (List.mem_of_getElem? htask) with hold | hnew
    · obtain ⟨j, hj⟩ := List.mem_iff_getElem?.mp hold
      exact hall j task hj
    · obtain rfl := List.mem_singleton.mp hnew
      exact List.forall_mem_nil _

/-- A step leaves something missing exactly when a handler raises that is not the last one. -/
theorem allComplete_perform : AllComplete (perform step s).2
    ↔ AllComplete s ∧ (plan s step = none → Heard s step) := by
  cases step with
  | unsubscribe subscriptionId =>
    unfold AllComplete perform
    rw [tasks_unsubscribe]
    exact (and_iff_left fun _ => trivial).symm
  | invoke i raises =>
    have htask (j : ℕ) (task : BusTask B H) (h : s.tasks[j]? = some task) :
        (perform (.invoke i raises) s).2.tasks[j]?
          = some (if i = j then task.invoke raises else task) := by
      rw [tasks_invoke, List.getElem?_modify, h]
      rfl
    constructor
    · intro hall
      have hstep (task : BusTask B H) (h : s.tasks[i]? = some task) : (task.invoke raises).Complete := by
        have hcomplete := hall i _ (htask i task h)
        rwa [if_pos rfl] at hcomplete
      refine ⟨fun j task h => ?_, fun _ => ?_⟩
      · have hcomplete := hall j _ (htask j task h)
        by_cases hij : i = j
        · exact ((task.complete_invoke raises).mp (hstep task (hij ▸ h))).1
        · rwa [if_neg hij] at hcomplete
      · cases raises with
        | false => trivial
        | true => exact fun task h => ((task.complete_invoke true).mp (hstep task h)).2 rfl
    · rintro ⟨hall, hheard⟩ j task' h
      obtain ⟨task, htask', rfl⟩ : ∃ task, s.tasks[j]? = some task
          ∧ (if i = j then task.invoke raises else task) = task' := by
        rw [tasks_invoke, List.getElem?_modify] at h
        obtain ⟨task, htask', heq⟩ := Option.map_eq_some_iff.mp h
        exact ⟨task, htask', heq⟩
      by_cases hij : i = j
      · subst hij
        rw [if_pos rfl]
        refine (task.complete_invoke raises).mpr ⟨hall i task htask', fun hraises => ?_⟩
        subst hraises
        exact hheard rfl task htask'
      · rw [if_neg hij]
        exact hall j task htask'
  | publish subject event => exact allComplete_of_plan rfl
  | subscribe subscriptionId subject group handler fromStart => exact allComplete_of_plan rfl

/-- The number of the next event is one more than the number of events. -/
def Counted (s : BusState B H) : Prop := ∀ subject, s.sequences subject = (s.subjects subject).length
  ∧ (s.subjects subject).map (·.ledgerSeq) = List.range' 1 (s.subjects subject).length

theorem counted_perform (step : BusStep B H) (h : Counted s) : Counted (perform step s).2 := by
  cases step with
  | publish subject event =>
    intro k
    obtain ⟨hnext, hnumbers⟩ := h k
    by_cases hk : k = subject
    · subst hk
      refine ⟨by simp [perform, BusState.publish, hnext], ?_⟩
      simp [perform, BusState.publish, BusState.stored, hnumbers, hnext]
      rw [List.range'_1_concat, Nat.add_comm]
    · refine ⟨by simpa [perform, BusState.publish, hk] using hnext, ?_⟩
      simpa [perform, BusState.publish, hk] using hnumbers
  | subscribe subscriptionId subject group handler fromStart => exact h
  | unsubscribe subscriptionId =>
    show Counted (s.unsubscribe subscriptionId)
    unfold BusState.unsubscribe
    cases s.subscriptions.find? (·.subscriptionId = subscriptionId) with
    | none => exact h
    | some subscription => exact h
  | invoke i raises => exact h

theorem numbered_of_counted (h : Counted s) : Numbered s := by
  refine ⟨fun subject => (h subject).2, fun subject event => ?_⟩
  simp [BusState.publish, BusState.stored, (h subject).1]

end Steps

/-! ### Runs -/

section Runs

variable {s : BusState B H} {steps : List (BusStep B H)} {task : BusTask B H} {i : ℕ}

theorem exists_task_after (h : s.tasks[i]? = some task) (steps : List (BusStep B H)) :
    ∃ task', (after perform s steps).tasks[i]? = some task' ∧ task'.plan = task.plan := by
  let Inv (t : BusState B H) : Prop := ∃ task', t.tasks[i]? = some task' ∧ task'.plan = task.plan
  have hinv : Inv (after perform s steps) := by
    refine after_invariant (P := fun _ _ => True) ?_ ⟨task, h, rfl⟩ (along_of_forall (fun _ _ => trivial) _ _)
    rintro t step ⟨task', htask', hsame⟩ -
    obtain ⟨task'', htask'', hplan⟩ := exists_task_perform step htask'
    exact ⟨task'', htask'', hplan.trans hsame⟩
  exact hinv

/-- Every task is one of a call. -/
theorem exists_call (h : i < (after perform s steps).tasks.length) : i < s.tasks.length
    ∨ ∃ earlier step later ds, steps = earlier ++ step :: later
      ∧ plan (after perform s earlier) step = some ds ∧ (after perform s earlier).tasks.length = i := by
  induction steps generalizing s with
  | nil => exact .inl h
  | cons step steps ih =>
    rcases ih h with hold | ⟨earlier, step', later, ds, rfl, hplan, hlength⟩
    · cases hplan : plan s step with
      | none =>
        rw [length_tasks_of_none hplan] at hold
        exact .inl hold
      | some ds =>
        rw [tasks_of_plan hplan, List.length_append] at hold
        by_cases hi : i < s.tasks.length
        · exact .inl hi
        · refine .inr ⟨[], step, steps, ds, rfl, hplan, ?_⟩
          show s.tasks.length = i
          simp at hold
          omega
    · exact .inr ⟨step :: earlier, step', later, ds, rfl, hplan, hlength⟩

theorem allComplete_after : AllComplete (after perform s steps)
    ↔ AllComplete s ∧ Along perform (fun s step => plan s step = none → Heard s step) s steps := by
  induction steps generalizing s with
  | nil => exact (and_iff_left trivial).symm
  | cons step steps ih =>
    rw [after_cons, ih, allComplete_perform]
    exact and_assoc

/-- The task that a call of the run starts. -/
theorem exists_task_of_call {earlier later : List (BusStep B H)} {step : BusStep B H}
    {ds : List (Delivery B H)} (hplan : plan (after perform s earlier) step = some ds) :
    ∃ task, (after perform s (earlier ++ step :: later)).tasks[(after perform s earlier).tasks.length]?
        = some task ∧ task.plan = ds := by
  have hnew : (perform step (after perform s earlier)).2.tasks[(after perform s earlier).tasks.length]?
      = some ⟨[], ds, false⟩ := by
    rw [tasks_of_plan hplan]
    exact List.getElem?_concat_length
  rw [after_append, after_cons]
  exact exists_task_after hnew later

theorem delivers_iff_forall_call : Delivers steps
    ↔ (∀ earlier step later, steps = earlier ++ step :: later →
        (plan (after perform .empty earlier) step).isSome → Heard (after perform .empty earlier) step)
      ∧ AllComplete (after perform .empty steps) := by
  have hfulfilled {earlier later : List (BusStep B H)} {step : BusStep B H} {ds : List (Delivery B H)}
      {task : BusTask B H} (hplan : plan (after perform .empty earlier) step = some ds)
      (hsame : task.plan = ds) :
      Fulfilled (after perform .empty earlier) step task.total
        ↔ Heard (after perform .empty earlier) step ∧ task.Complete :=
    fulfilled_iff hplan (task.total_append_missing.trans hsame)
  constructor
  · intro h
    refine ⟨fun earlier step later heq hsome => ?_, fun i task htask => ?_⟩
    · obtain ⟨ds, hplan⟩ := Option.isSome_iff_exists.mp hsome
      obtain ⟨task, htask, hsame⟩ := @exists_task_of_call B H _ earlier later step _ hplan
      obtain ⟨task', htask', hdone⟩ := h earlier step later heq ds hplan
      rw [heq, htask] at htask'
      obtain rfl := Option.some.inj htask'
      exact ((@hfulfilled earlier later _ _ _ hplan hsame).mp hdone).1
    · rcases exists_call (List.getElem?_eq_some_iff.mp htask).1 with
        hzero | ⟨earlier, step, later, ds, rfl, hplan, rfl⟩
      · exact absurd hzero (Nat.not_lt_zero i)
      · obtain ⟨task', htask', hsame⟩ := @exists_task_of_call B H _ earlier later step _ hplan
        rw [htask'] at htask
        obtain rfl := Option.some.inj htask
        obtain ⟨task, htask, hdone⟩ := h earlier step later rfl ds hplan
        rw [htask'] at htask
        obtain rfl := Option.some.inj htask
        exact ((@hfulfilled earlier later _ _ _ hplan hsame).mp hdone).2
  · rintro ⟨hheard, hcomplete⟩ earlier step later rfl ds hplan
    obtain ⟨task, htask, hsame⟩ := @exists_task_of_call B H _ earlier later step _ hplan
    refine ⟨task, htask, (@hfulfilled earlier later _ _ _ hplan hsame).mpr ⟨?_, hcomplete _ task htask⟩⟩
    exact hheard earlier step later rfl (Option.isSome_iff_exists.mpr ⟨ds, hplan⟩)

/-- The calls are fulfilled exactly when every step meets the condition. -/
theorem delivers_iff_along : Delivers steps ↔ Along perform Heard .empty steps := by
  have hempty : AllComplete (BusState.empty : BusState B H) := nofun
  rw [delivers_iff_forall_call, allComplete_after, and_iff_right hempty, along_iff_forall,
    along_iff_forall]
  constructor
  · rintro ⟨hcalls, hothers⟩ earlier step later heq
    cases hplan : plan (after perform .empty earlier) step with
    | none => exact hothers earlier step later heq hplan
    | some ds => exact hcalls earlier step later heq (Option.isSome_iff_exists.mpr ⟨ds, hplan⟩)
  · intro h
    exact ⟨fun earlier step later heq _ => h earlier step later heq,
      fun earlier step later heq _ => h earlier step later heq⟩

/-- **Delivery.**  Every subject numbers its events 1, 2, 3, ... in the order they are published.  Every
    publication reaches one member of every group that matches it, and every subscription from the start
    all earlier events that it matches, exactly when no handler raises while others that match are waiting,
    and no pattern is subscribed to from the start with events under the other subjects it matches. -/
theorem delivers_iff (steps : List (BusStep B H)) :
    (∀ earlier later, steps = earlier ++ later → Numbered (after perform .empty earlier))
      ∧ (Delivers steps ↔ Along perform Heard .empty steps) := by
  refine ⟨fun earlier _ _ => numbered_of_counted ?_, delivers_iff_along⟩
  have hempty : Counted (BusState.empty : BusState B H) := fun subject => ⟨rfl, rfl⟩
  exact after_invariant (P := fun _ _ => True) (fun s step h _ => counted_perform step h) hempty
    (along_of_forall (fun _ _ => trivial) _ _)

end Runs

/-- A handler of one group raises before the other group has its event, and a pattern is subscribed to from
    the start after an event under a subject that it matches. -/
theorem not_delivers :
    ¬ Delivers ([.subscribe "1" "a" "g" 1 false, .subscribe "2" "a" "h" 2 false, .publish "a" ⟨0, 5⟩,
        .invoke 2 true] : List (BusStep ℕ ℕ))
      ∧ ¬ Delivers ([.publish "a.b" ⟨0, 5⟩, .subscribe "1" "a.*" "g" 1 true] : List (BusStep ℕ ℕ)) := by
  refine ⟨fun h => ?_, fun h => ?_⟩
  · obtain ⟨-, -, -, hheard, -⟩ := delivers_iff_along.mp h
    have hmissing := hheard _ rfl rfl ⟨⟨"a", "h", "2", 2⟩, "a", ⟨1, 5⟩⟩ (by decide)
    exact hmissing (by decide)
  · obtain ⟨-, hheard, -⟩ := delivers_iff_along.mp h
    have hnone := hheard "a.b" (by decide) (by decide)
    cases hnone

end Agora.EventBus
