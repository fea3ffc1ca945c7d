import Mathlib.Data.List.MinMax
import Mathlib.Data.List.Nodup
import Mathlib.Data.Prod.Lex
import Mathlib.Order.Lattice

namespace Agora

/-!
# Values over time

Events give a value from a time on.  In a timeline times and values increase together, so what is read as
of a time does not decrease with it (`Timeline.asOf_mono`), and another event at the end does not decrease
what is read as of any time (`Timeline.asOf_le_append`).  Before the first event a default is read, which
may depend on the time too.
-/

variable {α τ σ : Type} [LinearOrder τ] [LinearOrder σ] (time : α → τ) (value : α → σ)

/-- Events in the order of their times, which is the order of their values. -/
structure Timeline (events : List α) : Prop where
  times : events.Pairwise fun a b => time a < time b
  values : events.Pairwise fun a b => value a < value b

/-- The last event that is not later. -/
def lastAt (events : List α) (t : τ) : Option α := (events.filter (time · ≤ t)).getLast?

/-- The value as of a time. -/
def asOf (default : τ → σ) (events : List α) (t : τ) : σ :=
  ((lastAt time events t).map value).getD (default t)

variable {time value} {default : τ → σ} {events : List α}

theorem Timeline.nil : Timeline time value [] := ⟨List.Pairwise.nil, List.Pairwise.nil⟩

theorem Timeline.filter (h : Timeline time value events) (p : α → Bool) :
    Timeline time value (events.filter p) := ⟨h.times.filter p, h.values.filter p⟩

/-- No event is later than the last one, and none has a greater value. -/
theorem Timeline.le_last (h : Timeline time value events) {e x : α} (hlast : events.getLast? = some x)
    (he : e ∈ events) : time e ≤ time x ∧ value e ≤ value x := by
  obtain ⟨earlier, rfl⟩ := List.getLast?_eq_some_iff.mp hlast
  rcases List.mem_append.mp he with hearlier | hx
  · exact ⟨((List.pairwise_append.mp h.times).2.2 e hearlier x List.mem_cons_self).le,
      ((List.pairwise_append.mp h.values).2.2 e hearlier x List.mem_cons_self).le⟩
  · rw [List.mem_singleton.mp hx]
    exact ⟨le_rfl, le_rfl⟩

/-- An event with a later time and a greater value than the last one may follow. -/
theorem Timeline.concat (h : Timeline time value events) {x : α}
    (hlast : ∀ e, events.getLast? = some e → time e < time x ∧ value e < value x) :
    Timeline time value (events ++ [x]) := by
  have hlater : ∀ e ∈ events, time e < time x ∧ value e < value x := by
    intro e he
    cases hlast' : events.getLast? with
    | none =>
      rw [List.getLast?_eq_none_iff.mp hlast'] at he
      exact absurd he List.not_mem_nil
    | some y =>
      have hle := h.le_last hlast' he
      have hlt := hlast y hlast'
      exact ⟨hle.1.trans_lt hlt.1, hle.2.trans_lt hlt.2⟩
  constructor
  · exact List.pairwise_append.mpr ⟨h.times, List.pairwise_singleton _ _, fun e he y hy => by
      rw [List.mem_singleton.mp hy]
      exact (hlater e he).1⟩
  · exact List.pairwise_append.mpr ⟨h.values, List.pairwise_singleton _ _, fun e he y hy => by
      rw [List.mem_singleton.mp hy]
      exact (hlater e he).2⟩

/-- No two events have the same value. -/
theorem Timeline.nodup_values (h : Timeline time value events) : (events.map value).Nodup :=
  List.pairwise_map.mpr (h.values.imp fun hlt => ne_of_lt hlt)

/-- The event with the greatest time is the last one, however ties are broken. -/
theorem Timeline.argmax_eq {κ : Type} [LinearOrder κ] (h : Timeline time value events) (key : α → κ) :
    (events.argmax fun e => toLex (time e, key e)) = events.getLast? := by
  cases hmax : events.argmax fun e => toLex (time e, key e) with
  | none =>
    rw [List.argmax_eq_none.mp hmax]
    rfl
  | some m =>
    have hm := List.argmax_mem hmax
    cases hlast : events.getLast? with
    | none =>
      rw [List.getLast?_eq_none_iff.mp hlast] at hm
      exact absurd hm List.not_mem_nil
    | some x =>
      have hx := List.mem_of_getLast? hlast
      have htime : time m = time x := by
        rcases Prod.Lex.toLex_le_toLex.mp (List.le_of_mem_argmax hx hmax) with hlt | ⟨heq, -⟩
        · exact absurd hlt (not_lt.mpr (h.le_last hlast hm).1)
        · exact heq.symm
      have hnodup : (events.map time).Nodup :=
        List.pairwise_map.mpr (h.times.imp fun hlt => ne_of_lt hlt)
      rw [List.inj_on_of_nodup_map hnodup hm hx htime]

theorem mem_of_lastAt {t : τ} {e : α} (h : lastAt time events t = some e) : e ∈ events ∧ time e ≤ t := by
  have hmem := List.mem_of_getLast? h
  rw [List.mem_filter] at hmem
  exact ⟨hmem.1, of_decide_eq_true hmem.2⟩

theorem lastAt_eq_none {t : τ} : lastAt time events t = none ↔ ∀ e ∈ events, t < time e := by
  rw [lastAt, List.getLast?_eq_none_iff, List.filter_eq_nil_iff]
  simp

/-- The last event that is not later has the greatest value of them. -/
theorem Timeline.le_lastAt (h : Timeline time value events) {t : τ} {e x : α}
    (hlast : lastAt time events t = some x) (he : e ∈ events) (ht : time e ≤ t) :
    value e ≤ value x :=
  ((h.filter _).le_last hlast (List.mem_filter.mpr ⟨he, decide_eq_true ht⟩)).2

/-- **Later reads.**  What is read as of a later time is not less. -/
theorem Timeline.asOf_mono (h : Timeline time value events) (hmono : Monotone default)
    (hdefault : ∀ e ∈ events, ∀ t, default t ≤ value e) : Monotone (asOf time value default events) := by
  intro t t' ht
  unfold asOf
  cases hlast : lastAt time events t with
  | none =>
    cases hlast' : lastAt time events t' with
    | none => exact hmono ht
    | some x => exact hdefault x (mem_of_lastAt hlast').1 t
  | some e =>
    obtain ⟨he, het⟩ := mem_of_lastAt hlast
    cases hlast' : lastAt time events t' with
    | none => exact absurd (lastAt_eq_none.mp hlast' e he) (not_lt.mpr (het.trans ht))
    | some x => exact h.le_lastAt hlast' he (het.trans ht)

/-- **Later writes.**  With another event at the end nothing less is read. -/
theorem Timeline.asOf_le_append {x : α} (h : Timeline time value (events ++ [x]))
    (hdefault : ∀ t, default t ≤ value x) (t : τ) :
    asOf time value default events t ≤ asOf time value default (events ++ [x]) t := by
  have hlast : lastAt time (events ++ [x]) t
      = if time x ≤ t then some x else lastAt time events t := by
    unfold lastAt
    rw [List.filter_append]
    by_cases hx : time x ≤ t
    · simp [hx]
    · simp [hx]
  unfold asOf
  rw [hlast]
  split_ifs with hx
  · show _ ≤ value x
    cases hold : lastAt time events t with
    | none => exact hdefault t
    | some e =>
      exact ((List.pairwise_append.mp h.values).2.2 e (mem_of_lastAt hold).1 x List.mem_cons_self).le
  · exact le_rfl

end Agora
