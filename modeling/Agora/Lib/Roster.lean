import Mathlib.Data.Set.Insert
import Mathlib.Data.List.Induction

namespace Agora

/-!
# Rosters

Who is present after a sequence of moves, each of which adds one and may remove one.
`mem_replay_iff` answers without replaying the moves: those who were there at the start and were never
removed, and those whom some move has added and no later one removed.
-/

/-- One is added, in the place of another or beside all others. -/
structure RosterMove (α : Type) where
  removed : Option α
  added : α

variable {α : Type}

/-- Who is present after a move. -/
def RosterMove.act (present : Set α) (m : RosterMove α) : Set α :=
  insert m.added {x ∈ present | m.removed ≠ some x}

/-- Who is present after some moves. -/
def replay (start : Set α) (moves : List (RosterMove α)) : Set α := moves.foldl RosterMove.act start

@[simp] theorem replay_nil (start : Set α) : replay start [] = start := rfl

theorem replay_concat (start : Set α) (moves : List (RosterMove α)) (m : RosterMove α) :
    replay start (moves ++ [m]) = m.act (replay start moves) := by
  simp [replay]

/-- The last move decides who it adds; of the others it removes at most one. -/
theorem exists_added_concat {moves : List (RosterMove α)} {m : RosterMove α} {x : α} :
    (∃ earlier k later, moves ++ [m] = earlier ++ k :: later ∧ k.added = x
        ∧ ∀ l ∈ later, l.removed ≠ some x)
      ↔ m.added = x ∨ m.removed ≠ some x ∧ ∃ earlier k later, moves = earlier ++ k :: later
        ∧ k.added = x ∧ ∀ l ∈ later, l.removed ≠ some x := by
  constructor
  · rintro ⟨earlier, k, later, hmoves, hadded, hlater⟩
    rcases List.eq_nil_or_concat later with rfl | ⟨later, l, rfl⟩
    · obtain ⟨-, rfl⟩ := List.append_inj' hmoves rfl |>.imp id List.singleton_inj.mp
      exact .inl hadded
    · have hsplit : moves ++ [m] = (earlier ++ k :: later) ++ [l] := by
        rw [hmoves]
        simp
      obtain ⟨rfl, hlast⟩ := List.append_inj' hsplit rfl
      obtain rfl := List.singleton_inj.mp hlast
      rw [List.concat_eq_append, List.forall_mem_append, List.forall_mem_singleton] at hlater
      exact .inr ⟨hlater.2, earlier, k, later, rfl, hadded, hlater.1⟩
  · rintro (rfl | ⟨hm, earlier, k, later, rfl, hadded, hlater⟩)
    · exact ⟨moves, m, [], rfl, rfl, List.forall_mem_nil _⟩
    · refine ⟨earlier, k, later ++ [m], by simp, hadded, ?_⟩
      rw [List.forall_mem_append, List.forall_mem_singleton]
      exact ⟨hlater, hm⟩

/-- **Presence.**  Someone is present who was there at the start and was never removed, or whom some
    move has added and no later one removed. -/
theorem mem_replay_iff {start : Set α} {moves : List (RosterMove α)} {x : α} :
    x ∈ replay start moves ↔ (x ∈ start ∧ ∀ m ∈ moves, m.removed ≠ some x)
      ∨ ∃ earlier m later, moves = earlier ++ m :: later ∧ m.added = x
        ∧ ∀ l ∈ later, l.removed ≠ some x := by
  induction moves using List.reverseRecOn with
  | nil => simp
  | append_singleton moves m ih =>
    rw [replay_concat, RosterMove.act, Set.mem_insert_iff, Set.mem_sep_iff, ih, exists_added_concat,
      List.forall_mem_append, List.forall_mem_singleton, eq_comm]
    constructor
    · rintro (hadded | ⟨⟨hstart, hnever⟩ | hadded, hm⟩)
      · exact .inr (.inl hadded)
      · exact .inl ⟨hstart, hnever, hm⟩
      · exact .inr (.inr ⟨hm, hadded⟩)
    · rintro (⟨hstart, hnever, hm⟩ | hadded | ⟨hm, hadded⟩)
      · exact .inr ⟨.inl ⟨hstart, hnever⟩, hm⟩
      · exact .inl hadded
      · exact .inr ⟨.inr hadded, hm⟩

/-- Putting an entry in the place of another in a list without repetitions. -/
theorem mem_set_of_nodup {l : List α} (h : l.Nodup) {i : ℕ} (hi : i < l.length) {new x : α} :
    x ∈ l.set i new ↔ x = new ∨ x ∈ l ∧ x ≠ l[i] := by
  induction l generalizing i with
  | nil => simp at hi
  | cons a l ih =>
    obtain ⟨ha, hl⟩ := List.nodup_cons.mp h
    cases i with
    | zero =>
      rw [List.set_cons_zero, List.mem_cons, List.getElem_cons_zero]
      refine or_congr_right ⟨fun hx => ⟨List.mem_cons_of_mem _ hx, ?_⟩, fun hx => ?_⟩
      · rintro rfl
        exact ha hx
      · exact (List.mem_cons.mp hx.1).resolve_left hx.2
    | succ i =>
      have hi : i < l.length := Nat.lt_of_succ_lt_succ hi
      have hne : a ≠ l[i] := fun heq => ha (heq ▸ List.getElem_mem hi)
      rw [List.set_cons_succ, List.mem_cons, ih hl hi, List.getElem_cons_succ, List.mem_cons]
      constructor
      · rintro (rfl | rfl | ⟨hx, hother⟩)
        · exact .inr ⟨.inl rfl, hne⟩
        · exact .inl rfl
        · exact .inr ⟨.inr hx, hother⟩
      · rintro (rfl | ⟨rfl | hx, hother⟩)
        · exact .inr (.inl rfl)
        · exact .inl rfl
        · exact .inr (.inr ⟨hx, hother⟩)

end Agora
