import Mathlib.Data.List.Chain
import Mathlib.Order.Basic

namespace Agora

/-!
# Runs and traces

A machine answers calls and moves to a new state, also when the answer is an error.  An invariant
of its steps holds after every run (`after_invariant`), and two machines whose steps answer alike
in related states answer alike in every run (`answers_eq_of_simulation`).

The second half is about lists of steps that know their two ends: when each step starts where the
one before it ended, what grows in every step grows along the whole trace
(`pairwise_trace_of_linked`).
-/

/-! ### Machines -/

section Machines

variable {σ τ ι ω : Type} (exec : ι → σ → ω × σ)

/-- The state after the calls. -/
def after (s : σ) (calls : List ι) : σ := calls.foldl (fun s i => (exec i s).2) s

/-- The answers to the calls. -/
def answers : σ → List ι → List ω
  | _, [] => []
  | s, i :: calls => (exec i s).1 :: answers (exec i s).2 calls

/-- Every call of the run meets the condition in the state it is made in. -/
def Along (P : σ → ι → Prop) : σ → List ι → Prop
  | _, [] => True
  | s, i :: calls => P s i ∧ Along P (exec i s).2 calls

@[simp] theorem after_nil (s : σ) : after exec s [] = s := rfl

@[simp] theorem after_cons (s : σ) (i : ι) (calls : List ι) :
    after exec s (i :: calls) = after exec (exec i s).2 calls := rfl

theorem after_append (s : σ) (calls calls' : List ι) :
    after exec s (calls ++ calls') = after exec (after exec s calls) calls' :=
  List.foldl_append

variable {exec}

theorem along_cons {P : σ → ι → Prop} {s s' : σ} {i : ι} {calls : List ι} (h : P s i)
    (hs : (exec i s).2 = s') (hrest : Along exec P s' calls) : Along exec P s (i :: calls) := by
  rw [← hs] at hrest
  exact ⟨h, hrest⟩

theorem after_cons_of {s s' : σ} {i : ι} (hs : (exec i s).2 = s') (calls : List ι) :
    after exec s (i :: calls) = after exec s' calls := by
  rw [after_cons, hs]

/-- **Invariants.**  What every allowed step keeps holds after every run of allowed steps. -/
theorem after_invariant {Inv : σ → Prop} {P : σ → ι → Prop}
    (hstep : ∀ s i, Inv s → P s i → Inv (exec i s).2) {s : σ} (h : Inv s) {calls : List ι}
    (hcalls : Along exec P s calls) : Inv (after exec s calls) := by
  induction calls generalizing s with
  | nil => exact h
  | cons i calls ih => exact ih (hstep s i h hcalls.1) hcalls.2

theorem along_of_forall {P : σ → ι → Prop} (h : ∀ s i, P s i) (s : σ) (calls : List ι) :
    Along exec P s calls := by
  induction calls generalizing s with
  | nil => trivial
  | cons i calls ih => exact ⟨h s i, ih _⟩

theorem along_congr {P Q : σ → ι → Prop} (h : ∀ s i, P s i ↔ Q s i) (s : σ) (calls : List ι) :
    Along exec P s calls ↔ Along exec Q s calls := by
  induction calls generalizing s with
  | nil => rfl
  | cons i calls ih => exact and_congr (h s i) (ih _)

/-- The conditions may be about what holds in the states of the run. -/
theorem along_congr_of_invariant {Inv : σ → Prop} {P Q : σ → ι → Prop}
    (hinv : ∀ s i, Inv s → Inv (exec i s).2) (h : ∀ s i, Inv s → (P s i ↔ Q s i)) {s : σ} (hs : Inv s)
    (calls : List ι) : Along exec P s calls ↔ Along exec Q s calls := by
  induction calls generalizing s with
  | nil => rfl
  | cons i calls ih => exact and_congr (h s i hs) (ih (hinv s i hs))

theorem along_forall {κ : Type} {Q : κ → Prop} {P : κ → σ → ι → Prop} {s : σ} {calls : List ι} :
    Along exec (fun s i => ∀ k, Q k → P k s i) s calls ↔ ∀ k, Q k → Along exec (P k) s calls := by
  induction calls generalizing s with
  | nil => exact iff_of_true trivial fun _ _ => trivial
  | cons i calls ih =>
    simp only [Along, ih, ← forall_and]

theorem along_append {P : σ → ι → Prop} {s : σ} {calls calls' : List ι} :
    Along exec P s (calls ++ calls')
      ↔ Along exec P s calls ∧ Along exec P (after exec s calls) calls' := by
  induction calls generalizing s with
  | nil => exact (and_iff_right trivial).symm
  | cons i calls ih => exact (and_congr_right fun _ => ih).trans and_assoc.symm

/-- Every step of the run, in the state it is made in. -/
theorem along_iff_forall {P : σ → ι → Prop} {s : σ} {calls : List ι} : Along exec P s calls
    ↔ ∀ earlier i later, calls = earlier ++ i :: later → P (after exec s earlier) i := by
  induction calls generalizing s with
  | nil =>
    refine iff_of_true trivial fun earlier i later heq => ?_
    exact absurd heq.symm (List.append_ne_nil_of_right_ne_nil earlier (List.cons_ne_nil i later))
  | cons j calls ih =>
    constructor
    · rintro ⟨hfirst, hrest⟩ earlier i later heq
      cases earlier with
      | nil =>
        obtain ⟨rfl, -⟩ := List.cons.inj heq
        exact hfirst
      | cons k earlier =>
        obtain ⟨rfl, htail⟩ := List.cons.inj heq
        exact ih.mp hrest earlier i later htail
    · intro h
      refine ⟨h [] j calls rfl, ih.mpr fun earlier i later heq => ?_⟩
      exact h (j :: earlier) i later (congrArg (j :: ·) heq)

/-- **Safety, exactly.**  Where an allowed step from a safe state ends in a safe one exactly when it
    meets a condition, all states of an allowed run are safe exactly when all its steps do. -/
theorem forall_prefix_iff_along {Inv Safe : σ → Prop} {P Q : σ → ι → Prop}
    (hinv : ∀ s i, Inv s → P s i → Inv (exec i s).2)
    (hsafe : ∀ s i, Inv s → P s i → Safe s → (Safe (exec i s).2 ↔ Q s i)) {s : σ} (h : Inv s)
    (hs : Safe s) {calls : List ι} (hcalls : Along exec P s calls) :
    (∀ earlier later, calls = earlier ++ later → Safe (after exec s earlier))
      ↔ Along exec Q s calls := by
  induction calls generalizing s with
  | nil =>
    refine ⟨fun _ => trivial, fun _ earlier later heq => ?_⟩
    rw [(List.append_eq_nil_iff.mp heq.symm).1]
    exact hs
  | cons i calls ih =>
    have hnext := hsafe s i h hcalls.1 hs
    constructor
    · intro hall
      have hfirst : Safe (exec i s).2 := hall [i] calls rfl
      refine ⟨hnext.mp hfirst, (ih (hinv s i h hcalls.1) hfirst hcalls.2).mp ?_⟩
      intro earlier later heq
      exact hall (i :: earlier) later (congrArg (i :: ·) heq)
    · rintro ⟨hquiet, hrest⟩ earlier later heq
      cases earlier with
      | nil => exact hs
      | cons j earlier =>
        obtain ⟨rfl, htail⟩ := List.cons.inj heq
        exact (ih (hinv s i h hcalls.1) (hnext.mpr hquiet) hcalls.2).mpr hrest earlier later htail

/-- What holds between any two states of a run, the earlier one first, holds in each of its steps. -/
theorem forall_middle_iff_along {R : σ → σ → Prop} (hrefl : ∀ s, R s s)
    (htrans : ∀ s t u, R s t → R t u → R s u) {s : σ} {calls : List ι} :
    (∀ earlier middle later, calls = earlier ++ middle ++ later →
        R (after exec s earlier) (after exec s (earlier ++ middle)))
      ↔ Along exec (fun s i => R s (exec i s).2) s calls := by
  induction calls generalizing s with
  | nil =>
    refine ⟨fun _ => trivial, fun _ earlier middle later heq => ?_⟩
    obtain ⟨hboth, -⟩ := List.append_eq_nil_iff.mp heq.symm
    rw [hboth, (List.append_eq_nil_iff.mp hboth).1]
    exact hrefl s
  | cons i calls ih =>
    constructor
    · refine fun h => ⟨h [] [i] calls rfl, ih.mp fun earlier middle later heq => ?_⟩
      exact h (i :: earlier) middle later (congrArg (i :: ·) heq)
    · rintro ⟨hfirst, hrest⟩ earlier middle later heq
      have hrest := ih.mpr hrest
      cases earlier with
      | cons j earlier =>
        obtain ⟨rfl, htail⟩ := List.cons.inj heq
        exact hrest earlier middle later htail
      | nil =>
        cases middle with
        | nil => exact hrefl s
        | cons j middle =>
          obtain ⟨rfl, htail⟩ := List.cons.inj heq
          exact htrans _ _ _ hfirst (hrest [] middle later htail)

end Machines

/-! ### Traces -/

section Traces

variable {σ α : Type} (pre post : σ → α)

/-- The two ends of every step, in order. -/
def trace (steps : List σ) : List α := steps.flatMap fun s => [pre s, post s]

/-- Every step starts where the one before it ended. -/
def Linked (steps : List σ) : Prop := steps.IsChain fun s t => post s = pre t

variable {pre post}

theorem getLast?_trace (steps : List σ) :
    (trace pre post steps).getLast? = steps.getLast?.map post := by
  induction steps with
  | nil => rfl
  | cons s steps ih =>
    cases steps with
    | nil => rfl
    | cons t steps =>
      rw [List.getLast?_cons_cons, ← ih]
      exact List.getLast?_append_of_ne_nil [pre s, post s] (List.cons_ne_nil _ _)

/-- What does not decrease in a step does not decrease along linked steps. -/
theorem isChain_trace_of_linked {β : Type} [Preorder β] {f : α → β} {steps : List σ}
    (hstep : ∀ s ∈ steps, f (pre s) ≤ f (post s)) (hlinked : Linked pre post steps) :
    (trace pre post steps).IsChain fun a b => f a ≤ f b := by
  induction steps with
  | nil => exact List.IsChain.nil
  | cons s steps ih =>
    have hs := hstep s List.mem_cons_self
    cases steps with
    | nil => exact List.isChain_cons_cons.mpr ⟨hs, List.IsChain.singleton _⟩
    | cons t steps =>
      obtain ⟨hst, hrest⟩ := List.isChain_cons_cons.mp hlinked
      have htrace := ih (fun u hu => hstep u (List.mem_cons_of_mem _ hu)) hrest
      refine List.isChain_cons_cons.mpr ⟨hs, List.isChain_cons_cons.mpr ⟨?_, htrace⟩⟩
      exact le_of_eq (congrArg f hst)

/-- **Traces.**  With a further point that is not lower than the last one, if there is any. -/
theorem pairwise_trace_of_linked {β : Type} [Preorder β] {f : α → β} {steps : List σ}
    {tail : Option α} (hstep : ∀ s ∈ steps, f (pre s) ≤ f (post s))
    (hlinked : Linked pre post steps)
    (htail : ∀ s ∈ steps.getLast?, ∀ a ∈ tail, f (post s) ≤ f a) :
    (trace pre post steps ++ tail.toList).Pairwise fun a b => f a ≤ f b := by
  have : Trans (fun a b : α => f a ≤ f b) (fun a b => f a ≤ f b) fun a b => f a ≤ f b :=
    ⟨le_trans⟩
  refine List.IsChain.pairwise (List.isChain_append.mpr
    ⟨isChain_trace_of_linked hstep hlinked, ?_, fun a ha b hb => ?_⟩)
  · cases tail with
    | none => exact List.IsChain.nil
    | some a => exact List.IsChain.singleton a
  · rw [getLast?_trace] at ha
    obtain ⟨s, hs, rfl⟩ := Option.map_eq_some_iff.mp ha
    refine htail s hs b ?_
    cases tail with
    | none => cases hb
    | some c => exact hb

/-- No step but the last ends in a point that no step starts in. -/
theorem forall_mem_dropLast_of_linked {P : α → Prop} {steps : List σ}
    (hstart : ∀ s ∈ steps, P (pre s)) (hlinked : Linked pre post steps) :
    ∀ s ∈ steps.dropLast, P (post s) := by
  induction steps with
  | nil => exact List.forall_mem_nil _
  | cons s steps ih =>
    cases steps with
    | nil => exact List.forall_mem_nil _
    | cons t steps =>
      obtain ⟨hst, hrest⟩ := List.isChain_cons_cons.mp hlinked
      rw [List.dropLast_cons_cons, List.forall_mem_cons, hst]
      exact ⟨hstart t (List.mem_cons_of_mem _ List.mem_cons_self),
        ih (fun u hu => hstart u (List.mem_cons_of_mem _ hu)) hrest⟩

end Traces

end Agora
