import Mathlib.Data.List.Forall2

namespace Agora

/-!
# Fallible computations

A Python function that may raise is an `Except` computation here.  This file holds the
inversion lemmas every later proof about such a function starts from: what a successful
`>>=` went through (`Except.bind_eq_ok`), and what a successful loop over a list did at
each element (`Except.mapM_eq_ok_iff`, `Except.forM_eq_ok_iff`).
-/

variable {ε α β : Type}

namespace Except

/-- A bind succeeds exactly when both halves do. -/
theorem bind_eq_ok {x : Except ε α} {f : α → Except ε β} {b : β} :
    (x >>= f) = .ok b ↔ ∃ a, x = .ok a ∧ f a = .ok b := by
  cases x with
  | error e => simp [bind, Except.bind]
  | ok a => simp [bind, Except.bind]

/-- A bind raises what one of its halves does. -/
theorem bind_eq_error {x : Except ε α} {f : α → Except ε β} {e : ε} :
    (x >>= f) = .error e ↔ x = .error e ∨ ∃ a, x = .ok a ∧ f a = .error e := by
  cases x with
  | error e' => simp [bind, Except.bind]
  | ok a => simp [bind, Except.bind]

@[simp] theorem ok_bind (a : α) (f : α → Except ε β) :
    ((.ok a : Except ε α) >>= f) = f a := rfl

@[simp] theorem error_bind (e : ε) (f : α → Except ε β) :
    ((.error e : Except ε α) >>= f) = .error e := rfl

@[simp] theorem pure_eq_ok (a : α) : (pure a : Except ε α) = .ok a := rfl

@[simp] theorem map_eq_ok {x : Except ε α} {f : α → β} {b : β} :
    (f <$> x) = .ok b ↔ ∃ a, x = .ok a ∧ f a = b := by
  cases x with
  | error e => simp [Functor.map, Except.map]
  | ok a => simp [Functor.map, Except.map]

/-- A computation that is seen to succeed has a value. -/
theorem exists_ok_of_isOk {x : Except ε α} (h : x.isOk = true) : ∃ a, x = .ok a := by
  cases x with
  | error e => simp [Except.isOk, Except.toBool] at h
  | ok a => exact ⟨a, rfl⟩

/-- A computation whose value is seen to pass a test has such a value. -/
theorem exists_ok_of_any {x : Except ε α} {p : α → Bool} (h : x.toOption.any p = true) :
    ∃ a, x = .ok a ∧ p a = true := by
  cases x with
  | error e => simp [Except.toOption] at h
  | ok a => exact ⟨a, rfl, h⟩

/-! ### Loops -/

/-- A loop that collects results succeeds exactly when it does at every element. -/
theorem mapM_eq_ok_iff {f : α → Except ε β} {l : List α} {ys : List β} :
    l.mapM f = .ok ys ↔ List.Forall₂ (fun x y => f x = .ok y) l ys := by
  induction l generalizing ys with
  | nil => simp [List.forall₂_nil_left_iff, eq_comm]
  | cons x xs ih =>
    rw [List.mapM_cons, bind_eq_ok, List.forall₂_cons_left_iff]
    constructor
    · rintro ⟨y, hy, h⟩
      obtain ⟨ys', hys', h⟩ := bind_eq_ok.mp h
      exact ⟨y, ys', hy, ih.mp hys', (Except.ok.inj h).symm⟩
    · rintro ⟨y, ys', hy, hys', rfl⟩
      exact ⟨y, hy, bind_eq_ok.mpr ⟨ys', ih.mpr hys', rfl⟩⟩

/-- A collecting loop whose steps raise one exception only raises it when a step does. -/
theorem mapM_eq_error {f : α → Except ε β} {l : List α} {e : ε}
    (h : ∀ x ∈ l, (∃ y, f x = .ok y) ∨ f x = .error e) (hraised : ∃ x ∈ l, f x = .error e) :
    l.mapM f = .error e := by
  induction l with
  | nil =>
    obtain ⟨x, hx, -⟩ := hraised
    exact absurd hx List.not_mem_nil
  | cons x l ih =>
    obtain ⟨hfirst, hrest⟩ := List.forall_mem_cons.mp h
    rw [List.mapM_cons]
    rcases hfirst with ⟨y, hy⟩ | hx
    · obtain ⟨z, hz, hraised⟩ := hraised
      rcases List.mem_cons.mp hz with rfl | hz
      · rw [hy] at hraised
        cases hraised
      · rw [hy, ih hrest ⟨z, hz, hraised⟩]
        rfl
    · rw [hx]
      rfl

/-- A collecting loop succeeds where every element has a result. -/
theorem exists_mapM_ok {f : α → Except ε β} {l : List α} (h : ∀ x ∈ l, ∃ y, f x = .ok y) :
    ∃ ys, l.mapM f = .ok ys := by
  induction l with
  | nil => exact ⟨[], rfl⟩
  | cons x l ih =>
    obtain ⟨⟨y, hy⟩, hrest⟩ := List.forall_mem_cons.mp h
    obtain ⟨ys, hys⟩ := ih hrest
    exact ⟨y :: ys, by rw [List.mapM_cons, hy, hys]; rfl⟩

/-- Each result of a collecting loop comes from an element of the list. -/
theorem exists_of_mem_mapM {f : α → Except ε β} {l : List α} {ys : List β}
    (h : l.mapM f = .ok ys) {y : β} (hy : y ∈ ys) : ∃ x ∈ l, f x = .ok y := by
  induction mapM_eq_ok_iff.mp h with
  | nil => simp at hy
  | cons hxy hrest ih =>
    rcases List.mem_cons.mp hy with rfl | hy
    · exact ⟨_, List.mem_cons_self, hxy⟩
    · obtain ⟨x, hx, hfx⟩ := ih (mapM_eq_ok_iff.mpr hrest) hy
      exact ⟨x, List.mem_cons_of_mem _ hx, hfx⟩

/-- And each element has its result among them. -/
theorem exists_mem_of_mapM {f : α → Except ε β} {l : List α} {ys : List β}
    (h : l.mapM f = .ok ys) {x : α} (hx : x ∈ l) : ∃ y, f x = .ok y ∧ y ∈ ys := by
  induction mapM_eq_ok_iff.mp h with
  | nil => simp at hx
  | cons hxy hrest ih =>
    rcases List.mem_cons.mp hx with rfl | hx
    · exact ⟨_, hxy, List.mem_cons_self⟩
    · obtain ⟨y, hfx, hy⟩ := ih (mapM_eq_ok_iff.mpr hrest) hx
      exact ⟨y, hfx, List.mem_cons_of_mem _ hy⟩

/-- What each step of a collecting loop keeps of its element, the whole loop keeps. -/
theorem map_eq_of_mapM {γ : Type} {f : α → Except ε β} {g : β → γ} {k : α → γ}
    (hstep : ∀ x y, f x = .ok y → g y = k x) {l : List α} {ys : List β}
    (h : l.mapM f = .ok ys) : ys.map g = l.map k := by
  induction mapM_eq_ok_iff.mp h with
  | nil => rfl
  | cons hxy hrest ih =>
    rw [List.map_cons, List.map_cons, hstep _ _ hxy, ih (mapM_eq_ok_iff.mpr hrest)]

/-- A checking loop passes exactly when every check does. -/
theorem forM_eq_ok_iff {f : α → Except ε Unit} {l : List α} :
    forM l f = .ok () ↔ ∀ x ∈ l, f x = .ok () := by
  induction l with
  | nil => simp
  | cons x xs ih =>
    rw [List.forM_cons, bind_eq_ok, List.forall_mem_cons, ← ih]
    exact ⟨fun ⟨_, hx, h⟩ => ⟨hx, h⟩, fun ⟨hx, h⟩ => ⟨(), hx, h⟩⟩

/-- A checking loop that fails does so at some element. -/
theorem exists_of_forM_eq_error {f : α → Except ε Unit} {l : List α} {e : ε}
    (h : forM l f = .error e) : ∃ x ∈ l, f x = .error e := by
  induction l with
  | nil => cases h
  | cons x xs ih =>
    rw [List.forM_cons] at h
    cases hx : f x with
    | error e' =>
      rw [hx, error_bind] at h
      exact ⟨x, List.mem_cons_self, hx.trans h⟩
    | ok u =>
      rw [hx, ok_bind] at h
      obtain ⟨y, hy, hfy⟩ := ih h
      exact ⟨y, List.mem_cons_of_mem _ hy, hfy⟩

/-- A loop depends on its body at the elements of the list. -/
theorem foldlM_congr {f g : β → α → Except ε β} {l : List α} (h : ∀ b, ∀ x ∈ l, f b x = g b x) (b : β) :
    l.foldlM f b = l.foldlM g b := by
  induction l generalizing b with
  | nil => rfl
  | cons x l ih =>
    rw [List.foldlM_cons, List.foldlM_cons, h b x List.mem_cons_self]
    congr 1
    funext c
    exact ih (fun c y hy => h c y (List.mem_cons_of_mem _ hy)) c

end Except

/-! ### What a computation raises

`Except.Raises P x` says that every exception of `x` satisfies `P`.  The rules follow the
constructs a computation is written with; after a bind the exceptions of the second half count only
for the values the first half returns. -/

namespace Except

variable {P Q : ε → Prop}

/-- Every exception of the computation satisfies `P`. -/
def Raises (P : ε → Prop) (x : Except ε α) : Prop := ∀ e, x = .error e → P e

namespace Raises

theorem ok (a : α) : Raises P (.ok a : Except ε α) := by
  intro e he
  cases he

theorem error {e : ε} (h : P e) : Raises P (.error e : Except ε α) := by
  intro e' he
  cases he
  exact h

theorem mono {x : Except ε α} (hx : Raises P x) (h : ∀ e, P e → Q e) : Raises Q x :=
  fun e he => h e (hx e he)

theorem bind {x : Except ε α} {f : α → Except ε β} (hx : Raises P x)
    (hf : ∀ a, x = .ok a → Raises P (f a)) : Raises P (x >>= f) := by
  intro e he
  cases x with
  | ok a => exact hf a rfl e he
  | error e' =>
    rw [error_bind] at he
    cases he
    exact hx e rfl

theorem map {x : Except ε α} (hx : Raises P x) (f : α → β) : Raises P (f <$> x) := by
  intro e he
  cases x with
  | ok a => cases he
  | error e' =>
    cases he
    exact hx e rfl

theorem ite {c : Prop} [Decidable c] {x y : Except ε α} (hx : c → Raises P x)
    (hy : ¬ c → Raises P y) : Raises P (if c then x else y) := by
  split
  · exact hx (by assumption)
  · exact hy (by assumption)

/-- A loop that collects results. -/
theorem mapM {f : α → Except ε β} {l : List α} (hf : ∀ a ∈ l, Raises P (f a)) :
    Raises P (l.mapM f) := by
  induction l with
  | nil => exact ok []
  | cons a l ih =>
    obtain ⟨ha, hl⟩ := List.forall_mem_cons.mp hf
    rw [List.mapM_cons]
    exact ha.bind fun b _ => (ih hl).bind fun bs _ => ok (b :: bs)

/-- A loop of checks. -/
theorem forM {f : α → Except ε Unit} {l : List α} (hf : ∀ a ∈ l, Raises P (f a)) :
    Raises P (ForM.forM l f) := by
  intro e he
  obtain ⟨a, ha, hfa⟩ := exists_of_forM_eq_error he
  exact hf a ha e hfa

/-- A loop that goes on from its last result. -/
theorem foldlM {f : β → α → Except ε β} {l : List α} (hf : ∀ b, ∀ a ∈ l, Raises P (f b a)) (b : β) :
    Raises P (l.foldlM f b) := by
  induction l generalizing b with
  | nil => exact ok b
  | cons a l ih =>
    rw [List.foldlM_cons]
    apply bind (hf b a List.mem_cons_self)
    intro c _
    exact ih (fun c d hd => hf c d (List.mem_cons_of_mem a hd)) c

end Raises

end Except

end Agora
