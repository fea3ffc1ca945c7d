import Agora.Lib.Except

namespace Agora

/-!
# Stateful computations that may raise

`Stateful σ ε α` is a computation over a state that returns a value or raises, and what it wrote
before it raised stays written.  `ReadOnly` computations write nothing; `Atomic` ones have written
nothing when they raise.  Checks first and one write last is atomic (`ReadOnly.bind_atomic`).
-/

/-- A computation over a state that may raise. -/
def Stateful (σ ε α : Type) := σ → Except ε α × σ

namespace Stateful

variable {σ ε α β : Type}

/-- Go on with the value, or pass the exception on. -/
def andThen (f : α → Stateful σ ε β) : Except ε α × σ → Except ε β × σ
  | (.ok a, s) => f a s
  | (.error e, s) => (.error e, s)

instance : Monad (Stateful σ ε) where
  pure a s := (.ok a, s)
  bind x f s := andThen f (x s)

def read (f : σ → α) : Stateful σ ε α := fun s => (.ok (f s), s)

def write (f : σ → σ) : Stateful σ ε Unit := fun s => (.ok (), f s)

def raise (e : ε) : Stateful σ ε α := fun s => (.error e, s)

/-- What may fail to be read. -/
def query (f : σ → Except ε α) : Stateful σ ε α := fun s => (f s, s)

/-- A computation on a part of the state. -/
def zoom {τ : Type} (get : σ → τ) (set : τ → σ → σ) (x : Stateful τ ε α) : Stateful σ ε α := fun s =>
  ((x (get s)).1, set (x (get s)).2 s)

/-- The same, with another exception. -/
def mapError {ε' : Type} (f : ε → ε') (x : Stateful σ ε α) : Stateful σ ε' α := fun s =>
  ((x s).1.mapError f, (x s).2)

/-- A computation without state. -/
def lift (x : Except ε α) : Stateful σ ε α := fun s => (x, s)

/-- Go on if the condition holds. -/
def ensure (p : Prop) [Decidable p] (e : ε) : Stateful σ ε Unit := if p then pure () else raise e

/-- Go on with what is there. -/
def required (x : Option α) (e : ε) : Stateful σ ε α := x.elim (raise e) pure

/-- Undo what was written when the computation raises. -/
def rollback (x : Stateful σ ε α) : Stateful σ ε α := fun s =>
  match x s with
  | (.ok a, s') => (.ok a, s')
  | (.error e, _) => (.error e, s)

/-- A write that may be refused. -/
def writeIf (accepts : σ → Bool) (e : ε) (f : σ → σ) : Stateful σ ε Unit := fun s =>
  if accepts s then (.ok (), f s) else (.error e, s)

@[simp] theorem pure_apply (a : α) (s : σ) : (pure a : Stateful σ ε α) s = (.ok a, s) := rfl

@[simp] theorem raise_apply (e : ε) (s : σ) : (raise e : Stateful σ ε α) s = (.error e, s) := rfl

@[simp] theorem write_apply (f : σ → σ) (s : σ) : (write f : Stateful σ ε Unit) s = (.ok (), f s) :=
  rfl

@[simp] theorem read_apply (f : σ → α) (s : σ) : (read f : Stateful σ ε α) s = (.ok (f s), s) := rfl

@[simp] theorem query_apply (f : σ → Except ε α) (s : σ) :
    (query f : Stateful σ ε α) s = (f s, s) := rfl

@[simp] theorem zoom_apply {τ : Type} (get : σ → τ) (set : τ → σ → σ) (x : Stateful τ ε α) (s : σ) :
    zoom get set x s = ((x (get s)).1, set (x (get s)).2 s) := rfl

@[simp] theorem lift_apply (x : Except ε α) (s : σ) : (lift x : Stateful σ ε α) s = (x, s) := rfl

theorem bind_apply (x : Stateful σ ε α) (f : α → Stateful σ ε β) (s : σ) :
    (x >>= f) s = andThen f (x s) := rfl

@[simp] theorem andThen_ok (f : α → Stateful σ ε β) (a : α) (s : σ) :
    andThen f (.ok a, s) = f a s := rfl

@[simp] theorem andThen_error (f : α → Stateful σ ε β) (e : ε) (s : σ) :
    andThen f (.error e, s) = (.error e, s) := rfl

theorem rollback_ok {x : Stateful σ ε α} {s s' : σ} {a : α} (h : x s = (.ok a, s')) :
    rollback x s = (.ok a, s') := by
  rw [rollback, h]

theorem rollback_error {x : Stateful σ ε α} {s : σ} {e : ε} (h : (x s).1 = .error e) :
    rollback x s = (.error e, s) := by
  rw [rollback]
  split
  case h_1 heq =>
    rw [heq] at h
    cases h
  case h_2 heq =>
    rw [heq] at h
    cases h
    rfl

/-- Nothing to undo. -/
theorem rollback_same {x : Stateful σ ε α} {s : σ} {r : Except ε α} (h : x s = (r, s)) :
    rollback x s = (r, s) := by
  cases r with
  | ok a => exact rollback_ok h
  | error e => exact rollback_error (congrArg Prod.fst h)

/-- **Transactions.**  They return what the statements have written, or leave the state as it was. -/
theorem rollback_cases (x : Stateful σ ε α) (s : σ) :
    (∃ a s', x s = (.ok a, s') ∧ rollback x s = (.ok a, s'))
      ∨ ∃ e, (x s).1 = .error e ∧ rollback x s = (.error e, s) := by
  cases hx : (x s).1 with
  | ok a => exact .inl ⟨a, (x s).2, Prod.ext hx rfl, rollback_ok (Prod.ext hx rfl)⟩
  | error e => exact .inr ⟨e, rfl, rollback_error hx⟩

theorem rollback_eq_ok {x : Stateful σ ε α} {s s' : σ} {a : α} :
    rollback x s = (.ok a, s') ↔ x s = (.ok a, s') := by
  rcases rollback_cases x s with ⟨b, t, hx, hr⟩ | ⟨e, hx, hr⟩
  · rw [hx, hr]
  · constructor
    · intro h
      rw [hr] at h
      cases h
    · intro h
      rw [h] at hx
      cases hx

theorem rollback_fst (x : Stateful σ ε α) (s : σ) : (rollback x s).1 = (x s).1 := by
  rcases rollback_cases x s with ⟨a, t, hx, hr⟩ | ⟨e, hx, hr⟩
  · rw [hx, hr]
  · rw [hx, hr]

/-- What raises in a transaction has changed nothing. -/
theorem rollback_snd_of_error {x : Stateful σ ε α} {s : σ} {e : ε} (h : (rollback x s).1 = .error e) :
    (rollback x s).2 = s := by
  rcases rollback_cases x s with ⟨b, t, -, hr⟩ | ⟨e', -, hr⟩
  · rw [hr] at h
    cases h
  · rw [hr]

theorem read_bind (f : σ → α) (g : α → Stateful σ ε β) (s : σ) : (read f >>= g) s = g (f s) s := rfl

/-- A sequence that returns, taken apart. -/
theorem bind_eq_ok {x : Stateful σ ε α} {f : α → Stateful σ ε β} {s s' : σ} {b : β} :
    (x >>= f) s = (.ok b, s') ↔ ∃ a t, x s = (.ok a, t) ∧ f a t = (.ok b, s') := by
  rw [bind_apply]
  obtain ⟨r, t⟩ := x s
  cases r with
  | ok a => simp
  | error e => simp

theorem lift_bind_eq_ok {x : Except ε α} {f : α → Stateful σ ε β} {s s' : σ} {b : β} :
    (lift x >>= f) s = (.ok b, s') ↔ ∃ a, x = .ok a ∧ f a s = (.ok b, s') := by
  rw [bind_apply]
  cases x with
  | ok a => simp
  | error e => simp

theorem query_bind_eq_ok {x : σ → Except ε α} {f : α → Stateful σ ε β} {s s' : σ} {b : β} :
    (query x >>= f) s = (.ok b, s') ↔ ∃ a, x s = .ok a ∧ f a s = (.ok b, s') := by
  rw [bind_apply, query_apply]
  cases x s with
  | ok a => simp
  | error e => simp

theorem ensure_bind_eq_ok {p : Prop} [Decidable p] {e : ε} {f : Unit → Stateful σ ε α} {s s' : σ}
    {a : α} : (ensure p e >>= f) s = (.ok a, s') ↔ p ∧ f () s = (.ok a, s') := by
  unfold ensure
  split_ifs with h
  · simp [h, bind_apply]
  · simp [h, bind_apply]

theorem required_bind_eq_ok {x : Option β} {e : ε} {f : β → Stateful σ ε α} {s s' : σ} {a : α} :
    (required x e >>= f) s = (.ok a, s') ↔ ∃ b, x = some b ∧ f b s = (.ok a, s') := by
  cases x with
  | none => simp [required, bind_apply]
  | some b => simp [required, bind_apply]

theorem writeIf_eq_ok {accepts : σ → Bool} {e : ε} {f : σ → σ} {s s' : σ} :
    writeIf accepts e f s = (.ok (), s') ↔ accepts s = true ∧ s' = f s := by
  unfold writeIf
  split_ifs with h
  · simp [h, eq_comm]
  · simp [h]

theorem writeIf_bind_eq_ok {accepts : σ → Bool} {e : ε} {f : σ → σ} {g : Unit → Stateful σ ε α}
    {s s' : σ} {a : α} :
    (writeIf accepts e f >>= g) s = (.ok a, s') ↔ accepts s = true ∧ g () (f s) = (.ok a, s') := by
  rw [bind_apply, writeIf]
  split_ifs with h
  · simp [h]
  · simp [h]

theorem zoom_eq_ok {τ : Type} {get : σ → τ} {set : τ → σ → σ} {x : Stateful τ ε α} {s s' : σ} {a : α} :
    zoom get set x s = (.ok a, s') ↔ ∃ t, x (get s) = (.ok a, t) ∧ s' = set t s := by
  rw [zoom_apply, Prod.mk.injEq]
  constructor
  · rintro ⟨hanswer, rfl⟩
    exact ⟨_, Prod.ext hanswer rfl, rfl⟩
  · rintro ⟨t, h, rfl⟩
    simp [h]

theorem mapError_eq_ok {ε' : Type} {f : ε → ε'} {x : Stateful σ ε α} {s s' : σ} {a : α} :
    mapError f x s = (.ok a, s') ↔ x s = (.ok a, s') := by
  unfold mapError
  obtain ⟨r, t⟩ := x s
  cases r with
  | ok b => simp [Except.mapError]
  | error e => simp [Except.mapError]

/-! ### What a computation writes -/

/-- The computation writes nothing. -/
def ReadOnly (x : Stateful σ ε α) : Prop := ∀ s, (x s).2 = s

/-- The computation has written nothing when it raises. -/
def Atomic (x : Stateful σ ε α) : Prop := ∀ s e, (x s).1 = .error e → (x s).2 = s

theorem readOnly_pure (a : α) : ReadOnly (pure a : Stateful σ ε α) := fun _ => rfl

theorem readOnly_read (f : σ → α) : ReadOnly (read f : Stateful σ ε α) := fun _ => rfl

theorem readOnly_raise (e : ε) : ReadOnly (raise e : Stateful σ ε α) := fun _ => rfl

theorem readOnly_lift (x : Except ε α) : ReadOnly (lift x : Stateful σ ε α) := fun _ => rfl

theorem ReadOnly.atomic {x : Stateful σ ε α} (hx : ReadOnly x) : Atomic x := fun s _ _ => hx s

/-- Nothing raises after a write whose continuation returns. -/
theorem atomic_write_bind (f : σ → σ) {g : Unit → Stateful σ ε β}
    (hg : ∀ s, ∃ b, (g () s).1 = .ok b) : Atomic (write f >>= g) := by
  intro s e h
  obtain ⟨b, hb⟩ := hg (f s)
  rw [bind_apply, write_apply, andThen_ok, hb] at h
  cases h

/-- Checks first: what follows a computation that writes nothing decides. -/
theorem ReadOnly.bind_atomic {x : Stateful σ ε α} {f : α → Stateful σ ε β} (hx : ReadOnly x)
    (hf : ∀ a, Atomic (f a)) : Atomic (x >>= f) := by
  intro s e h
  show (andThen f (x s)).2 = s
  have hs := hx s
  change (andThen f (x s)).1 = .error e at h
  cases hxs : x s with
  | mk result s' =>
    rw [hxs] at hs h
    obtain rfl : s' = s := hs
    cases result with
    | ok a => exact hf a s' e h
    | error e' => rfl

theorem ReadOnly.bind {x : Stateful σ ε α} {f : α → Stateful σ ε β} (hx : ReadOnly x)
    (hf : ∀ a, ReadOnly (f a)) : ReadOnly (x >>= f) := by
  intro s
  show (andThen f (x s)).2 = s
  have hs := hx s
  cases hxs : x s with
  | mk result s' =>
    rw [hxs] at hs
    obtain rfl : s' = s := hs
    cases result with
    | ok a => exact hf a s'
    | error e' => rfl

theorem Atomic.ite {c : Prop} [Decidable c] {x y : Stateful σ ε α} (hx : Atomic x)
    (hy : Atomic y) : Atomic (if c then x else y) := by
  split
  · exact hx
  · exact hy

theorem ReadOnly.ite {c : Prop} [Decidable c] {x y : Stateful σ ε α} (hx : ReadOnly x)
    (hy : ReadOnly y) : ReadOnly (if c then x else y) := by
  split
  · exact hx
  · exact hy

/-! ### What a computation raises -/

/-- The computation raises such exceptions only. -/
def RaisesOnly (P : ε → Prop) (x : Stateful σ ε α) : Prop := ∀ s e, (x s).1 = .error e → P e

section RaisesOnly

variable {P : ε → Prop}

theorem raisesOnly_pure (a : α) : RaisesOnly P (pure a : Stateful σ ε α) := nofun

theorem raisesOnly_read (f : σ → α) : RaisesOnly P (read f : Stateful σ ε α) := nofun

theorem raisesOnly_write (f : σ → σ) : RaisesOnly P (write f : Stateful σ ε Unit) := nofun

theorem raisesOnly_raise {e : ε} (h : P e) : RaisesOnly P (raise e : Stateful σ ε α) := by
  intro s e' he
  obtain rfl := Except.error.inj he
  exact h

theorem raisesOnly_lift {x : Except ε α} (h : ∀ e, x = .error e → P e) :
    RaisesOnly P (lift x : Stateful σ ε α) := fun _ e he => h e he

theorem RaisesOnly.bind {x : Stateful σ ε α} {f : α → Stateful σ ε β} (hx : RaisesOnly P x)
    (hf : ∀ a, RaisesOnly P (f a)) : RaisesOnly P (x >>= f) := by
  intro s e h
  change (andThen f (x s)).1 = .error e at h
  have hs := hx s
  cases hxs : x s with
  | mk answer t =>
    rw [hxs] at hs h
    cases answer with
    | ok a => exact hf a t e h
    | error e' => exact hs e (congrArg Except.error (Except.error.inj h))

theorem RaisesOnly.ite {c : Prop} [Decidable c] {x y : Stateful σ ε α} (hx : RaisesOnly P x)
    (hy : RaisesOnly P y) : RaisesOnly P (if c then x else y) := by
  split
  · exact hx
  · exact hy

theorem RaisesOnly.rollback {x : Stateful σ ε α} (hx : RaisesOnly P x) : RaisesOnly P (rollback x) := by
  intro s e h
  rcases rollback_cases x s with ⟨a, t, -, hr⟩ | ⟨e', he', hr⟩
  · rw [hr] at h
    cases h
  · rw [hr] at h
    obtain rfl := Except.error.inj h
    exact hx s e' he'

end RaisesOnly

/-- A first step that returns and writes nothing. -/
theorem bind_of_same {x : Stateful σ ε α} {f : α → Stateful σ ε β} {s : σ} {a : α}
    (h : x s = (.ok a, s)) : (x >>= f) s = f a s := by
  rw [bind_apply, h]
  rfl

end Stateful

end Agora
