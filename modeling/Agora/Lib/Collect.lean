import Agora.Lib.Except

namespace Agora

/-!
# Loops that collect results

`collect next out s l` runs over a list and collects what each element gives, in a state that the elements
before it have left.  The state does not depend on the results, so the loop returns exactly if every element
gives something in its state (`exists_collect_iff`).
-/

section Collect

variable {σ α β ε : Type} {next : σ → α → σ} {out : σ → α → Except ε (List β)}

/-- What the elements give, one after another. -/
def collect (next : σ → α → σ) (out : σ → α → Except ε (List β)) : σ → List α → Except ε (List β)
  | _, [] => .ok []
  | s, a :: l => do
    let new ← out s a
    let rest ← collect next out (next s a) l
    pure (new ++ rest)

theorem collect_cons_eq_ok {s : σ} {a : α} {l : List α} {bs : List β} :
    collect next out s (a :: l) = .ok bs
      ↔ ∃ new rest, out s a = .ok new ∧ collect next out (next s a) l = .ok rest ∧ bs = new ++ rest := by
  constructor
  · intro h
    obtain ⟨new, hnew, h⟩ := Except.bind_eq_ok.mp h
    obtain ⟨rest, hrest, h⟩ := Except.bind_eq_ok.mp h
    exact ⟨new, rest, hnew, hrest, (Except.ok.inj h).symm⟩
  · rintro ⟨new, rest, hnew, hrest, rfl⟩
    rw [collect, hnew, Except.ok_bind, hrest]
    rfl

/-- **Loops.**  The loop returns if every element gives something. -/
theorem exists_collect_iff {s : σ} {l : List α} :
    (∃ bs, collect next out s l = .ok bs)
      ↔ ∀ before a behind, l = before ++ a :: behind →
        ∃ new, out (before.foldl next s) a = .ok new := by
  induction l generalizing s with
  | nil =>
    refine ⟨fun _ before a behind heq => ?_, fun _ => ⟨[], rfl⟩⟩
    exact absurd heq.symm (List.append_ne_nil_of_right_ne_nil _ (List.cons_ne_nil a behind))
  | cons a l ih =>
    constructor
    · rintro ⟨bs, h⟩ before b behind heq
      obtain ⟨new, rest, hnew, hrest, -⟩ := collect_cons_eq_ok.mp h
      cases before with
      | nil =>
        obtain ⟨rfl, -⟩ := List.cons.inj heq
        exact ⟨new, hnew⟩
      | cons c before =>
        obtain ⟨rfl, htail⟩ := List.cons.inj heq
        exact ih.mp ⟨rest, hrest⟩ before b behind htail
    · intro h
      obtain ⟨new, hnew⟩ := h [] a l rfl
      obtain ⟨rest, hrest⟩ := ih.mpr fun before b behind heq =>
        h (a :: before) b behind (congrArg (a :: ·) heq)
      exact ⟨_, collect_cons_eq_ok.mpr ⟨new, rest, hnew, hrest, rfl⟩⟩

/-- The loop raises what its elements raise. -/
theorem raises_collect {P : ε → Prop} (h : ∀ s a, Except.Raises P (out s a)) (s : σ) (l : List α) :
    Except.Raises P (collect next out s l) := by
  induction l generalizing s with
  | nil => exact .ok []
  | cons a l ih => exact (h s a).bind fun new _ => (ih (next s a)).bind fun rest _ => .ok (new ++ rest)

/-- Where a result comes from. -/
theorem mem_collect {s : σ} {l : List α} {bs : List β} (h : collect next out s l = .ok bs) {b : β} :
    b ∈ bs ↔ ∃ before a behind new, l = before ++ a :: behind
      ∧ out (before.foldl next s) a = .ok new ∧ b ∈ new := by
  induction l generalizing s bs with
  | nil =>
    obtain rfl := Except.ok.inj h
    refine ⟨fun hb => absurd hb List.not_mem_nil, ?_⟩
    rintro ⟨before, a, behind, -, heq, -⟩
    exact absurd heq.symm (List.append_ne_nil_of_right_ne_nil _ (List.cons_ne_nil a behind))
  | cons a l ih =>
    obtain ⟨new, rest, hnew, hrest, rfl⟩ := collect_cons_eq_ok.mp h
    rw [List.mem_append, ih hrest]
    constructor
    · rintro (hb | ⟨before, c, behind, more, heq, hmore, hb⟩)
      · exact ⟨[], a, l, new, rfl, hnew, hb⟩
      · exact ⟨a :: before, c, behind, more, congrArg (a :: ·) heq, hmore, hb⟩
    · rintro ⟨before, c, behind, more, heq, hmore, hb⟩
      cases before with
      | nil =>
        obtain ⟨rfl, -⟩ := List.cons.inj heq
        obtain rfl := Except.ok.inj (hnew.symm.trans hmore)
        exact .inl hb
      | cons d before =>
        obtain ⟨rfl, htail⟩ := List.cons.inj heq
        exact .inr ⟨before, c, behind, more, htail, hmore, hb⟩

/-- What an element gives stands apart from what the elements before it have left behind. -/
theorem pairwise_collect {R : β → β → Prop} {P : σ → β → Prop}
    (hnew : ∀ s a new, out s a = .ok new → new.Pairwise R ∧ ∀ b ∈ new, P (next s a) b)
    (hkept : ∀ s a b, P s b → P (next s a) b)
    (hapart : ∀ s a new, out s a = .ok new → ∀ b, P s b → ∀ b' ∈ new, R b b') {s : σ} {l : List α}
    {bs : List β} (h : collect next out s l = .ok bs) :
    bs.Pairwise R ∧ ∀ b, P s b → ∀ b' ∈ bs, R b b' := by
  induction l generalizing s bs with
  | nil =>
    obtain rfl := Except.ok.inj h
    exact ⟨List.Pairwise.nil, fun _ _ => List.forall_mem_nil _⟩
  | cons a l ih =>
    obtain ⟨new, rest, hout, hrest, rfl⟩ := collect_cons_eq_ok.mp h
    obtain ⟨hpairwise, hleft⟩ := hnew s a new hout
    obtain ⟨hrestPairwise, hrestApart⟩ := ih hrest
    constructor
    · exact List.pairwise_append.mpr
        ⟨hpairwise, hrestPairwise, fun b hb => hrestApart b (hleft b hb)⟩
    · intro b hb
      rw [List.forall_mem_append]
      exact ⟨hapart s a new hout b hb, hrestApart b (hkept s a b hb)⟩

/-- Something is collected if some element gives something. -/
theorem collect_ne_nil_iff {shown : α → Prop} (hshown : ∀ s a new, out s a = .ok new → (new ≠ [] ↔ shown a))
    {s : σ} {l : List α} {bs : List β} (h : collect next out s l = .ok bs) :
    bs ≠ [] ↔ ∃ a ∈ l, shown a := by
  constructor
  · intro hne
    obtain ⟨b, hb⟩ := List.exists_mem_of_ne_nil _ hne
    obtain ⟨before, a, behind, new, rfl, hnew, hb⟩ := (mem_collect h).mp hb
    have ha := (hshown _ a new hnew).mp (List.ne_nil_of_mem hb)
    exact ⟨a, List.mem_append_right _ List.mem_cons_self, ha⟩
  · rintro ⟨a, ha, hgives⟩
    obtain ⟨before, behind, rfl⟩ := List.append_of_mem ha
    obtain ⟨new, hnew⟩ := exists_collect_iff.mp ⟨bs, h⟩ before a behind rfl
    obtain ⟨b, hb⟩ := List.exists_mem_of_ne_nil _ ((hshown _ a new hnew).mpr hgives)
    exact List.ne_nil_of_mem ((mem_collect h).mpr ⟨before, a, behind, new, rfl, hnew, hb⟩)

end Collect

/-- What a loop starts with and every step keeps, it ends with. -/
theorem of_foldlM {α β ε : Type} {P : β → Prop} {f : β → α → Except ε β}
    (h : ∀ b a b', P b → f b a = .ok b' → P b') {l : List α} {b b' : β} (hb : P b)
    (hfold : l.foldlM f b = .ok b') : P b' := by
  induction l generalizing b with
  | nil =>
    obtain rfl := Except.ok.inj hfold
    exact hb
  | cons a l ih =>
    rw [List.foldlM_cons] at hfold
    obtain ⟨c, hc, hfold⟩ := Except.bind_eq_ok.mp hfold
    exact ih (h b a c hb hc) hfold

/-! ### Loops without a state -/

section Gather

variable {α β ε : Type} {f : α → Except ε (List β)}

/-- What the elements give, where it does not matter what came before. -/
def gather (f : α → Except ε (List β)) : List α → Except ε (List β)
  | [] => .ok []
  | a :: l => do
    let new ← f a
    let rest ← gather f l
    pure (new ++ rest)

theorem gather_singleton (a : α) : gather f [a] = f a := by
  rw [gather, gather]
  cases f a with
  | error e => rfl
  | ok new => exact congrArg Except.ok (List.append_nil new)

theorem gather_append (l l' : List α) :
    gather f (l ++ l') = (do
      let new ← gather f l
      let rest ← gather f l'
      pure (new ++ rest)) := by
  induction l with
  | nil =>
    rw [List.nil_append, gather, Except.ok_bind]
    cases gather f l' <;> rfl
  | cons a l ih =>
    rw [List.cons_append, gather, ih, gather]
    cases f a with
    | error e => rfl
    | ok new =>
      cases gather f l with
      | error e => rfl
      | ok rest =>
        cases gather f l' with
        | error e => rfl
        | ok rest' => exact congrArg Except.ok (List.append_assoc new rest rest').symm

theorem gather_map {γ : Type} (g : γ → α) (l : List γ) :
    gather f (l.map g) = gather (fun c => f (g c)) l := by
  induction l with
  | nil => rfl
  | cons c l ih => rw [List.map_cons, gather, ih, gather]

theorem gather_flatMap {γ : Type} (g : γ → List α) (l : List γ) :
    gather f (l.flatMap g) = gather (fun c => gather f (g c)) l := by
  induction l with
  | nil => rfl
  | cons c l ih => rw [List.flatMap_cons, gather_append, ih, gather]

/-- The first element that raises is what the loop raises. -/
theorem gather_eq_error_iff {l : List α} {e : ε} :
    gather f l = .error e ↔ ∃ before a behind, l = before ++ a :: behind
      ∧ (∀ b ∈ before, ∃ new, f b = .ok new) ∧ f a = .error e := by
  induction l with
  | nil =>
    refine ⟨nofun, ?_⟩
    rintro ⟨before, a, behind, heq, -⟩
    exact absurd heq.symm (List.append_ne_nil_of_right_ne_nil _ (List.cons_ne_nil a behind))
  | cons a l ih =>
    rw [gather]
    constructor
    · intro h
      rcases Except.bind_eq_error.mp h with ha | ⟨new, hnew, h⟩
      · exact ⟨[], a, l, rfl, nofun, ha⟩
      · rcases Except.bind_eq_error.mp h with hl | ⟨rest, hrest, h⟩
        · obtain ⟨before, b, behind, rfl, hbefore, hb⟩ := ih.mp hl
          exact ⟨a :: before, b, behind, rfl, List.forall_mem_cons.mpr ⟨⟨new, hnew⟩, hbefore⟩, hb⟩
        · cases h
    · rintro ⟨before, b, behind, heq, hbefore, hb⟩
      cases before with
      | nil =>
        obtain ⟨rfl, rfl⟩ := List.cons.inj heq
        rw [hb]
        rfl
      | cons c before =>
        obtain ⟨rfl, rfl⟩ := List.cons.inj heq
        obtain ⟨⟨new, hnew⟩, hrest⟩ := List.forall_mem_cons.mp hbefore
        rw [hnew, Except.ok_bind, ih.mpr ⟨before, b, behind, rfl, hrest, hb⟩]
        rfl

/-- The loop returns if every element gives something. -/
theorem exists_gather_iff {l : List α} :
    (∃ bs, gather f l = .ok bs) ↔ ∀ a ∈ l, ∃ new, f a = .ok new := by
  induction l with
  | nil => exact ⟨nofun, fun _ => ⟨[], rfl⟩⟩
  | cons a l ih =>
    rw [List.forall_mem_cons, ← ih, gather]
    constructor
    · rintro ⟨bs, h⟩
      obtain ⟨new, hnew, h⟩ := Except.bind_eq_ok.mp h
      obtain ⟨rest, hrest, -⟩ := Except.bind_eq_ok.mp h
      exact ⟨⟨new, hnew⟩, rest, hrest⟩
    · rintro ⟨⟨new, hnew⟩, rest, hrest⟩
      exact ⟨new ++ rest, by rw [hnew, Except.ok_bind, hrest]; rfl⟩

/-- What the elements give, together. -/
theorem gather_eq_ok_iff {l : List α} {bs : List β} :
    gather f l = .ok bs
      ↔ ∃ parts, List.Forall₂ (fun a new => f a = .ok new) l parts ∧ bs = parts.flatten := by
  induction l generalizing bs with
  | nil =>
    rw [gather]
    constructor
    · intro h
      exact ⟨[], List.Forall₂.nil, (Except.ok.inj h).symm⟩
    · rintro ⟨parts, hparts, rfl⟩
      cases hparts
      rfl
  | cons a l ih =>
    rw [gather]
    constructor
    · intro h
      obtain ⟨new, hnew, h⟩ := Except.bind_eq_ok.mp h
      obtain ⟨rest, hrest, h⟩ := Except.bind_eq_ok.mp h
      cases h
      obtain ⟨parts, hparts, rfl⟩ := ih.mp hrest
      exact ⟨new :: parts, List.Forall₂.cons hnew hparts, rfl⟩
    · rintro ⟨parts, hparts, rfl⟩
      cases hparts with
      | cons hnew hrest =>
        rw [hnew, Except.ok_bind, ih.mpr ⟨_, hrest, rfl⟩]
        rfl

end Gather

end Agora
