import Agora.Lib.CanonicalJson

namespace Agora

/-!
# Typed values in JSON

A `Codec α` dumps values of `α` to JSON and loads them back, with validation.  Loading may be
lenient: a defaulted key may be left out and a value may have several spellings.  `explicit`
picks out the spellings that dumping produces, and the laws of a codec say that loading
inverts dumping and that an explicit JSON value is the dump of what it loads to.

Objects are loaded from entries in key order, the order in which canonical text presents them.
So the fields of a record (`Fields`) are listed in key order, and each consumes its entry from
the front.
-/

/-- Dumping and loading the values of a type. -/
structure Codec (α : Type) where
  dump : α → Json
  load : Json → Option α
  explicit : Json → Bool
  normal_dump : ∀ a, (dump a).Normal = true
  load_dump : ∀ a, load (dump a) = some a
  explicit_iff : ∀ {j a}, load j = some a → (explicit j = true ↔ j = dump a)

namespace Codec

variable {α β : Type}

theorem dump_injective (c : Codec α) : Function.Injective c.dump := by
  intro a b h
  have hload := c.load_dump a
  rw [h, c.load_dump] at hload
  exact (Option.some.inj hload).symm

/-! ### Scalars -/

def bool : Codec Bool where
  dump := .bool
  load
    | .bool b => some b
    | _ => none
  explicit _ := true
  normal_dump _ := rfl
  load_dump _ := rfl
  explicit_iff {j a} h := by
    cases j <;> simp_all

def int : Codec ℤ where
  dump := .int
  load
    | .int n => some n
    | _ => none
  explicit _ := true
  normal_dump _ := rfl
  load_dump _ := rfl
  explicit_iff {j a} h := by
    cases j <;> simp_all

/-- A codec for a type that another type validates and represents. -/
def refine (c : Codec α) (check : α → Option β) (repr : β → α)
    (check_repr : ∀ b, check (repr b) = some b)
    (repr_check : ∀ {a b}, check a = some b → repr b = a) : Codec β where
  dump b := c.dump (repr b)
  load j := (c.load j).bind check
  explicit := c.explicit
  normal_dump b := c.normal_dump (repr b)
  load_dump b := by rw [c.load_dump, Option.bind_some, check_repr]
  explicit_iff {j b} h := by
    obtain ⟨a, ha, hb⟩ := Option.bind_eq_some_iff.mp h
    rw [repr_check hb]
    exact c.explicit_iff ha

/-- A codec for the values that satisfy a decidable validator. -/
def validated (c : Codec α) (P : α → Prop) [DecidablePred P] (mk : ∀ a, P a → β) (repr : β → α)
    (holds : ∀ b, P (repr b)) (mk_repr : ∀ b, mk (repr b) (holds b) = b)
    (repr_mk : ∀ a h, repr (mk a h) = a) : Codec β :=
  c.refine (fun a => if h : P a then some (mk a h) else none) repr
    (fun b => by rw [dif_pos (holds b), mk_repr])
    (fun {a b} h => by
      split at h
      · rw [← Option.some.inj h, repr_mk]
      · cases h)

/-- Natural numbers. -/
def nat : Codec ℕ :=
  int.refine (fun n => if 0 ≤ n then some n.toNat else none) (fun n => (n : ℤ))
    (fun n => by simp)
    (fun {a b} h => by
      split at h
      · rw [← Option.some.inj h]
        exact Int.toNat_of_nonneg (by assumption)
      · cases h)

/-- Strings without surrogates. -/
def string : Codec String where
  dump := Json.text
  load
    | .str s => (PyStr.chars? s).map String.ofList
    | _ => none
  explicit _ := true
  normal_dump _ := rfl
  load_dump s := by
    simp [Json.text, PyStr.ofString]
  explicit_iff {j a} h := by
    cases j with
    | str s =>
      obtain ⟨cs, hcs, rfl⟩ := Option.map_eq_some_iff.mp h
      simp [Json.text, PyStr.ofString, PyStr.eq_ofChars_of_chars? hcs]
    | _ => cases h

/-- A string literal. -/
def literalText (s : String) : Codec Unit :=
  string.refine (fun t => if t = s then some () else none) (fun _ => s) (by simp)
    (fun {a b} h => by
      split at h
      · exact Eq.symm (by assumption)
      · cases h)

/-- An integer literal. -/
def literalInt (n : ℤ) : Codec Unit :=
  int.refine (fun m => if m = n then some () else none) (fun _ => n) (by simp)
    (fun {a b} h => by
      split at h
      · exact Eq.symm (by assumption)
      · cases h)

/-- An enumeration by the text of its members. -/
def enum (all : List α) (value : α → String)
    (find_value : ∀ a, all.find? (fun b => value b = value a) = some a) : Codec α :=
  string.refine (fun s => all.find? fun b => value b = s) value find_value
    (fun h => by simpa using List.find?_some h)

/-! ### Optional values and lists -/

/-- `null` or a value whose dump is never `null`. -/
def option (c : Codec α) (dump_ne : ∀ a, c.dump a ≠ .null) : Codec (Option α) where
  dump
    | none => .null
    | some a => c.dump a
  load
    | .null => some none
    | j => (c.load j).map some
  explicit
    | .null => true
    | j => c.explicit j
  normal_dump
    | none => rfl
    | some a => c.normal_dump a
  load_dump
    | none => rfl
    | some a => by
      have hload := c.load_dump a
      have hne := dump_ne a
      split
      · contradiction
      · rw [hload, Option.map_some]
  explicit_iff {j a} h := by
    cases j with
    | null =>
      cases h
      simp
    | _ =>
      obtain ⟨b, hb, rfl⟩ := Option.map_eq_some_iff.mp h
      exact c.explicit_iff hb

def loadItems (c : Codec α) : List Json → Option (List α)
  | [] => some []
  | j :: items => do
    let a ← c.load j
    let rest ← c.loadItems items
    some (a :: rest)

theorem loadItems_dump (c : Codec α) (l : List α) : c.loadItems (l.map c.dump) = some l := by
  induction l with
  | nil => rfl
  | cons a l ih => simp [loadItems, c.load_dump, ih]

theorem explicit_items_iff (c : Codec α) {items : List Json} {l : List α}
    (h : c.loadItems items = some l) :
    items.all c.explicit = true ↔ items = l.map c.dump := by
  induction items generalizing l with
  | nil =>
    cases h
    simp
  | cons j items ih =>
    obtain ⟨a, ha, h⟩ := Option.bind_eq_some_iff.mp h
    obtain ⟨rest, hrest, h⟩ := Option.bind_eq_some_iff.mp h
    cases h
    rw [List.all_cons, Bool.and_eq_true, c.explicit_iff ha, ih hrest, List.map_cons,
      List.cons.injEq]

theorem allItems_map_dump (c : Codec α) (l : List α) (p : List PyStr → Bool)
    (h : ∀ a, (c.dump a).allObjects p = true) : Json.allItems p (l.map c.dump) = true := by
  induction l with
  | nil => rfl
  | cons a l ih => rw [List.map_cons, Json.allItems, h a, ih, Bool.true_and]

/-- Arrays. -/
def list (c : Codec α) : Codec (List α) where
  dump l := .arr (l.map c.dump)
  load
    | .arr items => c.loadItems items
    | _ => none
  explicit
    | .arr items => items.all c.explicit
    | _ => false
  normal_dump l := c.allItems_map_dump l _ c.normal_dump
  load_dump l := c.loadItems_dump l
  explicit_iff {j l} h := by
    cases j with
    | arr items =>
      rw [Json.arr.injEq]
      exact c.explicit_items_iff h
    | _ => cases h

/-! ### Any JSON value -/

/-- A JSON value is carried as it is when it is normal and passes a test. -/
def json (p : Json → Bool) : Codec { j : Json // j.Normal = true ∧ p j = true } where
  dump j := j.val
  load j := if h : j.Normal = true ∧ p j = true then some ⟨j, h⟩ else none
  explicit _ := true
  normal_dump j := j.property.1
  load_dump j := by simp [j.property]
  explicit_iff {j a} h := by
    split at h
    · cases h
      simp
    · cases h

end Codec

/-! ### Records -/

/-- The entries of an object in key order: some of its fields. -/
abbrev Entries := List (PyStr × Json)

/-- A run of fields of a record, by their keys.  Loading consumes their entries from the
    front. -/
structure Fields (keys : List PyStr) (α : Type) where
  dump : α → Entries
  load : Entries → Option (α × Entries)
  explicit : Entries → Bool
  keys_dump : ∀ a, (dump a).map Prod.fst = keys
  normal_dump : ∀ a, ∀ e ∈ dump a, e.2.Normal = true
  load_dump : ∀ a rest, load (dump a ++ rest) = some (a, rest)
  explicit_iff : ∀ {es a rest}, load es = some (a, rest) → (explicit es = true ↔ es = dump a ++ rest)

namespace Fields

variable {α β : Type} {ks ls : List PyStr}

/-- A required field. -/
def one (key : String) (c : Codec α) : Fields [PyStr.ofString key] α where
  dump a := [(PyStr.ofString key, c.dump a)]
  load
    | [] => none
    | (k, j) :: rest => if k = PyStr.ofString key then (c.load j).map (·, rest) else none
  explicit
    | [] => false
    | (_, j) :: _ => c.explicit j
  keys_dump _ := rfl
  normal_dump a := by simp [c.normal_dump]
  load_dump a rest := by simp [c.load_dump]
  explicit_iff {es a rest} h := by
    cases es with
    | nil => cases h
    | cons e es =>
      obtain ⟨k, j⟩ := e
      simp only at h ⊢
      split at h
      · obtain ⟨b, hb, heq⟩ := Option.map_eq_some_iff.mp h
        obtain ⟨rfl, rfl⟩ := Prod.mk.inj heq
        subst k
        rw [c.explicit_iff hb]
        simp
      · cases h

/-- A field with a default. -/
def oneDefault (key : String) (c : Codec α) (default : α) :
    Fields [PyStr.ofString key] α where
  dump a := [(PyStr.ofString key, c.dump a)]
  load
    | [] => some (default, [])
    | (k, j) :: rest =>
      if k = PyStr.ofString key then (c.load j).map (·, rest) else some (default, (k, j) :: rest)
  explicit
    | [] => false
    | (k, j) :: _ => k = PyStr.ofString key && c.explicit j
  keys_dump _ := rfl
  normal_dump a := by simp [c.normal_dump]
  load_dump a rest := by simp [c.load_dump]
  explicit_iff {es a rest} h := by
    cases es with
    | nil =>
      cases h
      simp
    | cons e es =>
      obtain ⟨k, j⟩ := e
      simp only at h ⊢
      split at h
      case isTrue hk =>
        obtain ⟨b, hb, heq⟩ := Option.map_eq_some_iff.mp h
        obtain ⟨rfl, rfl⟩ := Prod.mk.inj heq
        subst k
        simp [c.explicit_iff hb]
      case isFalse hk =>
        cases h
        simp [hk]

/-- Two runs of fields. -/
def append (f : Fields ks α) (g : Fields ls β) : Fields (ks ++ ls) (α × β) where
  dump ab := f.dump ab.1 ++ g.dump ab.2
  load es := do
    let (a, rest) ← f.load es
    let (b, rest) ← g.load rest
    some ((a, b), rest)
  explicit es :=
    f.explicit es && match f.load es with
      | some (_, rest) => g.explicit rest
      | none => false
  keys_dump ab := by rw [List.map_append, f.keys_dump, g.keys_dump]
  normal_dump ab := by
    simp only [List.forall_mem_append]
    exact ⟨f.normal_dump ab.1, g.normal_dump ab.2⟩
  load_dump ab rest := by
    rw [List.append_assoc]
    simp [f.load_dump, g.load_dump]
  explicit_iff {es ab rest} h := by
    obtain ⟨⟨a, mid⟩, ha, h⟩ := Option.bind_eq_some_iff.mp h
    obtain ⟨⟨b, rest'⟩, hb, h⟩ := Option.bind_eq_some_iff.mp h
    cases h
    simp only [ha, Bool.and_eq_true, f.explicit_iff ha, g.explicit_iff hb, List.append_assoc]
    constructor
    · rintro ⟨rfl, rfl⟩
      rfl
    · rintro rfl
      -- What `f` leaves over is what follows its own dump.
      rw [f.load_dump] at ha
      exact ⟨by rw [(Prod.mk.inj (Option.some.inj ha)).2], (Prod.mk.inj (Option.some.inj ha)).2.symm⟩

/-- The same fields for another representation of their values. -/
def iso (f : Fields ks α) (fwd : α → β) (inv : β → α) (inv_fwd : ∀ a, inv (fwd a) = a)
    (fwd_inv : ∀ b, fwd (inv b) = b) : Fields ks β where
  dump b := f.dump (inv b)
  load es := (f.load es).map fun (a, rest) => (fwd a, rest)
  explicit := f.explicit
  keys_dump b := f.keys_dump (inv b)
  normal_dump b := f.normal_dump (inv b)
  load_dump b rest := by simp [f.load_dump, fwd_inv]
  explicit_iff {es b rest} h := by
    obtain ⟨⟨a, rest'⟩, ha, heq⟩ := Option.map_eq_some_iff.mp h
    obtain ⟨rfl, rfl⟩ := Prod.mk.inj heq
    rw [f.explicit_iff ha, inv_fwd]

/-- No fields. -/
def nil : Fields [] Unit where
  dump _ := []
  load es := some ((), es)
  explicit _ := true
  keys_dump _ := rfl
  normal_dump _ := by simp
  load_dump _ _ := rfl
  explicit_iff h := by
    cases h
    simp

/-- One more required field. -/
def field (f : Fields ks α) (key : String) (c : Codec β) :
    Fields (ks ++ [PyStr.ofString key]) (α × β) :=
  f.append (one key c)

/-- One more field with a default. -/
def defaulted (f : Fields ks α) (key : String) (c : Codec β) (default : β) :
    Fields (ks ++ [PyStr.ofString key]) (α × β) :=
  f.append (oneDefault key c default)

/-- One more field with a constant value, which may be left out. -/
def constant (f : Fields ks α) (key : String) (c : Codec Unit) :
    Fields (ks ++ [PyStr.ofString key]) α :=
  (f.defaulted key c ()).iso Prod.fst (fun a => (a, ())) (fun _ => rfl) (fun _ => rfl)

@[simp] theorem dump_one (key : String) (c : Codec α) (a : α) :
    (one key c).dump a = [(PyStr.ofString key, c.dump a)] := rfl

@[simp] theorem dump_oneDefault (key : String) (c : Codec α) (default a : α) :
    (oneDefault key c default).dump a = [(PyStr.ofString key, c.dump a)] := rfl

@[simp] theorem dump_nil (u : Unit) : nil.dump u = [] := rfl

@[simp] theorem dump_append (f : Fields ks α) (g : Fields ls β) (ab : α × β) :
    (f.append g).dump ab = f.dump ab.1 ++ g.dump ab.2 := rfl

@[simp] theorem dump_field (f : Fields ks α) (key : String) (c : Codec β) (ab : α × β) :
    (f.field key c).dump ab = f.dump ab.1 ++ [(PyStr.ofString key, c.dump ab.2)] := rfl

@[simp] theorem dump_constant (f : Fields ks α) (key : String) (c : Codec Unit) (a : α) :
    (f.constant key c).dump a = f.dump a ++ [(PyStr.ofString key, c.dump ())] := rfl

end Fields

namespace Codec

variable {α : Type}

/-- The keys of a record are listed in order, each once. -/
def Ordered (keys : List PyStr) : Prop := keys.Nodup ∧ keys.Pairwise fun a b => keyLe a b = true

instance (keys : List PyStr) : Decidable (Ordered keys) :=
  inferInstanceAs (Decidable (_ ∧ _))

/-- An object with exactly these fields. -/
def record {keys : List PyStr} (f : Fields keys α) (ordered : Ordered keys) : Codec α where
  dump a := .obj (f.dump a)
  load
    | .obj es =>
      match f.load es with
      | some (a, []) => some a
      | _ => none
    | _ => none
  explicit
    | .obj es => f.explicit es
    | _ => false
  normal_dump a := by
    rw [Json.Normal, Json.allObjects, f.keys_dump, Bool.and_eq_true, Bool.and_eq_true]
    exact ⟨⟨decide_eq_true ordered.1, decide_eq_true ordered.2⟩,
      Json.allEntries_iff.mpr (f.normal_dump a)⟩
  load_dump a := by
    have hload := f.load_dump a []
    rw [List.append_nil] at hload
    simp only [hload]
  explicit_iff {j a} h := by
    cases j with
    | obj es =>
      simp only at h ⊢
      split at h
      case h_1 b hb =>
        cases h
        rw [f.explicit_iff hb, List.append_nil, Json.obj.injEq]
      case h_2 => cases h
    | _ => cases h

end Codec

end Agora
