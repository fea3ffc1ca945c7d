import Agora.Lib.Codec
import Agora.Lib.JsonLeaves

namespace Agora

/-!
# Leaves of loaded values

Loading may fill in defaults and read other spellings, so dumping again need not give the JSON value
that was loaded.  `Codec.Keeps` says that the leaves of the dump still pass a test when those of the
loaded value do, and is put together field by field.
-/

variable {α β : Type} {p : PyStr → Bool} {q : ℤ → Bool}

namespace Codec

variable {c : Codec α}

/-- When the leaves of a loaded value pass the test, so do those of the dump. -/
def Keeps (c : Codec α) (p : PyStr → Bool) (q : ℤ → Bool) : Prop :=
  ∀ j a, c.load j = some a → j.allLeaves p q = true → (c.dump a).allLeaves p q = true

namespace Keeps

theorem validated (hc : c.Keeps p q) {P : α → Prop} [DecidablePred P] {mk : ∀ a, P a → β}
    {repr : β → α} {holds : ∀ b, P (repr b)} {mk_repr : ∀ b, mk (repr b) (holds b) = b}
    {repr_mk : ∀ a h, repr (mk a h) = a} :
    (c.validated P mk repr holds mk_repr repr_mk).Keeps p q := by
  intro j b hload hleaves
  obtain ⟨a, ha, hb⟩ := Option.bind_eq_some_iff.mp hload
  show (c.dump (repr b)).allLeaves p q = true
  split at hb
  case isTrue hvalid =>
    cases hb
    rw [repr_mk]
    exact hc j a ha hleaves
  case isFalse => cases hb

end Keeps

end Codec

namespace Fields

variable {ks ls : List PyStr} {key : String}

/-- When the leaves of the entries pass the test, so do those of the dump and of what is left. -/
def Keeps (f : Fields ks α) (p : PyStr → Bool) (q : ℤ → Bool) : Prop :=
  ∀ es a rest, f.load es = some (a, rest) → Json.allLeavesEntries p q es = true →
    Json.allLeavesEntries p q (f.dump a) = true ∧ Json.allLeavesEntries p q rest = true

namespace Keeps

theorem one {c : Codec α} (hc : c.Keeps p q) : (Fields.one key c).Keeps p q := by
  intro es a rest hload hleaves
  match es, hload with
  | (k, j) :: es, hload =>
    simp only [Fields.one] at hload
    split at hload
    case isTrue hkey =>
      obtain ⟨b, hb, heq⟩ := Option.map_eq_some_iff.mp hload
      cases heq
      simp only [Json.allLeavesEntries, Bool.and_eq_true] at hleaves
      obtain ⟨⟨hk, hj⟩, hrest⟩ := hleaves
      refine ⟨?_, hrest⟩
      rw [dump_one, Json.allLeavesEntries, ← hkey, hk, hc j a hb hj]
      rfl
    case isFalse => cases hload

theorem oneDefault {c : Codec α} {default : α} (hc : c.Keeps p q)
    (hkey : p (PyStr.ofString key) = true) (hdefault : (c.dump default).allLeaves p q = true) :
    (Fields.oneDefault key c default).Keeps p q := by
  have hfilled : Json.allLeavesEntries p q [(PyStr.ofString key, c.dump default)] = true := by
    rw [Json.allLeavesEntries, hkey, hdefault]
    rfl
  intro es a rest hload hleaves
  match es, hload with
  | [], hload =>
    cases hload
    exact ⟨hfilled, rfl⟩
  | (k, j) :: es, hload =>
    simp only [Fields.oneDefault] at hload
    split at hload
    case isTrue hkeys =>
      obtain ⟨b, hb, heq⟩ := Option.map_eq_some_iff.mp hload
      cases heq
      simp only [Json.allLeavesEntries, Bool.and_eq_true] at hleaves
      refine ⟨?_, hleaves.2⟩
      rw [dump_oneDefault, Json.allLeavesEntries, hkey, hc j a hb hleaves.1.2]
      rfl
    case isFalse =>
      cases hload
      exact ⟨hfilled, hleaves⟩

theorem append {f : Fields ks α} {g : Fields ls β} (hf : f.Keeps p q) (hg : g.Keeps p q) :
    (f.append g).Keeps p q := by
  intro es ab rest hload hleaves
  obtain ⟨⟨a, mid⟩, ha, hload⟩ := Option.bind_eq_some_iff.mp hload
  obtain ⟨⟨b, rest'⟩, hb, hload⟩ := Option.bind_eq_some_iff.mp hload
  cases hload
  obtain ⟨hdump, hmid⟩ := hf es a mid ha hleaves
  obtain ⟨hdump', hrest⟩ := hg mid b rest hb hmid
  refine ⟨?_, hrest⟩
  rw [dump_append, Json.allLeavesEntries_append, hdump, hdump']
  rfl

theorem iso {f : Fields ks α} (hf : f.Keeps p q) {fwd : α → β} {inv : β → α}
    {inv_fwd : ∀ a, inv (fwd a) = a} {fwd_inv : ∀ b, fwd (inv b) = b} :
    (f.iso fwd inv inv_fwd fwd_inv).Keeps p q := by
  intro es b rest hload hleaves
  obtain ⟨⟨a, rest'⟩, ha, heq⟩ := Option.map_eq_some_iff.mp hload
  cases heq
  show Json.allLeavesEntries p q (f.dump (inv (fwd a))) = true ∧ _
  rw [inv_fwd]
  exact hf es a rest ha hleaves

/-- One more required field. -/
theorem field {f : Fields ks α} {c : Codec β} (hf : f.Keeps p q) (hc : c.Keeps p q) :
    (f.field key c).Keeps p q :=
  hf.append (one hc)

/-- One more constant field. -/
theorem constant {f : Fields ks α} {c : Codec Unit} (hf : f.Keeps p q) (hc : c.Keeps p q)
    (hkey : p (PyStr.ofString key) = true) (hdump : (c.dump ()).allLeaves p q = true) :
    (f.constant key c).Keeps p q :=
  (hf.append (oneDefault hc hkey hdump)).iso

end Keeps

end Fields

/-- A record keeps what its fields keep. -/
theorem Codec.Keeps.record {keys : List PyStr} {f : Fields keys α} {ordered : Codec.Ordered keys}
    (hf : f.Keeps p q) : (Codec.record f ordered).Keeps p q := by
  intro j a hload hleaves
  match j, hload with
  | .obj es, hload =>
    simp only [Codec.record] at hload
    split at hload
    case h_1 b hb =>
      cases hload
      exact (hf es _ [] hb hleaves).1
    case h_2 => cases hload

end Agora
