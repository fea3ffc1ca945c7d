import Agora.Lib.Ranking
import Agora.Retrieval.Records
import Mathlib.Data.Prod.Lex
import Mathlib.Algebra.Field.Rat
import Mathlib.Tactic.Positivity
import Mathlib.Tactic.GCongr

namespace Agora.Retrieval

open Ledger (NonBlank)

/-!
# Reciprocal rank fusion

`reciprocalRankFusion` adds `1 / (60 + rank)` for every place that an id has in the two arms and
ranks the ids by what they have collected, ties by their text.  What an arm gives to an id is
`contribution`, so that the fused score is a sum of two (`fusedScores_fuseArm`) and the laws of the
fusion follow from laws of `contribution` and of rankings by a key.
-/

/-! ### The fusion -/

def rrfK0 : ℕ := 60

/-- `1.0 / (_RRF_K0 + rank)`. -/
def reciprocal (rank : ℕ) : ℚ≥0 := 1 / ((rrfK0 + rank : ℕ) : ℚ≥0)

/-- The dictionaries that both arms write to. -/
structure Fusing where
  candidates : List HybridCandidate
  fusedScores : UUID → ℚ≥0

/-- `candidates.setdefault(key, candidate)`. -/
def setDefault (candidates : List HybridCandidate) (candidate : HybridCandidate) :
    List HybridCandidate :=
  if candidate.chunkId ∈ candidates.map (·.chunkId) then candidates else candidates ++ [candidate]

/-- What the loop does for one candidate of an arm. -/
def Fusing.add (s : Fusing) (candidate : HybridCandidate) (rank : ℕ) : Fusing where
  candidates := setDefault s.candidates candidate
  fusedScores := Function.update s.fusedScores candidate.chunkId
    (s.fusedScores candidate.chunkId + reciprocal rank)

/-- The loop over an arm, from a rank on. -/
def fuseArm (s : Fusing) : ℕ → List HybridCandidate → Fusing
  | _, [] => s
  | rank, candidate :: arm => fuseArm (s.add candidate rank) (rank + 1) arm

/-- The scores that an arm reports, the last one of an id. -/
def armScores (arm : List HybridCandidate) : UUID → Option ℚ :=
  arm.foldl (fun scores candidate =>
    Function.update scores candidate.chunkId (some candidate.score)) fun _ => none

/-- Both loops. -/
def fuse (lexical vector : List HybridCandidate) : Fusing :=
  fuseArm (fuseArm ⟨[], fun _ => 0⟩ 1 lexical) 1 vector

/-- `(-fused_scores[key], str(key))`. -/
def sortKey (fusedScores : UUID → ℚ≥0) (key : UUID) : ℚ≥0ᵒᵈ ×ₗ UUID :=
  toLex (OrderDual.toDual (fusedScores key), key)

/-- `ordered_ids`. -/
def orderedIds (s : Fusing) : List UUID :=
  ranked (sortKey s.fusedScores) (s.candidates.map (·.chunkId))

def reciprocalRankFusion (lexical vector : List HybridCandidate) (indexVersion : NonBlank) :
    List RetrievedChunk :=
  let s := fuse lexical vector
  (orderedIds s).filterMap fun key => (s.candidates.find? (·.chunkId = key)).map fun candidate =>
    { candidate with
      score := s.fusedScores key
      lexicalScore := armScores lexical key
      vectorScore := armScores vector key
      fusedScore := s.fusedScores key
      rerankScore := none
      indexVersion }

/-! ### What a reranker may return -/

/-- `_validate_reranker_output`.  Every id has an original once the first check has passed. -/
def validateRerankerOutput (reranked candidates : List RetrievedChunk) (k : ℕ) :
    Except PortError Unit :=
  let expected := candidates.map (·.chunkId)
  let actual := reranked.map (·.chunkId)
  if actual.length ≠ min k candidates.length ∨ actual.length ≠ actual.dedup.length
      ∨ ¬ ∀ key ∈ actual, key ∈ expected then
    .error ⟨.permanent, "reranker returned invalid candidates", "reranker"⟩
  else reranked.forM fun candidate =>
    match dictGet (·.chunkId) candidates candidate.chunkId with
    | none => .ok ()
    | some original =>
      if candidate.SameDump original then .ok ()
      else .error ⟨.permanent, "reranker changed immutable candidate provenance", "reranker"⟩

/-! ### What the ids are -/

section Ids

variable {s : Fusing} {arm lexical vector : List HybridCandidate}

theorem map_setDefault (candidates : List HybridCandidate) (candidate : HybridCandidate) :
    (setDefault candidates candidate).map (·.chunkId)
      = if candidate.chunkId ∈ candidates.map (·.chunkId) then candidates.map (·.chunkId)
        else candidates.map (·.chunkId) ++ [candidate.chunkId] := by
  unfold setDefault
  split <;> simp

theorem nodup_fuseArm (h : (s.candidates.map (·.chunkId)).Nodup) (rank : ℕ) :
    ((fuseArm s rank arm).candidates.map (·.chunkId)).Nodup := by
  induction arm generalizing s rank with
  | nil => exact h
  | cons candidate arm ih =>
    apply ih
    show ((setDefault s.candidates candidate).map (·.chunkId)).Nodup
    rw [map_setDefault]
    split
    · exact h
    · rename_i hnew
      exact h.append (List.nodup_singleton _) (by simpa using hnew)

theorem mem_fuseArm {rank : ℕ} {key : UUID} :
    key ∈ (fuseArm s rank arm).candidates.map (·.chunkId)
      ↔ key ∈ s.candidates.map (·.chunkId) ∨ key ∈ arm.map (·.chunkId) := by
  induction arm generalizing s rank with
  | nil => simp [fuseArm]
  | cons candidate arm ih =>
    rw [fuseArm, ih]
    show key ∈ (setDefault s.candidates candidate).map (·.chunkId) ∨ _ ↔ _
    have hset : key ∈ (setDefault s.candidates candidate).map (·.chunkId)
        ↔ key ∈ s.candidates.map (·.chunkId) ∨ key = candidate.chunkId := by
      rw [map_setDefault]
      split
      · rename_i hold
        constructor
        · exact .inl
        · rintro (h | rfl)
          · exact h
          · exact hold
      · rw [List.mem_append, List.mem_singleton]
    rw [hset, List.map_cons, List.mem_cons, or_assoc]

theorem nodup_fuse (lexical vector : List HybridCandidate) :
    ((fuse lexical vector).candidates.map (·.chunkId)).Nodup :=
  by
  apply nodup_fuseArm
  apply nodup_fuseArm
  exact List.nodup_nil

theorem mem_fuse {key : UUID} : key ∈ (fuse lexical vector).candidates.map (·.chunkId)
    ↔ key ∈ lexical.map (·.chunkId) ∨ key ∈ vector.map (·.chunkId) := by
  rw [fuse, mem_fuseArm, mem_fuseArm]
  simp

end Ids

/-! ### What an arm gives -/

section Contribution

/-- What an arm adds to the score of an id. -/
def contribution : ℕ → List UUID → UUID → ℚ≥0
  | _, [], _ => 0
  | rank, k :: arm, key =>
    (if k = key then reciprocal rank else 0) + contribution (rank + 1) arm key

theorem fusedScores_fuseArm (s : Fusing) (rank : ℕ) (arm : List HybridCandidate) (key : UUID) :
    (fuseArm s rank arm).fusedScores key
      = s.fusedScores key + contribution rank (arm.map (·.chunkId)) key := by
  induction arm generalizing s rank with
  | nil => simp [fuseArm, contribution]
  | cons candidate arm ih =>
    rw [fuseArm, ih, List.map_cons, contribution, ← add_assoc]
    congr 1
    by_cases hkey : candidate.chunkId = key
    · subst hkey
      simp [Fusing.add]
    · rw [if_neg hkey, add_zero]
      exact Function.update_of_ne (Ne.symm hkey) _ _

/-- The fused score of an id. -/
theorem fusedScores_fuse (lexical vector : List HybridCandidate) (key : UUID) :
    (fuse lexical vector).fusedScores key
      = contribution 1 (lexical.map (·.chunkId)) key
        + contribution 1 (vector.map (·.chunkId)) key := by
  rw [fuse, fusedScores_fuseArm, fusedScores_fuseArm, zero_add]

theorem contribution_of_notMem {rank : ℕ} {arm : List UUID} {key : UUID} (h : key ∉ arm) :
    contribution rank arm key = 0 := by
  induction arm generalizing rank with
  | nil => rfl
  | cons k arm ih =>
    rw [List.mem_cons, not_or] at h
    rw [contribution, if_neg (Ne.symm h.1), ih h.2, add_zero]

/-- An id that is there once gives the reciprocal of its rank. -/
theorem contribution_of_mem {rank : ℕ} {arm : List UUID} (hnodup : arm.Nodup) {key : UUID}
    (h : key ∈ arm) : contribution rank arm key = reciprocal (rank + arm.idxOf key) := by
  induction arm generalizing rank with
  | nil => cases h
  | cons k arm ih =>
    obtain ⟨hk, hrest⟩ := List.nodup_cons.mp hnodup
    rw [contribution]
    by_cases hkey : k = key
    · subst hkey
      rw [if_pos rfl, contribution_of_notMem hk, add_zero, List.idxOf_cons_self, Nat.add_zero]
    · have hmem : key ∈ arm := (List.mem_cons.mp h).resolve_left (Ne.symm hkey)
      rw [if_neg hkey, zero_add, ih hrest hmem, List.idxOf_cons_ne _ hkey]
      congr 1
      omega

theorem reciprocal_lt {m n : ℕ} (h : m < n) : reciprocal n < reciprocal m := by
  apply one_div_lt_one_div_of_lt
  · have hpos : 0 < rrfK0 + m := Nat.add_pos_left (by decide) m
    exact_mod_cast hpos
  · exact_mod_cast Nat.add_lt_add_left h rrfK0

theorem reciprocal_pos (n : ℕ) : 0 < reciprocal n := by
  have hpos : 0 < rrfK0 + n := Nat.add_pos_left (by decide) n
  apply one_div_pos.mpr
  exact_mod_cast hpos

/-- An id that is ranked higher gives more.  One that is missing is ranked last. -/
theorem contribution_lt {rank : ℕ} {arm : List UUID} (hnodup : arm.Nodup) {a b : UUID}
    (h : arm.idxOf a < arm.idxOf b) : contribution rank arm b < contribution rank arm a := by
  have ha : a ∈ arm := List.idxOf_lt_length_iff.mp (lt_of_lt_of_le h List.idxOf_le_length)
  rw [contribution_of_mem hnodup ha]
  by_cases hb : b ∈ arm
  · rw [contribution_of_mem hnodup hb]
    exact reciprocal_lt (by omega)
  · rw [contribution_of_notMem hb]
    exact reciprocal_pos _

theorem contribution_le {rank : ℕ} {arm : List UUID} (hnodup : arm.Nodup) {a b : UUID}
    (h : arm.idxOf a ≤ arm.idxOf b) : contribution rank arm b ≤ contribution rank arm a := by
  rcases lt_or_eq_of_le h with hlt | hsame
  · exact le_of_lt (contribution_lt hnodup hlt)
  · by_cases ha : a ∈ arm
    · rw [(List.idxOf_inj ha).mp hsame]
    · have hb : b ∉ arm := by
        intro hb
        have hlength := List.idxOf_eq_length_iff.mpr ha
        have hlt := List.idxOf_lt_length_of_mem hb
        omega
      rw [contribution_of_notMem ha, contribution_of_notMem hb]

variable {before after : List UUID} {x y : UUID}

theorem contribution_append (rank : ℕ) (arm arm' : List UUID) (key : UUID) :
    contribution rank (arm ++ arm') key
      = contribution rank arm key + contribution (rank + arm.length) arm' key := by
  induction arm generalizing rank with
  | nil => simp [contribution]
  | cons k arm ih =>
    rw [List.cons_append, contribution, ih, contribution, ← add_assoc, List.length_cons]
    congr 2
    omega

/-- Two neighbours that change places leave what the others get. -/
theorem contribution_swap_of_ne (rank : ℕ) {key : UUID} (hx : x ≠ key) (hy : y ≠ key) :
    contribution rank (before ++ x :: y :: after) key
      = contribution rank (before ++ y :: x :: after) key := by
  simp [contribution_append, contribution, hx, hy]

/-- The one that moves up gets no less. -/
theorem contribution_swap_le (rank : ℕ) :
    contribution rank (before ++ y :: x :: after) x
      ≤ contribution rank (before ++ x :: y :: after) x := by
  by_cases hsame : x = y
  · rw [hsame]
  · simp only [contribution_append, contribution, if_pos, if_neg (Ne.symm hsame), zero_add]
    gcongr
    exact le_of_lt (reciprocal_lt (Nat.lt_succ_self _))

end Contribution

/-! ### The ranking -/

section Ranking

variable {lexical vector : List HybridCandidate} {indexVersion : NonBlank}

theorem sortKey_injective (fusedScores : UUID → ℚ≥0) :
    Function.Injective (sortKey fusedScores) := by
  intro a b h
  exact (Prod.ext_iff.mp (toLex.injective h)).2

/-- A higher score comes first, and of equal scores the smaller id. -/
theorem sortKey_lt_iff {fusedScores : UUID → ℚ≥0} {a b : UUID} :
    sortKey fusedScores a < sortKey fusedScores b
      ↔ fusedScores b < fusedScores a ∨ fusedScores a = fusedScores b ∧ a < b := by
  unfold sortKey
  rw [Prod.Lex.toLex_lt_toLex]
  exact Iff.rfl

theorem mem_orderedIds {s : Fusing} {key : UUID} :
    key ∈ orderedIds s ↔ key ∈ s.candidates.map (·.chunkId) := mem_ranked

/-- Every ordered id has its candidate, so the chunks stand in the order of the ids. -/
theorem map_fusion {β : Type} {g : RetrievedChunk → β} {h : UUID → β}
    (hg : ∀ chunk : RetrievedChunk,
      chunk.fusedScore = (fuse lexical vector).fusedScores chunk.chunkId →
        g chunk = h chunk.chunkId) :
    (reciprocalRankFusion lexical vector indexVersion).map g
      = (orderedIds (fuse lexical vector)).map h := by
  have hmem : ∀ key ∈ orderedIds (fuse lexical vector),
      key ∈ (fuse lexical vector).candidates.map (·.chunkId) := fun _ => mem_orderedIds.mp
  unfold reciprocalRankFusion
  simp only
  generalize orderedIds (fuse lexical vector) = keys at hmem ⊢
  induction keys with
  | nil => rfl
  | cons key keys ih =>
    obtain ⟨hkey, hkeys⟩ := List.forall_mem_cons.mp hmem
    obtain ⟨candidate, hcandidate⟩ : ∃ candidate,
        (fuse lexical vector).candidates.find? (·.chunkId = key) = some candidate := by
      apply Option.isSome_iff_exists.mp
      obtain ⟨c, hc, hid⟩ := List.mem_map.mp hkey
      rw [List.find?_isSome]
      exact ⟨c, hc, decide_eq_true hid⟩
    have hid : candidate.chunkId = key := by simpa using List.find?_some hcandidate
    have hhead := hg { candidate with
      score := (fuse lexical vector).fusedScores key
      lexicalScore := armScores lexical key
      vectorScore := armScores vector key
      fusedScore := (fuse lexical vector).fusedScores key
      rerankScore := none
      indexVersion } (congrArg _ hid.symm)
    rw [List.filterMap_cons, hcandidate, List.map_cons, ← ih hkeys]
    simp only [Option.map_some, List.map_cons]
    rw [hhead]
    exact congrArg (fun key => h key :: _) hid

theorem map_chunkId_fusion : (reciprocalRankFusion lexical vector indexVersion).map (·.chunkId)
    = orderedIds (fuse lexical vector) := by
  have hmap : (reciprocalRankFusion lexical vector indexVersion).map (·.chunkId)
      = (orderedIds (fuse lexical vector)).map id := map_fusion fun _ _ => rfl
  rwa [List.map_id] at hmap

theorem map_chunkId_score_fusion :
    (reciprocalRankFusion lexical vector indexVersion).map (fun c => (c.chunkId, c.fusedScore))
      = (orderedIds (fuse lexical vector)).map fun key =>
        (key, (fuse lexical vector).fusedScores key) := by
  apply map_fusion
  intro chunk hscore
  rw [hscore]

theorem nodup_orderedIds : (orderedIds (fuse lexical vector)).Nodup :=
  (nodup_ranked _).mpr (nodup_fuse lexical vector)

/-- Fusions of the same ids with the same scores order them alike. -/
theorem orderedIds_congr {lexical' vector' : List HybridCandidate}
    (hids : ∀ key, key ∈ (fuse lexical vector).candidates.map (·.chunkId)
      ↔ key ∈ (fuse lexical' vector').candidates.map (·.chunkId))
    (hscores : (fuse lexical vector).fusedScores = (fuse lexical' vector').fusedScores) :
    orderedIds (fuse lexical vector) = orderedIds (fuse lexical' vector') := by
  have hperm : ((fuse lexical vector).candidates.map (·.chunkId)).Perm
      ((fuse lexical' vector').candidates.map (·.chunkId)) :=
    (List.perm_ext_iff_of_nodup (nodup_fuse _ _) (nodup_fuse _ _)).mpr hids
  unfold orderedIds
  rw [hscores]
  exact ranked_eq_of_perm (sortKey_injective _).injOn hperm

theorem fusedScores_comm (lexical vector : List HybridCandidate) :
    (fuse lexical vector).fusedScores = (fuse vector lexical).fusedScores := by
  funext key
  rw [fusedScores_fuse, fusedScores_fuse, add_comm]

theorem orderedIds_comm (lexical vector : List HybridCandidate) :
    orderedIds (fuse lexical vector) = orderedIds (fuse vector lexical) := by
  refine orderedIds_congr (fun key => ?_) (fusedScores_comm lexical vector)
  rw [mem_fuse, mem_fuse, or_comm]

/-- An id that gets no less than before, while no other gets more, is not moved down. -/
theorem idxOf_orderedIds_le {lexical' vector' : List HybridCandidate} {x : UUID}
    (hids : ∀ key, key ∈ (fuse lexical' vector').candidates.map (·.chunkId)
      ↔ key ∈ (fuse lexical vector).candidates.map (·.chunkId))
    (hx : x ∈ (fuse lexical vector).candidates.map (·.chunkId))
    (hup : (fuse lexical vector).fusedScores x ≤ (fuse lexical' vector').fusedScores x)
    (hothers : ∀ key, key ≠ x →
      (fuse lexical' vector').fusedScores key ≤ (fuse lexical vector).fusedScores key) :
    (orderedIds (fuse lexical' vector')).idxOf x ≤ (orderedIds (fuse lexical vector)).idxOf x := by
  have hperm : ((fuse lexical' vector').candidates.map (·.chunkId)).Perm
      ((fuse lexical vector).candidates.map (·.chunkId)) :=
    (List.perm_ext_iff_of_nodup (nodup_fuse _ _) (nodup_fuse _ _)).mpr hids
  apply idxOf_ranked_le (sortKey_injective _).injOn (sortKey_injective _).injOn
    (nodup_fuse _ _) hperm hx
  intro key _ hbelow
  rw [sortKey_lt_iff] at hbelow ⊢
  have hne : key ≠ x := by
    rintro rfl
    rcases hbelow with hlt | ⟨-, hlt⟩
    · exact lt_irrefl _ hlt
    · exact lt_irrefl _ hlt
  have hdown := hothers key hne
  rcases hbelow with hlt | ⟨hsame, hlt⟩
  · exact .inl (lt_of_le_of_lt hup (lt_of_lt_of_le hlt hdown))
  · have hle := hup.trans (hsame.symm.le.trans hdown)
    rcases lt_or_eq_of_le hle with hless | htie
    · exact .inl hless
    · exact .inr ⟨htie.symm, hlt⟩

/-- Moving a candidate one place up in the lexical arm does not move it down. -/
theorem idxOf_fusion_swap (before after : List HybridCandidate) (x y : HybridCandidate) :
    (orderedIds (fuse (before ++ x :: y :: after) vector)).idxOf x.chunkId
      ≤ (orderedIds (fuse (before ++ y :: x :: after) vector)).idxOf x.chunkId := by
  by_cases hsame : x.chunkId = y.chunkId
  · -- the arms have the same ids
    have hmap : (before ++ x :: y :: after).map (·.chunkId)
        = (before ++ y :: x :: after).map (·.chunkId) := by simp [hsame]
    have hids : ∀ key, key ∈ (fuse (before ++ x :: y :: after) vector).candidates.map (·.chunkId)
        ↔ key ∈ (fuse (before ++ y :: x :: after) vector).candidates.map (·.chunkId) := by
      intro key
      rw [mem_fuse, mem_fuse, hmap]
    have hscores : (fuse (before ++ x :: y :: after) vector).fusedScores
        = (fuse (before ++ y :: x :: after) vector).fusedScores := by
      funext key
      rw [fusedScores_fuse, fusedScores_fuse, hmap]
    rw [orderedIds_congr hids hscores]
  · apply idxOf_orderedIds_le
    · intro key
      rw [mem_fuse, mem_fuse]
      simp only [List.map_append, List.map_cons, List.mem_append, List.mem_cons]
      tauto
    · rw [mem_fuse]
      simp
    · rw [fusedScores_fuse, fusedScores_fuse]
      simp only [List.map_append, List.map_cons]
      gcongr
      exact contribution_swap_le 1
    · intro key hkey
      rw [fusedScores_fuse, fusedScores_fuse]
      simp only [List.map_append, List.map_cons]
      gcongr
      by_cases hy : y.chunkId = key
      · subst hy
        exact contribution_swap_le 1
      · exact le_of_eq (contribution_swap_of_ne 1 (Ne.symm hkey) hy)

/-- What is ranked higher in one arm, and not lower in the other, comes first. -/
theorem idxOf_fusion_lt (hlexical : (lexical.map (·.chunkId)).Nodup)
    (hvector : (vector.map (·.chunkId)).Nodup) {a b : UUID}
    (hstrict : (lexical.map (·.chunkId)).idxOf a < (lexical.map (·.chunkId)).idxOf b)
    (hle : (vector.map (·.chunkId)).idxOf a ≤ (vector.map (·.chunkId)).idxOf b) :
    (orderedIds (fuse lexical vector)).idxOf a < (orderedIds (fuse lexical vector)).idxOf b := by
  have ha : a ∈ lexical.map (·.chunkId) :=
    List.idxOf_lt_length_iff.mp (lt_of_lt_of_le hstrict List.idxOf_le_length)
  apply idxOf_ranked_lt (sortKey_injective _).injOn (nodup_fuse _ _) (mem_fuse.mpr (.inl ha))
  rw [sortKey_lt_iff, fusedScores_fuse, fusedScores_fuse]
  apply Or.inl
  exact add_lt_add_of_lt_of_le (contribution_lt hlexical hstrict) (contribution_le hvector hle)

end Ranking

/-! ### Accepted rerankings -/

/-- What an accepted output is: as many chunks as were asked for or fused, of different ids, each
    like the fused one of its id. -/
structure Reranked (reranked candidates : List RetrievedChunk) (k : ℕ) : Prop where
  count : reranked.length = min k candidates.length
  distinct : (reranked.map (·.chunkId)).Nodup
  same : ∀ chunk ∈ reranked, ∃ original ∈ candidates, chunk.SameDump original

theorem reranked_of_validate {reranked candidates : List RetrievedChunk} {k : ℕ}
    (h : validateRerankerOutput reranked candidates k = .ok ()) :
    Reranked reranked candidates k := by
  unfold validateRerankerOutput at h
  simp only at h
  split at h
  · cases h
  · rename_i hids
    rw [not_or, not_or, not_not, not_not, not_not] at hids
    obtain ⟨hcount, hset, hknown⟩ := hids
    refine ⟨by simpa using hcount, ?_, ?_⟩
    · have hall := (List.dedup_sublist (reranked.map (·.chunkId))).eq_of_length hset.symm
      rw [← hall]
      exact List.nodup_dedup _
    · intro chunk hchunk
      have hsame := Except.forM_eq_ok_iff.mp h chunk hchunk
      have hthere := hknown chunk.chunkId (List.mem_map_of_mem hchunk)
      split at hsame
      · rename_i hnone
        obtain ⟨original, horiginal, hid⟩ := List.mem_map.mp hthere
        exact absurd hid (dictGet_eq_none.mp hnone original horiginal)
      · rename_i original hfound
        split at hsame
        · rename_i hdump
          exact ⟨original, (mem_of_dictGet hfound).1, hdump⟩
        · cases hsame

/-! ### The laws -/

/-- The laws of the fusion of two arms.  An id that an arm does not have is ranked after all that it
    has. -/
structure FusionLaws (lexical vector : List HybridCandidate) (indexVersion : NonBlank) : Prop where
  /-- Each id of an arm is there once, and no other. -/
  once : ((reciprocalRankFusion lexical vector indexVersion).map (·.chunkId)).Nodup
    ∧ ∀ key, key ∈ (reciprocalRankFusion lexical vector indexVersion).map (·.chunkId)
      ↔ key ∈ lexical.map (·.chunkId) ∨ key ∈ vector.map (·.chunkId)
  /-- The arms may be exchanged. -/
  exchange :
    (reciprocalRankFusion vector lexical indexVersion).map (fun c => (c.chunkId, c.fusedScore))
      = (reciprocalRankFusion lexical vector indexVersion).map fun c => (c.chunkId, c.fusedScore)
  /-- A place up in an arm is not a place down in the result. -/
  promotion : ∀ before after x y, (lexical = before ++ y :: x :: after →
      ((reciprocalRankFusion (before ++ x :: y :: after) vector indexVersion).map (·.chunkId)).idxOf
          x.chunkId
        ≤ ((reciprocalRankFusion lexical vector indexVersion).map (·.chunkId)).idxOf x.chunkId)
    ∧ (vector = before ++ y :: x :: after →
      ((reciprocalRankFusion lexical (before ++ x :: y :: after) indexVersion).map
          (·.chunkId)).idxOf x.chunkId
        ≤ ((reciprocalRankFusion lexical vector indexVersion).map (·.chunkId)).idxOf x.chunkId)
  /-- Not lower in both arms and higher in one is first in the result. -/
  dominance : ∀ a b, (lexical.map (·.chunkId)).idxOf a ≤ (lexical.map (·.chunkId)).idxOf b →
    (vector.map (·.chunkId)).idxOf a ≤ (vector.map (·.chunkId)).idxOf b →
    (lexical.map (·.chunkId)).idxOf a < (lexical.map (·.chunkId)).idxOf b
      ∨ (vector.map (·.chunkId)).idxOf a < (vector.map (·.chunkId)).idxOf b →
    ((reciprocalRankFusion lexical vector indexVersion).map (·.chunkId)).idxOf a
      < ((reciprocalRankFusion lexical vector indexVersion).map (·.chunkId)).idxOf b
  /-- An accepted reranking keeps everything but the scores of the reranker. -/
  reranking : ∀ reranked k,
    validateRerankerOutput reranked (reciprocalRankFusion lexical vector indexVersion) k = .ok () →
    Reranked reranked (reciprocalRankFusion lexical vector indexVersion) k

/-- **Reciprocal rank fusion.** -/
theorem reciprocalRankFusion_laws {lexical vector : List HybridCandidate}
    (hlexical : (lexical.map (·.chunkId)).Nodup) (hvector : (vector.map (·.chunkId)).Nodup)
    (indexVersion : NonBlank) : FusionLaws lexical vector indexVersion where
  once := by
    rw [map_chunkId_fusion]
    exact ⟨nodup_orderedIds, fun key => mem_orderedIds.trans mem_fuse⟩
  exchange := by
    rw [map_chunkId_score_fusion, map_chunkId_score_fusion, orderedIds_comm, fusedScores_comm]
  promotion := by
    intro before after x y
    simp only [map_chunkId_fusion]
    constructor
    · rintro rfl
      exact idxOf_fusion_swap before after x y
    · rintro rfl
      rw [orderedIds_comm lexical, orderedIds_comm lexical]
      exact idxOf_fusion_swap before after x y
  dominance := by
    intro a b hlex hvec hstrict
    simp only [map_chunkId_fusion]
    rcases hstrict with hlt | hlt
    · exact idxOf_fusion_lt hlexical hvector hlt hvec
    · rw [orderedIds_comm]
      exact idxOf_fusion_lt hvector hlexical hlt hlex
  reranking := fun _ _ => reranked_of_validate

/-! ### A fusion -/

def sampleText : NonBlank := ⟨"fixture-index-1", by decide⟩

def sampleChunkId : UUID := ⟨"018f0000-0000-7000-8000-000000000001", by decide⟩

def otherChunkId : UUID := ⟨"018f0000-0000-7000-8000-000000000002", by decide⟩

def sampleHash : Marl.Hash :=
  ⟨"sha256:0000000000000000000000000000000000000000000000000000000000000000", .refl true⟩

def sampleDate : Datetime := ⟨⟨2026, 9, 6, valid2026, validSeptember, validSixth⟩, 12, 0, 0, 0, validNoon⟩

/-- A candidate as the search finds it. -/
def sampleCandidate (chunkId : UUID) : HybridCandidate where
  namespaceId := sampleChunkId
  chunkId
  documentId := sampleChunkId
  sourceId := sampleChunkId
  citation := sampleText
  text := []
  sourceContentHash := sampleHash
  contentHash := sampleHash
  locator :=
    { entries := [(.ofString "char_start", .int 0), (.ofString "char_end", .int 9)]
      unique := by decide
      placed := ⟨0, 9, rfl, rfl, by decide, by decide⟩ }
  chunkerVersion := ⟨.ofString "chunker-v1", by decide⟩
  sourceTimestamp := sampleDate
  documentTimestamp := sampleDate
  retrievedAt := sampleDate
  trustLevel := ⟨.ofString "SECONDARY", by decide⟩
  score := 1

theorem reciprocalRankFusion_laws_crossed :
    FusionLaws [sampleCandidate sampleChunkId, sampleCandidate otherChunkId]
      [sampleCandidate otherChunkId, sampleCandidate sampleChunkId] sampleText :=
  reciprocalRankFusion_laws (by decide) (by decide) sampleText

end Agora.Retrieval
