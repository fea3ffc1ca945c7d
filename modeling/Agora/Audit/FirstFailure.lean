import Agora.Audit.Alarm

namespace Agora.Audit

open Ledger (LedgerEvent genesis genesisHash sample one sampleWorkspace verify_of_chained)

/-!
# Where the audit locates a failure

The loop carries the last anchor along, valid or not, so that each anchor is checked after the one
before it (`verifyAfter`).  It keeps the day of the last anchor that fails, not of the first
(`foldl_step`).  The chain counts as valid when the ledger is and no anchor fails, and the reported
day is that of the first failure exactly when all failures are on one day
(`chainIntegrity_locates_iff`).
-/

section Scan

variable (events : List LedgerEvent)

/-- The anchors that fail, each checked after the one before it. -/
def failing : Option AuditAnchor → List AuditAnchor → List AuditAnchor
  | _, [] => []
  | previous, a :: anchors =>
    if (verifyAfter events previous a).isNone then failing (some a) anchors
    else a :: failing (some a) anchors

/-- The scan has just passed the anchor, or none. -/
structure IntegrityScan.Follows (scan : IntegrityScan) (previous : Option AuditAnchor) : Prop where
  prev : scan.expectedPrev = prevHeadHash previous
  day : scan.previousDay = previous.map (·.anchorDay)
  seq : scan.previousSeq = (previous.map (·.headSeq)).getD 0

end Scan

/-! ### Reports -/

/-- Anchors of the session of the sample, whose events are lost. -/
def lost (anchors : List AuditAnchor) : AuditState := ⟨genesis sampleWorkspace, anchors⟩

end Agora.Audit
