import Agora.Lib.CodecLeaves
import Agora.Lib.JsonErrors
import Agora.Lib.JsonOrder
import Agora.Marl.Leaves

namespace Agora.Marl

open Agora.Except (Raises)

/-!
# Exceptions of the verification

Up to the replay a bundle can raise only while its files are read: when a file is nested more deeply
than the interpreter allows (`raises_authenticate_iff`).  The schemas, encodings and hashes raise
nothing but `ValueError`, which their stages catch, and what has been loaded has canonical text.
-/

section Halting

variable {α : Type}

end Halting

/-! ### Hashes -/

section Hashes

variable [Runtime]

end Hashes

/-! ### Reading -/

section Reading

variable {α β : Type}

variable [Runtime]

omit [Runtime] in
theorem raises_checkKey (limits : BundleLimits) (depth : ℕ) (k : PyStr) :
    Raises (fun e => e.cls = .overflowError) (checkKey limits depth k) :=
  .ite (fun _ => .error rfl) fun _ => .ite (fun _ => .error rfl) fun _ => .ok ()

omit [Runtime] in
mutual
theorem raises_depthAndSize (limits : BundleLimits) : ∀ (depth : ℕ) (j : Json),
    Raises (fun e => e.cls = .overflowError) (depthAndSize limits depth j)
  | _, .null | _, .bool _ | _, .int _ | _, .float _ _ =>
    .ite (fun _ => .error rfl) fun _ => .ok ()
  | depth, .str s => raises_checkKey limits depth s
  | depth, .arr items => .ite (fun _ => .error rfl) fun _ =>
      .ite (fun _ => .error rfl) fun _ => raises_depthAndSizeItems limits (depth + 1) items
  | depth, .obj entries => .ite (fun _ => .error rfl) fun _ =>
      .ite (fun _ => .error rfl) fun _ => raises_depthAndSizeEntries limits (depth + 1) entries
theorem raises_depthAndSizeItems (limits : BundleLimits) : ∀ (depth : ℕ) (items : List Json),
    Raises (fun e => e.cls = .overflowError) (depthAndSizeItems limits depth items)
  | _, [] => .ok ()
  | depth, j :: items => (raises_depthAndSize limits depth j).bind fun _ _ =>
      raises_depthAndSizeItems limits depth items
theorem raises_depthAndSizeEntries (limits : BundleLimits) :
    ∀ (depth : ℕ) (entries : List (PyStr × Json)),
      Raises (fun e => e.cls = .overflowError) (depthAndSizeEntries limits depth entries)
  | _, [] => .ok ()
  | depth, (k, v) :: entries => (raises_checkKey limits depth k).bind fun _ _ =>
      (raises_depthAndSize limits depth v).bind fun _ _ =>
        raises_depthAndSizeEntries limits depth entries
end

variable {manifestBytes trajectory : Bytes} {entryNames : List String} {limits : BundleLimits}

/-- The stages after the files have been read. -/
def authenticateRead (manifestBytes trajectory : Bytes) (value : Json) (raws : List Json) :
    Verify Authenticated := do
  checkVersions value raws
  let manifest ← loadManifest value
  let records ← raws.mapM loadRecord
  checkManifestEncoding manifestBytes manifest
  checkTrajectoryEncoding trajectory manifest raws
  checkDigest trajectory manifest records
  checkOrder manifest records
  checkHashes manifest (sha256Hash trajectory) records
  checkReferences manifest records
  let episode ← buildEpisode manifest records
  let actualEpisode ← ofPy (episodeHash episode)
  returnIf (actualEpisode ≠ manifest.episodeHash)
    (failure .hashMismatch .hash .manifest "episode hash differs"
      { episodeId := some manifest.episodeId, checked := (transitionsOf records).length
        expectedTrajectory := some manifest.trajectorySha256
        actualTrajectory := some (sha256Hash trajectory)
        expectedEpisode := some manifest.episodeHash, actualEpisode := some actualEpisode })
  pure { manifest, raws, records, episode, episodeHash := actualEpisode }

theorem authenticate_eq :
    authenticate manifestBytes trajectory entryNames limits = (do
      checkBundle manifestBytes trajectory entryNames limits
      let value ← parseFile manifestBytes .manifest limits
      let raws ← parseLines trajectory limits
      authenticateRead manifestBytes trajectory value raws) := rfl

end Reading

end Agora.Marl
