import Blyt.SaveState
import Blyt.TrackedRegions

namespace Blyt
open Packed

/-- `frame_state_fnv1a`. -/
def FrameState.fnv1a (fs : FrameState) : UInt64 := fnv1a64Bytes (frameState.encode fs)

/-- A `DIGEST` line: the frame and the hash of the state. -/
structure Digest where
  frame : UInt32
  hash : UInt64
  deriving DecidableEq

/-- `frame_state_emit_digest`, which canonicalizes the state it hashes in place. -/
def frameStateEmitDigest (fs : FrameState) : FrameState × Digest :=
  (fs.canonicalize, ⟨fs.canonicalize.frame, fs.canonicalize.fnv1a⟩)

end Blyt
