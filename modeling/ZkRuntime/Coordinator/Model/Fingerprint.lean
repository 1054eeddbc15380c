import ZkRuntime.Common.Quote
import ZkRuntime.Common.Sha256
import ZkRuntime.Coordinator.Model.Job
/-!
# The recovery fingerprint

`recoverySpecHash` of `recovery_schedule.go`. Two spellings of one public
payload have one fingerprint, so that a record whose execution normalizes
its payload keeps its history. Which characters `%q` prints as they are is
the Unicode table of the language, a parameter.
-/

namespace ZkRuntime

namespace Coordinator

/-- `%d` of a 64-bit integer. -/
def formatInt (n : Int64) : Bytes :=
  if n < 0 then 0x2D :: Bytes.decimal n.toInt.natAbs else Bytes.decimal n.toInt.natAbs

/-- The payload a fingerprint is taken of: canonical, where it parses. -/
def fingerprintPayload (r : JobRecord) : Bytes :=
  if r.taskType = zkTaskType then
    match Zk.parsePreimagePublicPayload r.payload with
    | .ok v => v.canonicalJSON
    | .error _ => r.payload
  else r.payload

/-- What `recoverySpecHash` hashes. -/
def recoverySpecInput (isPrint : ℕ → Bool) (r : JobRecord) : Bytes :=
  Quote.quoted isPrint r.taskType ++ 0x20 :: Quote.quoted isPrint (fingerprintPayload r) ++
    0x20 :: formatInt r.timeoutMs

/-- `recoverySpecHash`. -/
def recoverySpecHash (isPrint : ℕ → Bool) (r : JobRecord) : Bytes :=
  Sha256.sum256 (recoverySpecInput isPrint r)

end Coordinator

end ZkRuntime
