/-!
# Synchronization primitives

The primitives of the language that the models share. A channel that
carries no values and is only closed is a `Signal`: to close it twice
panics, which its third state records.
-/

namespace ZkRuntime

/-- A `chan struct{}` that is only closed. -/
inductive Signal where
  | pending
  | closed
  /-- It was closed twice, and the process has panicked. -/
  | panicked
  deriving DecidableEq, Repr

namespace Signal

/-- `close`. -/
def close : Signal → Signal
  | .pending => .closed
  | _ => .panicked

@[simp] theorem close_pending : pending.close = .closed := rfl

end Signal

end ZkRuntime
