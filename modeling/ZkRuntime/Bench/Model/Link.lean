import ZkRuntime.Bench.Model.Events
import ZkRuntime.Common.TextCodec
/-!
# The control channel

`Link` of `tools/bench/g4_events.py` as far as it moves bytes: a message is
a JSON text on a line of at most `MAX_MESSAGE` bytes, and what was received
past a line stays in the buffer. The connection, with its clock, is a
parameter: its calls return what the system answers. `settimeout` changes
only how long they take.
-/

namespace ZkRuntime

namespace Bench

namespace Events

open PyJson

variable {F : Type} [Floats F] {σ : Type}

/-- What a socket raises. -/
inductive SocketError where
  | timeout
  /-- Any other `OSError`. -/
  | os
  deriving DecidableEq, Repr

/-- What the channel makes of it. -/
def SocketError.raised : SocketError → Raised
  | .timeout => .interface "channel timeout"
  | .os => .interface "channel closed"

/-- **A connection**: a clock, and calls on a socket. -/
structure Connection (σ : Type) where
  clock : σ → ℤ × σ
  sendall : Bytes → σ → Except SocketError Unit × σ
  /-- `recv`, of the bytes requested. -/
  recv : ℤ → σ → Except SocketError Bytes × σ

/-- `b'\n'`. -/
def newline : UInt8 := 0x0A

/-- `decode` of `policy_binding.py`, and none where it raises. Its UTF-8 has
no surrogates. -/
def decode (data : Bytes) : Option (Value F) :=
  (decodeUtf8 data).bind fun t => if t.any fun c => isHighUnit c || isLowUnit c then none else loads t

/-- The line of a value. -/
def encode (value : Value F) : Option Bytes := (dumps value).map fun t => encodeText (t ++ [0x0A])

/-- `Link`: its deadline, and its buffer. -/
structure Link where
  deadline : ℤ
  buffer : Bytes
  deriving DecidableEq, Repr

namespace Link

variable (c : Connection σ) (l : Link)

/-- `_budget`. -/
def budget (s : σ) : Checked Unit × σ :=
  match c.clock s with
  | (now, s') => if 0 < l.deadline - now then (.ok (), s') else (.error (.interface "channel timeout"), s')

/-- **`frame`**. What is not finite has no text, which `dumps` raises. -/
def frame (value : Value F) (s : σ) : Checked Unit × σ :=
  match encode value with
  | none => (.error .python, s)
  | some data =>
    if data.length ≤ maxMessage then
      match l.budget c s with
      | (.error e, s') => (.error e, s')
      | (.ok (), s') =>
        match c.sendall data s' with
        | (.error e, s'') => (.error e.raised, s'')
        | (.ok (), s'') => (.ok (), s'')
    else (.error (.interface "channel frame bound"), s)

/-- The length of the frame the buffer starts with, as far as it is there. -/
def frameLength (buffer : Bytes) : ℕ :=
  if newline ∈ buffer then buffer.idxOf newline + 1 else buffer.length

/-- The loop of `read`, for so many rounds. -/
def fill : ℕ → Link → σ → Option (Checked Unit × Link × σ)
  | 0, _, _ => none
  | n + 1, l, s =>
    if newline ∈ l.buffer then some (.ok (), l, s)
    else
      match l.budget c s with
      | (.error e, s') => some (.error e, l, s')
      | (.ok (), s') =>
        match c.recv (maxMessage + 1 - l.buffer.length) s' with
        | (.error e, s'') => some (.error e.raised, l, s'')
        | (.ok block, s'') =>
          if block = [] then some (.error (.interface "channel closed"), l, s'')
          else if frameLength (l.buffer ++ block) ≤ maxMessage then
            fill n { l with buffer := l.buffer ++ block } s''
          else some (.error (.interface "channel frame bound"), { l with buffer := l.buffer ++ block }, s'')

/-- **`read`**, of so many rounds at most. -/
def read (fuel : ℕ) (s : σ) : Option (Checked (Value F) × Link × σ) :=
  match fill c fuel l s with
  | none => none
  | some (.error e, l', s') => some (.error e, l', s')
  | some (.ok (), l', s') =>
    let raw := l'.buffer.take (l'.buffer.idxOf newline)
    let rest : Link := { l' with buffer := l'.buffer.drop (raw.length + 1) }
    if raw.length + 1 ≤ maxMessage then
      match decode raw with
      | some value => some (.ok value, rest, s')
      | none => some (.error (.interface "invalid channel JSON"), rest, s')
    else some (.error (.interface "channel frame bound"), rest, s')

/-- Successive calls of `frame`, up to one that raises. -/
def frames : List (Value F) → σ → Checked Unit × σ
  | [], s => (.ok (), s)
  | v :: vs, s =>
    match l.frame c v s with
    | (.error e, s') => (.error e, s')
    | (.ok (), s') => frames vs s'

/-- Successive calls of `read`. -/
def reads (fuel : ℕ) : ℕ → Link → σ → Option (List (Checked (Value F)) × Link × σ)
  | 0, l, s => some ([], l, s)
  | n + 1, l, s =>
    match l.read c fuel s with
    | none => none
    | some (r, l', s') =>
      match reads fuel n l' s' with
      | none => none
      | some (rs, l'', s'') => some (r :: rs, l'', s'')

end Link

/-! ## A byte stream -/

/-- **A stream that is not read yet**, and what was asked of it. -/
structure Stream where
  unread : Bytes
  /-- The number of times the clock was read. -/
  looks : ℕ
  /-- The numbers of bytes requested. -/
  requests : List ℤ
  deriving DecidableEq, Repr

/-- **A reliable stream socket.** The `n`-th block is as large as `size n`
says, where so much was requested and is there, and of one byte at least. -/
def stream (size : ℕ → ℕ) (time : ℕ → ℤ) : Connection Stream where
  clock s := (time s.looks, { s with looks := s.looks + 1 })
  sendall data s := (.ok (), { s with unread := s.unread ++ data })
  recv n s :=
    let block := s.unread.take (min n.toNat (max 1 (size s.requests.length)))
    (.ok block, { s with unread := s.unread.drop block.length, requests := s.requests ++ [n] })

end Events

end Bench

end ZkRuntime
