import Coapable.CoapLite

/-!
# Transmission parameters, allocators and retransmission state

Instants and durations count nanoseconds.  The random generators are modelled
by the values they draw: `MessageIdAllocator.new` and `TokenAllocator.new`
take the drawn start, and `AckTimeout` is any duration that
`random_ack_timeout` can return.
-/

namespace Coapable.Transport

open Coapable.CoapLite

/-- `Duration::from_secs`. -/
def fromSecs (seconds : Nat) : Nat :=
  seconds * 1000000000

/-! ## RFC 7252 section 4.8 -/

/-- The shortest first timeout of a CON. -/
def ackTimeout : Nat := fromSecs 2

/-- How many copies of a CON are sent. -/
def maxRetransmit : Nat := 4

/-- How long a MID is remembered. -/
def exchangeLifetime : Nat := fromSecs 247

/-- How long the exchange of a NON is open. -/
def nonLifetime : Nat := fromSecs 145

/-! ## Self-defined parameters -/

/-- How often idle sessions are looked for. -/
def idleSessionCleanupInterval : Nat := fromSecs 30

/-- A value `random_ack_timeout` may return: at least `ackTimeout` and at
most 1.5 times that. -/
structure AckTimeout where
  duration : Nat
  lower : ackTimeout ≤ duration
  upper : 2 * duration ≤ 3 * ackTimeout

/-- The shortest timeout there is. -/
def AckTimeout.shortest : AckTimeout where
  duration := ackTimeout
  lower := le_rfl
  upper := by decide

/-! ## Allocators -/

/-- Per-peer message ID allocator: a wrapping `u16` counter. -/
structure MessageIdAllocator where
  next : UInt16
  deriving DecidableEq, Repr

namespace MessageIdAllocator

/-- An allocator that starts at a drawn value. -/
def new (start : UInt16) : MessageIdAllocator := ⟨start⟩

/-- The next MID; the counter wraps around. -/
def allocate (allocator : MessageIdAllocator) :
    UInt16 × MessageIdAllocator :=
  (allocator.next, ⟨allocator.next + 1⟩)

end MessageIdAllocator

/-- `u32::to_be_bytes`. -/
def toBeBytes (value : UInt32) : Bytes :=
  [UInt8.ofNat (value.toNat / 16777216),
    UInt8.ofNat (value.toNat / 65536),
    UInt8.ofNat (value.toNat / 256),
    UInt8.ofNat value.toNat]

theorem toBeBytes_injective : Function.Injective toBeBytes := by
  intro left right equal
  simp only [toBeBytes, List.cons.injEq, and_true] at equal
  rcases equal with ⟨first, second, third, fourth⟩
  have firstNat := congrArg UInt8.toNat first
  have secondNat := congrArg UInt8.toNat second
  have thirdNat := congrArg UInt8.toNat third
  have fourthNat := congrArg UInt8.toNat fourth
  simp only [UInt8.toNat_ofNat'] at firstNat secondNat thirdNat fourthNat
  have leftBound := left.toNat_lt
  have rightBound := right.toNat_lt
  apply UInt32.toNat_inj.mp
  omega

/-- Per-peer token allocator: a wrapping `u32` counter, big-endian tokens. -/
structure TokenAllocator where
  next : UInt32
  deriving DecidableEq, Repr

namespace TokenAllocator

/-- An allocator that starts at a drawn value. -/
def new (start : UInt32) : TokenAllocator := ⟨start⟩

/-- The next token, four bytes; the counter wraps around. -/
def allocate (allocator : TokenAllocator) : Token × TokenAllocator :=
  (toBeBytes allocator.next, ⟨allocator.next + 1⟩)

end TokenAllocator

/-! ## Retransmission state -/

/-- Retransmission state for a single CON exchange. -/
structure RetransmitState where
  /-- Serialized packet bytes, ready to re-send. -/
  packetBytes : Bytes
  /-- How many retransmissions have been sent. -/
  retransmitCount : Nat
  /-- Current timeout before the next retransmission. -/
  currentTimeout : Nat
  nextRetransmit : Nat
  deriving DecidableEq, Repr

namespace RetransmitState

/-- The state of a packet that was just sent for the first time. -/
def new (packetBytes : Bytes) (timeout : AckTimeout) (now : Nat) :
    RetransmitState where
  packetBytes := packetBytes
  retransmitCount := 0
  currentTimeout := timeout.duration
  nextRetransmit := now + timeout.duration

/-- Advance to the next retransmission, `false` if `maxRetransmit` were
already sent. -/
def advance (state : RetransmitState) (now : Nat) :
    Bool × RetransmitState :=
  if maxRetransmit ≤ state.retransmitCount then (false, state)
  else
    (true, {
      packetBytes := state.packetBytes
      retransmitCount := state.retransmitCount + 1
      currentTimeout := state.currentTimeout * 2
      nextRetransmit := now + state.currentTimeout * 2 })

/-- The next retransmission is due. -/
def isDue (state : RetransmitState) (now : Nat) : Bool :=
  state.nextRetransmit ≤ now

end RetransmitState

/-- Dedup entry for inbound messages. -/
structure DedupEntry where
  /-- Cached response bytes for re-sending to duplicate CON requests. -/
  cachedResponse : Option Bytes
  created : Nat
  deriving DecidableEq, Repr

end Coapable.Transport
