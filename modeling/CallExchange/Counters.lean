set_option autoImplicit false

/-!
# Counters

What an exchange has done, in words of 64 bits.
-/

namespace CallExchange

structure Counters where
  asyncCalls : UInt64
  syncCalls : UInt64
  streamCalls : UInt64
  /-- Deliveries that completed a pending call. -/
  completed : UInt64
  /-- Deliveries put into the inbox of a broadcast port. -/
  queued : UInt64
  /-- Deliveries to a port that is not open. -/
  dropped : UInt64
  callbacksInvoked : UInt64
  callbacksFailed : UInt64
  buffersFreed : UInt64
deriving DecidableEq

namespace Counters

def zero : Counters := ⟨0, 0, 0, 0, 0, 0, 0, 0, 0⟩

inductive Event where
  | asyncCall
  | syncCall
  | streamCall
  | completed
  | queued
  | dropped
  | callbackInvoked
  | callbackFailed
  | bufferFreed
deriving DecidableEq

def record (c : Counters) : Event → Counters
  | .asyncCall => { c with asyncCalls := c.asyncCalls + 1 }
  | .syncCall => { c with syncCalls := c.syncCalls + 1 }
  | .streamCall => { c with streamCalls := c.streamCalls + 1 }
  | .completed => { c with completed := c.completed + 1 }
  | .queued => { c with queued := c.queued + 1 }
  | .dropped => { c with dropped := c.dropped + 1 }
  | .callbackInvoked => { c with callbacksInvoked := c.callbacksInvoked + 1 }
  | .callbackFailed => { c with callbacksFailed := c.callbacksFailed + 1 }
  | .bufferFreed => { c with buffersFreed := c.buffersFreed + 1 }

end Counters

end CallExchange
