import Mathlib.Algebra.GroupWithZero.Nat

/-!
# Constants and error codes

The constants of `src/cspcl_config.h` and `src/cspcl.h` that the model reads, with their default
values, and `cspcl_error_t`.
-/

namespace Cspcl

/-- `CSPCL_MAX_BUNDLE_SIZE`. -/
def maxBundleSize : Nat := 65535

/-- `CSPCL_MAX_PAYLOAD`: the MTU without the SFP header and the RDP header. -/
def maxPayload : Nat := 256 - 8 - 5

/-- `CSPCL_CONN_POOL_SIZE`. -/
abbrev connPoolSize : Nat := 16

instance : NeZero connPoolSize := ⟨by decide⟩

/-- `CSPCL_RX_CONN_TABLE_SIZE`. -/
abbrev rxConnTableSize : Nat := 8

instance : NeZero rxConnTableSize := ⟨by decide⟩

/-- `CSPCL_RX_BUFFER_SIZE`. -/
def rxBufferSize : Nat := 65536

/-- `CSPCL_TX_BUFFER_SIZE`. -/
def txBufferSize : Nat := 65536

/-- `CSPCL_STREAM_CHUNK_SIZE`. -/
def streamChunkSize : Nat := 4096

/-- `CSPCL_MAX_LINKS`. -/
abbrev maxLinks : Nat := 16

/-- `CSPCL_PORT_BP`. -/
def portBp : UInt8 := 10

/-- The return codes of libcsp that cspcl tells apart (`csp_error.h`). -/
abbrev CspErr := Int

/-- `CSP_ERR_NONE`. -/
def cspErrNone : CspErr := 0

/-- `CSP_ERR_TIMEDOUT`. -/
def cspErrTimedout : CspErr := -3

/-- `cspcl_error_t`. -/
inductive CspclError where
  | ok
  | invalidParam
  | noMemory
  | bundleTooLarge
  | cspSend
  | cspRecv
  | timeout
  | sfp
  | notInitialized
  | connection
  | cspinit
  | cspStackInit
  | cspZmqhubInit
  | cspCanInit
  | cspCanNotSupported
  | cspRouter
  | poolFull
  deriving DecidableEq, Repr

end Cspcl
