import Slt.Lib.Bytes

/-!
# Connection ids, cipher suites and addresses
-/

namespace Slt

open Lib (Bytes FixedBytes)

def maxDcidLen : Nat := 20

/-- The length of the connection id prefix that routes a short header. -/
def quicDcidPrefixLen : Nat := 20

inductive CidError where
  | invalidLen (len : Nat)
  | tooShortForPrefix (len : Nat)
  deriving DecidableEq, Repr

structure Cid where
  bytes : Bytes
  bounded : bytes.length ≤ maxDcidLen
  deriving DecidableEq

theorem bounded_replicate (b : UInt8) : (List.replicate 20 b).length ≤ maxDcidLen := by
  rw [List.length_replicate, maxDcidLen]

abbrev CidPrefix := FixedBytes quicDcidPrefixLen

namespace Cid

def new (bytes : Bytes) : Except CidError Cid :=
  if h : bytes.length ≤ maxDcidLen then .ok ⟨bytes, h⟩ else .error (.invalidLen bytes.length)

def filled (b : UInt8) : Cid := ⟨List.replicate 20 b, bounded_replicate b⟩

def len (cid : Cid) : Nat := cid.bytes.length

/-- What `{:?}` prints: the length and the buffer, padded with zeros. -/
def debug (cid : Cid) : String :=
  let buffer := cid.bytes ++ List.replicate (maxDcidLen - cid.len) 0
  "Cid \x7b len: " ++ toString cid.len ++ ", bytes: [" ++
    ", ".intercalate (buffer.map toString) ++ "] \x7d"

/-- The prefix that routes packets to the owner of the connection id. -/
def prefixOf (cid : Cid) : Except CidError CidPrefix :=
  if h : quicDcidPrefixLen ≤ cid.len then
    .ok ⟨cid.bytes.take quicDcidPrefixLen, List.length_take_of_le h⟩
  else .error (.tooShortForPrefix cid.len)

end Cid

inductive CipherSuite where
  | aes128Gcm
  | chaCha20Poly1305
  deriving DecidableEq, Repr

def udpQspTrafficSecretLen : Nat := 32

abbrev TrafficSecret := FixedBytes udpQspTrafficSecretLen

/-- A UDP address: the bytes of an IP address and a port. -/
structure SocketAddr where
  ip : Bytes
  port : Nat
  deriving DecidableEq

/-- The kinds of I/O error that some code tells apart. -/
inductive IoErrorKind where
  | wouldBlock
  | timedOut
  | connectionRefused
  | connectionReset
  | connectionAborted
  | permissionDenied
  | notConnected
  | brokenPipe
  | other (code : Nat)
  deriving DecidableEq, Repr

structure IoError where
  kind : IoErrorKind
  detail : String
  deriving DecidableEq, Repr

/-- How the write of a frame to a TCP stream ends. One that fails, or whose
future is dropped, may have written some of its bytes. -/
inductive TcpWrite where
  | done
  | failed (source : IoError) (written : Nat)
  | dropped (written : Nat)
  deriving DecidableEq, Repr

inductive ActiveTransport where
  | tcp
  | udpQsp
  deriving DecidableEq, Repr

end Slt
