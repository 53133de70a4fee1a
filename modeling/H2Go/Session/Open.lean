import H2Go.Handshake.Impl
import H2Go.Session.Impl

/-!
This module contains the handshake on a connection that has been dialed, and the session it opens.
-/

namespace H2Go

def sessionSetID : Int := 12

variable {σ : Type}

namespace Tr

/--
The status of a reply during the handshake. It is stricter than `readStatus`: only `STATUS_OK` goes
on.
-/
def readHandshakeStatus (failed unexpected : String) : Prog Err (Tr σ) Unit := do
  let status ← wrapErr failed [] readInt32
  if status = statusError then
    readH2Error
  else if status = statusOK then
    pure ()
  else
    Prog.throw (.errorf unexpected [.int status])

variable [Peer σ] [Sha256] [UnicodeTables]

/--
The handshake, it returns the protocol version and the autocommit state of the server. The session
id is random and the time zone is taken from the environment.
-/
def handshake (o : MapOrder) (cfg : ParsedDSN) (sessionID timeZoneID : GoString)
    : Prog Err (Tr σ) (Int × Bool) := do
  wrapErr "h2go: send credentials: %w" [] (sendCredentials o cfg)
  wrapErr "h2go: flush credentials: %w" [] flush
  readHandshakeStatus "h2go: read status: %w" "h2go: unexpected status %d"
  let version ← wrapErr "h2go: read version: %w" [] readInt32
  if version ≠ tcpProtocolVersion21 then
    Prog.throw (.wrapf "%w; require protocol 21 / H2 2.4.240+ (got %d)" [.int version]
      .unsupportedServerVersion)
  else do
    wrapErr "h2go: write session set id op: %w" [] (writeInt32 sessionSetID)
    wrapErr "h2go: write session id: %w" [] (writeString sessionID)
    wrapErr "h2go: write timezone id: %w" [] (writeString timeZoneID)
    wrapErr "h2go: flush session set id: %w" [] flush
    readHandshakeStatus "h2go: read session status: %w"
      "h2go: unexpected status %d after session set id"
    let autoCommit ← wrapErr "h2go: read autocommit: %w" [] readBool
    pure (version, autoCommit)

end Tr

namespace Session

theorem closed_of_open : false = true → false = true := id

/--
The session after a handshake that returned `version` and `autoCommit` and left the stream `t`.
-/
def opened (t : Tr σ) (cfg : Config) (version : Int) (autoCommit : Bool) : Session σ :=
  { tr := t, trNil := false, cfg := some cfg, version, autoCommit, dead := false, nextID := 0,
    transportClosed := false, clock := 0, dead_eq := rfl, closed_of_trNil := closed_of_open }

end Session

end H2Go
