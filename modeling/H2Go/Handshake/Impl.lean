import H2Go.DSN.Impl
import H2Go.Transfer.Write

/-!
This module contains the credentials and settings a client sends when it connects.
-/

namespace H2Go

open BigEndian

def tcpProtocolVersionMinSupported : Int := tcpProtocolVersion21
def tcpProtocolVersionMaxSupported : Int := tcpProtocolVersion21

class Sha256 where
  sum256 : List UInt8 → List UInt8

variable [Sha256]

def keyPasswordHash (userName password : GoString) : List UInt8 :=
  let u := utf16Encode (userName ++ ascii "@")
  let p := utf16Encode password
  Sha256.sum256 ((u ++ p).flatMap unitBytes)

variable [UnicodeTables]

def userPasswordHash (user password : GoString) : List UInt8 :=
  if user = [] ∧ password = [] then [] else keyPasswordHash (toUpper user) password

namespace Tr

variable {σ : Type}

def writeProperties (props : Params) : Prog Err (Tr σ) Unit :=
  match props with
  | [] => pure ()
  | kv :: props => do
    writeString kv.1
    writeString kv.2
    writeProperties props

def sendCredentials (o : MapOrder) (cfg : ParsedDSN) : Prog Err (Tr σ) Unit := do
  writeInt32 tcpProtocolVersionMinSupported
  writeInt32 tcpProtocolVersionMaxSupported
  writeString cfg.database
  writeString cfg.originalURL
  writeString (toUpper cfg.user)
  writeBytes (some (userPasswordHash cfg.user cfg.password))
  writeBytes none
  let props := sessionPropertyMap o cfg.params
  writeInt32 props.length
  writeProperties props

def propertyFrame (kv : GoString × GoString) : List UInt8 :=
  unitsFrame (utf16Encode kv.1) ++ unitsFrame (utf16Encode kv.2)

def credentialsHeader (cfg : ParsedDSN) (props : Params) : List UInt8 :=
  intBytes 4 tcpProtocolVersionMinSupported ++ (intBytes 4 tcpProtocolVersionMaxSupported
    ++ (unitsFrame (utf16Encode cfg.database) ++ (unitsFrame (utf16Encode cfg.originalURL)
    ++ (unitsFrame (utf16Encode (toUpper cfg.user))
    ++ (bytesFrame (some (userPasswordHash cfg.user cfg.password)) ++ (bytesFrame none
    ++ intBytes 4 props.length))))))

omit [Sha256] [UnicodeTables] in
theorem writes_writeProperties (props : Params)
    : Writes (writeProperties props : Prog Err (Tr σ) _) () (props.flatMap propertyFrame) := by
  induction props with
  | nil => exact Writes.pure ()
  | cons kv props ih =>
    rw [List.flatMap_cons, propertyFrame, List.append_assoc]
    exact (writes_writeString _).bind ((writes_writeString _).bind ih)

theorem writes_sendCredentials (o : MapOrder) (cfg : ParsedDSN)
    : Writes (sendCredentials o cfg : Prog Err (Tr σ) _) ()
        (credentialsHeader cfg (sessionPropertyMap o cfg.params)
          ++ (sessionPropertyMap o cfg.params).flatMap propertyFrame) := by
  unfold sendCredentials credentialsHeader
  simp only [List.append_assoc]
  refine (writes_writeInt32 _).bind ((writes_writeInt32 _).bind ((writes_writeString _).bind
    ((writes_writeString _).bind ((writes_writeString _).bind ((writes_writeBytes _).bind
    ((writes_writeBytes _).bind ((writes_writeInt32 _).bind (writes_writeProperties _))))))))

end Tr

end H2Go
