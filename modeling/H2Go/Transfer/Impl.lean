import H2Go.Errors
import H2Go.Utf16
import H2Go.Lib.Slice
import H2Go.Lib.BigEndian

/-!
This module contains the transfer stream: the codec for the primitives of the wire protocol over a
buffered reader and writer.
-/

namespace H2Go

open BigEndian

/--
The other end of a connection. It takes the bytes of one flush and answers with the bytes it sends
back.
-/
class Peer (σ : Type) where
  recv : σ → List UInt8 → σ × List UInt8

/--
The peer that has sent all it will ever send.
-/
inductive Silent where
  | mk
  deriving DecidableEq, Repr

instance : Peer Silent where
  recv s _ := (s, [])

inductive Fault where
  | eof
  | timeout
  | reset
  deriving DecidableEq, Repr

def Fault.err : Fault → Err
  | eof => .eof
  | timeout => .timeout
  | reset => .netError

/--
A transfer stream over a connection to the peer `peer`.

`inp` is what the peer has sent and the client has not read, a read beyond it fails with `readFault`.
`held` is the write buffer. The connection takes `writeBudget` more bytes and flushes, then all
writes fail. `past` and `writes` only record: the bytes read so far, and every byte written with the
number of bytes that had been read by then. `fuel` bounds what the peer can add to the input while a
LOB is transferred.
-/
structure Tr (σ : Type) where
  inp : List UInt8
  past : List UInt8
  readFault : Fault
  held : List UInt8
  writes : List (Nat × UInt8)
  writeBudget : Option Nat
  writeFault : Fault
  fuel : Nat
  peer : σ
  deriving DecidableEq, Repr

variable {σ : Type}

instance [Inhabited σ] : Inhabited (Tr σ) :=
  ⟨{ inp := [], past := [], readFault := .eof, held := [], writes := [], writeBudget := none,
     writeFault := .reset, fuel := 0, peer := default }⟩

instance : Input UInt8 (Tr σ) where
  inp := Tr.inp
  move used rest t := { t with inp := rest, past := t.past ++ used }
  inp_move _ _ _ := rfl
  move_move used rest used' rest' t := by simp
  move_nil t := by simp

namespace Tr

def ofBytes (b : List UInt8) : Tr Silent :=
  { inp := b, past := [], readFault := .eof, held := [], writes := [], writeBudget := none,
    writeFault := .reset, fuel := b.length + 1, peer := .mk }

def written (t : Tr σ) : List UInt8 := t.writes.map Prod.snd

/--
What a read returns that finds fewer bytes than it needs, `io.ReadFull`.
-/
def shortErr (t : Tr σ) : Err :=
  match t.readFault with
  | .eof => if t.inp = [] then .eof else .unexpectedEOF
  | fault => fault.err

def accept (p : List UInt8) (t : Tr σ) : Tr σ :=
  { t with held := t.held ++ p, writes := t.writes ++ p.map (fun b => (t.past.length, b)) }

def deliver [Peer σ] (t : Tr σ) : Tr σ :=
  let (peer, reply) := Peer.recv t.peer t.held
  { t with peer := peer, inp := t.inp ++ reply, held := [] }

/--
Write to the buffered writer. A write that the connection does not take as a whole fails, and so do
all writes after it.
-/
def write (p : List UInt8) : Prog Err (Tr σ) Unit := fun t =>
  match t.writeBudget with
  | none => .ok () (t.accept p)
  | some n =>
    if p.length ≤ n then
      .ok () { t.accept p with writeBudget := some (n - p.length) }
    else
      .fail t.writeFault.err { t.accept (p.take n) with writeBudget := some 0 }

def flush [Peer σ] : Prog Err (Tr σ) Unit := fun t =>
  match t.writeBudget with
  | none => .ok () (if t.held = [] then t else t.deliver)
  | some 0 => .fail t.writeFault.err t
  | some (n + 1) =>
    .ok () (if t.held = [] then t else { t.deliver with writeBudget := some n })

def writeByte (x : UInt8) : Prog Err (Tr σ) Unit := write [x]

def writeBool (x : Bool) : Prog Err (Tr σ) Unit := if x then writeByte 1 else writeByte 0

def writeInt32 (x : Int) : Prog Err (Tr σ) Unit := write (intBytes 4 x)

def writeInt64 (x : Int) : Prog Err (Tr σ) Unit := write (intBytes 8 x)

/--
Floats are handled as their IEEE 754 bits.
-/
def writeFloat32 (bits : UInt32) : Prog Err (Tr σ) Unit := writeInt32 bits.toNat

def writeFloat64 (bits : UInt64) : Prog Err (Tr σ) Unit := writeInt64 bits.toNat

def writeString (s : GoString) : Prog Err (Tr σ) Unit :=
  if isASCII s then
    write (beBytes 4 s.length ++ s.flatMap (fun b => [0, b]))
  else
    let data := (Utf8.runes s).flatMap (fun r =>
      if r < 0x10000 then
        unitBytes r
      else
        let r := r - 0x10000
        let hi := 0xD800 ||| (r >>> 10)
        let lo := 0xDC00 ||| (r &&& 0x3FF)
        [UInt8.ofNat (hi >>> 8), UInt8.ofNat hi, UInt8.ofNat (lo >>> 8), UInt8.ofNat lo])
    write (beBytes 4 (data.length / 2) ++ data)

/--
Write a byte slice, `none` is the nil slice.
-/
def writeBytes (b : Option (List UInt8)) : Prog Err (Tr σ) Unit :=
  match b with
  | none => writeInt32 (-1)
  | some b => do
    writeInt32 b.length
    write b

def readFull (n : Nat) : Prog Err (Tr σ) (List UInt8) := Prog.take n shortErr

def readByte : Prog Err (Tr σ) UInt8 := do
  let bs ← readFull 1
  Prog.index bs 0

def readBool : Prog Err (Tr σ) Bool := do
  let b ← readByte
  pure (b != 0)

def readInt16 : Prog Err (Tr σ) Int := do
  let bs ← readFull 2
  pure (beInt bs)

def readInt32 : Prog Err (Tr σ) Int := do
  let bs ← readFull 4
  pure (beInt bs)

def readInt64 : Prog Err (Tr σ) Int := do
  let bs ← readFull 8
  pure (beInt bs)

def readFloat32 : Prog Err (Tr σ) UInt32 := do
  let v ← readInt32
  pure (UInt32.ofInt v)

def readFloat64 : Prog Err (Tr σ) UInt64 := do
  let v ← readInt64
  pure (UInt64.ofInt v)

def rawUnits (raw : List UInt8) (length : Nat) : Prog Err (Tr σ) (List Nat) :=
  Prog.iter length 0 [] (fun i units => do
    let hi ← Prog.index raw (2 * i)
    let lo ← Prog.index raw (2 * i + 1)
    pure (units ++ [hi.toNat * 256 + lo.toNat]))

/--
The loop of `readString` that compacts the low bytes in place.
-/
def compact (raw : List UInt8) : Prog Err (Tr σ) (List UInt8) :=
  Prog.iter (raw.length / 2) 0 raw (fun k raw => do
    let b ← Prog.index raw (2 * k + 1)
    Prog.setIndex raw k b)

/--
Read a string, `none` is the null marker.
-/
def readString : Prog Err (Tr σ) (Option GoString) := do
  let length ← readInt32
  if length = -1 then
    pure none
  else if length = 0 then
    pure (some [])
  else if length < 0 then
    Prog.throw (.errorf "Tr: negative string length %d" [.int length])
  else if length > maxWireLength / 2 then
    Prog.throw (.errorf "Tr: string length %d exceeds wire cap %d bytes"
      [.int length, .int maxWireLength])
  else
    Prog.make (length * 2) maxWireLength
    let raw ← readFull (length.toNat * 2)
    Prog.make length maxWireLength
    let units ← rawUnits raw length.toNat
    if units.all (fun u => u < 0x80) then
      let raw ← compact raw
      let s ← Prog.slice raw 0 length.toNat
      pure (some s)
    else
      pure (some (utf16Decode units))

def readBytes : Prog Err (Tr σ) (Option (List UInt8)) := do
  let length ← readInt32
  if length = -1 then
    pure none
  else if length = 0 then
    pure (some [])
  else if length < 0 then
    Prog.throw (.errorf "Tr: negative bytes length %d" [.int length])
  else if length > maxWireLength then
    Prog.throw (.errorf "Tr: bytes length %d exceeds wire cap %d" [.int length, .int maxWireLength])
  else
    Prog.make length maxWireLength
    let buf ← readFull length.toNat
    pure (some buf)

def readRowCount : Prog Err (Tr σ) Int := readInt64

end Tr

end H2Go
