import Khorjin.ConfigurationParser
import Khorjin.DataParser

set_option autoImplicit false

/-!
# The calls on a connected client

The commands that the client writes and its two calls that read a frame. What the
socket delivers is an argument of the calls that read, and so is the clock of the
calls that write.
-/
namespace Khorjin
open ByteMemory
variable {F D : Type} [Platform F D]

def encodeUInt32FixedSize (value : UInt32) : List UInt8 :=
  [(value / 0x1000000).toUInt8, (value / 0x10000).toUInt8, (value / 0x100).toUInt8, value.toUInt8]

/-- The 18 bytes of a command; `timeStamp` is in milliseconds. -/
def commandFrame (self : Client F) (timeStamp : UInt64) (cmd : UInt8) : List UInt8 :=
  let soc := (timeStamp / 1000).toUInt32
  let fracsec := (timeStamp % 1000).toUInt32
  appendChk ([0xAA, 0x41, 0x00, 0x12, (self.idcode / 256).toUInt8, (self.idcode % 256).toUInt8] ++
    encodeUInt32FixedSize soc ++ encodeUInt32FixedSize fracsec ++ [0x00, cmd])

def clearedBuffer (l : List UInt8) : List UInt8 := l ++ List.replicate (BUFER_LENGTH - l.length) 0

def Client.fillRcv (self : Client F) (data : List UInt8) : Client F :=
  { self with bufferRcv := clearedBuffer data }

def stopTransmission (self : Client F) (timeStamp : UInt64) : List UInt8 × Client F :=
  let frame := commandFrame self timeStamp 0x01
  (frame, { self with bufferSnd := clearedBuffer frame, running := false })

def startTransmission (self : Client F) (timeStamp : UInt64) : List UInt8 × Client F :=
  let frame := commandFrame self timeStamp 0x02
  (frame, { self with bufferSnd := clearedBuffer frame, running := true })

structure Chunk where
  data : List UInt8
  nonempty : 0 < data.length
  fits : data.length ≤ BUFER_LENGTH

inductive SocketRead
  /-- No data yet; 0 is returned. -/
  | again
  /-- The connection is closed or broken; -1 is returned. -/
  | failed
  | received (chunk : Chunk)

/-- The loop that reads until something other than 0 is returned: the value returned, the
    bytes read, and the reads that are left. It waits for ever when only 0 is returned. -/
def readLoop : List SocketRead → Option (ℤ × List UInt8 × List SocketRead)
  | [] => none
  | .again :: reads => readLoop reads
  | .failed :: reads => some (-1, [], reads)
  | .received chunk :: reads => some (chunk.data.length, chunk.data, reads)

def requestConfiguration (self : Client F) (timeStamp : UInt64) : List UInt8 × Client F :=
  let frame := commandFrame self timeStamp 0x05
  (frame, { self.fillRcv [] with bufferSnd := clearedBuffer frame })

/-- `getConfiguration` behind its read loop. It ends without a return value unless the
    parser has returned 0. -/
def receiveConfiguration (self : Client F) (data : List UInt8) (sResult : ℤ) :
    Option (Option ℤ × Client F) := do
  let (r, self) ← parseConfigurationFrame (self.fillRcv data)
    (Memory.zeroFilled BUFER_LENGTH data) sResult
  some (if r = 0 then some 0 else none, self)

def getConfiguration (self : Client F) (timeStamp : UInt64) (reads : List SocketRead) :
    Option (List UInt8 × Option ℤ × Client F × List SocketRead) := do
  let (frame, self) := requestConfiguration self timeStamp
  let (sResult, data, reads) ← readLoop reads
  let (r, self) ← receiveConfiguration self data sResult
  some (frame, r, self, reads)

def getDataStream (temps : Temps F) (self : Client F) (reads : List SocketRead) :
    Option (ℤ × Client F × List SocketRead) := do
  let (sResult, data, reads) ← readLoop reads
  let (r, self) ← parseDataFrame temps (self.fillRcv data)
    (Memory.zeroFilled BUFER_LENGTH data) sResult
  some (r, self, reads)

end Khorjin
