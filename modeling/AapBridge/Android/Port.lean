import AapBridge.Android.ByteBuffer

/-! # Ports of the phone

The fields of `AccessoryBridge.Port`, and the messages and the test with which
`PortStatus` tells the accessory about a closed direction and drops a service.
-/

namespace AapBridge.Android

structure Port where
  portNr : Short
  header : ByteBuffer
  inputOpen : Bool
  outputOpen : Bool

/-- The constructor. -/
def Port.create (portNr : Short) : Option Port :=
  ((ByteBuffer.allocate 4).putShort portNr).map fun header =>
    { portNr, header := header.setMark, inputOpen := true, outputOpen := true }

namespace PortStatus

def message (targetPort : Short) (status : UInt8) : List UInt8 :=
  shortBytes targetPort ++ [status, 0]

/-- The bytes `PortStatus.eof` writes to port 0. -/
def eofMessage (targetPort : Short) : List UInt8 := message targetPort 3

/-- The bytes `PortStatus.close` writes to port 0. -/
def closeMessage (targetPort : Short) : List UInt8 := message targetPort 4

/-- The test before `activeServices[...] = null`, in `eof`, `close` and
`onDataReady` alike; both conjuncts read the same field. -/
def cleanupTest (port : Port) : Bool := !port.inputOpen && !port.inputOpen

end PortStatus

end AapBridge.Android
