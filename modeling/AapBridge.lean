import AapBridge.Accessory.BridgeThreads
import AapBridge.Accessory.BulkTransfer
import AapBridge.Accessory.CleanupDeadlock
import AapBridge.Accessory.Dispatch
import AapBridge.Accessory.InBounds
import AapBridge.Accessory.Incarnation
import AapBridge.Accessory.Lifecycle
import AapBridge.Accessory.Message
import AapBridge.Accessory.MessageOrigins
import AapBridge.Accessory.MessageQueue
import AapBridge.Accessory.MessageSizes
import AapBridge.Accessory.Method
import AapBridge.Accessory.PayloadBounds
import AapBridge.Accessory.PortAllocation
import AapBridge.Accessory.QueueOrder
import AapBridge.Accessory.Receiver
import AapBridge.Accessory.SendQueueSpace
import AapBridge.Accessory.Sender
import AapBridge.Accessory.SenderThread
import AapBridge.Accessory.SentFrames
import AapBridge.Accessory.Service
import AapBridge.Accessory.Shutdown
import AapBridge.Accessory.SlotHistory
import AapBridge.Accessory.SlotOwners
import AapBridge.Accessory.SlotUse
import AapBridge.Accessory.StartOrder
import AapBridge.Accessory.StatusEffect
import AapBridge.Accessory.StatusTarget
import AapBridge.Accessory.TableBounds
import AapBridge.Accessory.ThreadSteps
import AapBridge.Accessory.ThreadsJoined
import AapBridge.Accessory.TransferAll
import AapBridge.Accessory.UsbBuffer
import AapBridge.Accessory.UuidList
import AapBridge.Accessory.UuidText
import AapBridge.Android.Alignment
import AapBridge.Android.ByteBuffer
import AapBridge.Android.ContentHandler
import AapBridge.Android.DbusMessage
import AapBridge.Android.DbusMethods
import AapBridge.Android.DbusTypes
import AapBridge.Android.Decoding
import AapBridge.Android.DecodingEnds
import AapBridge.Android.EndOfStream
import AapBridge.Android.Extent
import AapBridge.Android.FrameAtHand
import AapBridge.Android.IntroSpector
import AapBridge.Android.Keepalive
import AapBridge.Android.KeepaliveRuns
import AapBridge.Android.KeepaliveTraffic
import AapBridge.Android.LostConnection
import AapBridge.Android.MethodCalls
import AapBridge.Android.Opening
import AapBridge.Android.PairedAnswers
import AapBridge.Android.PairedRuns
import AapBridge.Android.PendingReplies
import AapBridge.Android.Port
import AapBridge.Android.PortStatus
import AapBridge.Android.PortWrite
import AapBridge.Android.ReceiverProgress
import AapBridge.Android.ReceiverThread
import AapBridge.Android.Registration
import AapBridge.Android.Requests
import AapBridge.Android.TruncatedStream
import AapBridge.Android.WriteOrder
import AapBridge.Lib.BreadthFirst
import AapBridge.Lib.CMemory
import AapBridge.Lib.Cursor
import AapBridge.Lib.EndMark
import AapBridge.Lib.Framing
import AapBridge.Lib.HalfClose
import AapBridge.Lib.Justified
import AapBridge.Lib.Keyed
import AapBridge.Lib.Machine
import AapBridge.Lib.Parallel
import AapBridge.Lib.Ring
import AapBridge.Lib.Utf8
import AapBridge.Lib.Words
import AapBridge.Wire.AccessoryToAndroid
import AapBridge.Wire.AndroidToAccessory
import AapBridge.Wire.ArrayDecoding
import AapBridge.Wire.BodyPosition
import AapBridge.Wire.BulkArrival
import AapBridge.Wire.BulkCompletion
import AapBridge.Wire.BulkDelivery
import AapBridge.Wire.BulkDownload
import AapBridge.Wire.BulkUpload
import AapBridge.Wire.BulkUploadEnd
import AapBridge.Wire.DataDelivery
import AapBridge.Wire.DbusFormat
import AapBridge.Wire.DbusValue
import AapBridge.Wire.FlatDecoding
import AapBridge.Wire.HeaderDecoding
import AapBridge.Wire.MatchRule
import AapBridge.Wire.MethodCall
import AapBridge.Wire.PortAgreement
import AapBridge.Wire.PortFrames
import AapBridge.Wire.ReplyIds
import AapBridge.Wire.StructDecoding
import AapBridge.Wire.TextValues
import AapBridge.Wire.TwoEnds
import AapBridge.Wire.ValueDecoding
