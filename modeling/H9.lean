import H9.Lib.Blocks
import H9.Lib.CText
import H9.Lib.Framing
import H9.Lib.Heap
import H9.Lib.IntelHex
import H9.Lib.LR
import H9.Lib.Lines
import H9.Lib.Markup
import H9.Lib.OrdMap
import H9.Lib.Prog
import H9.Lib.Promises
import H9.Lib.Steps
import H9.Lib.Threads
import H9.Lib.Trees
import H9.Frame
import H9.Exits
import H9.Xml
import H9.GenericMsg
import H9.Schema
import H9.Messages
import H9.Socket
import H9.MsgSocket
import H9.Libxml2
import H9.Senders
import H9.Slcan
import H9.SocketCan
import H9.Driver
import H9.RecvData
import H9.BusMgr
import H9.Server
import H9.EventMgr
import H9.SelectLoop
import H9.Device
import H9.Subscriptions
import H9.TCPClientThread
import H9.TCPServer
import H9.FrameSubject
import H9.Node
import H9.DeviceMethods
import H9.Requests
import H9.FramePromises
import H9.SendPromises
import H9.BusSend
import H9.ObserverLife
import H9.SharedMutex
import H9.H9fwu
import H9.Upload
import H9.Ihex
import H9.Expression
import H9.CliParser
import H9.CliLine
import H9.Sniffer
import H9.Proofs.SocketStream
import H9.Proofs.SendFailures
import H9.Proofs.Senders
import H9.Proofs.MsgSocketRecv
import H9.Proofs.SchemaRules
import H9.Proofs.FrameMsg
import H9.Proofs.FrameText
import H9.Proofs.Validity
import H9.Proofs.SlcanText
import H9.Proofs.Packing
import H9.Proofs.SlcanRun
import H9.Proofs.SlcanStream
import H9.Proofs.SlcanLines
import H9.Proofs.RecvData
import H9.Proofs.DriverRules
import H9.Proofs.SendOrder
import H9.Proofs.BusRules
import H9.Proofs.RefCount
import H9.Proofs.ServerRules
import H9.Proofs.EventRules
import H9.Proofs.EventReplies
import H9.Proofs.Copies
import H9.Proofs.Routing
import H9.Proofs.LoopRules
import H9.Proofs.Originator
import H9.Proofs.Registry
import H9.Proofs.Closing
import H9.Proofs.ClientTable
import H9.Proofs.ClientExits
import H9.Proofs.Catching
import H9.Proofs.InFlight
import H9.Proofs.Announcements
import H9.Proofs.Subscriptions
import H9.Proofs.AsyncQueue
import H9.Proofs.Reaper
import H9.Proofs.Observers
import H9.Proofs.ObserverLife
import H9.Proofs.ComparatorOrder
import H9.Proofs.Exclusion
import H9.Proofs.LockProgress
import H9.Proofs.Replies
import H9.Proofs.FramePromises
import H9.Proofs.PromiseExpiry
import H9.Proofs.SendPromises
import H9.Proofs.BusSend
import H9.Proofs.Registers
import H9.Proofs.SettedValue
import H9.Proofs.RegisterValues
import H9.Proofs.DeviceReplies
import H9.Proofs.DeviceMethods
import H9.Proofs.Requests
import H9.Proofs.Conversations
import H9.Proofs.DeviceEvent
import H9.Proofs.Upload
import H9.Proofs.UploadRestarts
import H9.Proofs.Ihex
import H9.Proofs.IhexFormat
import H9.Proofs.Flash
import H9.Proofs.CliStates
import H9.Proofs.CliParser
import H9.Proofs.Precedence
import H9.Proofs.CliLine
import H9.Proofs.Sniffer
