import NetworkLabs.Foundations.Memory
import NetworkLabs.Foundations.ByteStream
import NetworkLabs.Foundations.Run
import NetworkLabs.Foundations.While
import NetworkLabs.Foundations.Response
import NetworkLabs.Foundations.Reach
import NetworkLabs.Foundations.History
import NetworkLabs.Foundations.LockOrder
import NetworkLabs.Foundations.LinkedList
import NetworkLabs.Foundations.CString
import NetworkLabs.Foundations.Occurrence
import NetworkLabs.Foundations.FirstSeen
import NetworkLabs.Foundations.LittleEndian
import NetworkLabs.Foundations.ByteOrder
import NetworkLabs.Foundations.NetworkOrder
import NetworkLabs.Foundations.DottedDecimal
import NetworkLabs.Foundations.FirstMatch
import NetworkLabs.Foundations.GoBackN
import NetworkLabs.Mrt.Transmission
import NetworkLabs.Mrt.Encoding
import NetworkLabs.Mrt.Codec
import NetworkLabs.Mrt.Queue
import NetworkLabs.Queue.Linked
import NetworkLabs.Queue.Representation
import NetworkLabs.Queue.Refinement
import NetworkLabs.Queue.Deletion
import NetworkLabs.Mrt.Receiver
import NetworkLabs.Mrt.ReceiverEffects
import NetworkLabs.Mrt.Lifetime
import NetworkLabs.Mrt.Probe
import NetworkLabs.Mrt.AcceptAll
import NetworkLabs.Mrt.SetUp
import NetworkLabs.Mrt.AddressEffects
import NetworkLabs.Mrt.Acceptance
import NetworkLabs.Mrt.Bounds
import NetworkLabs.Mrt.Stream
import NetworkLabs.Mrt.Fifo
import NetworkLabs.Mrt.Drop
import NetworkLabs.Mrt.Leftovers
import NetworkLabs.Mrt.Sender
import NetworkLabs.Mrt.SenderEffects
import NetworkLabs.Mrt.Checksum
import NetworkLabs.Mrt.Flow
import NetworkLabs.Mrt.Close
import NetworkLabs.Mrt.Window
import NetworkLabs.Mrt.Network
import NetworkLabs.Mrt.Established
import NetworkLabs.Mrt.UserCalls
import NetworkLabs.Mrt.Registry
import NetworkLabs.Mrt.Locks
import NetworkLabs.Mrt.SendOrder
import NetworkLabs.Mrt.Messages
import NetworkLabs.Mrt.RoundTrip
import NetworkLabs.Mrt.Retransmission
import NetworkLabs.Mrt.Refinement
import NetworkLabs.Mrt.Reliability
import NetworkLabs.Mrt.Sessions
import NetworkLabs.Mrt.InUse
import NetworkLabs.Mrt.Progress
import NetworkLabs.Mrt.Connecting
import NetworkLabs.Mrt.Closing
import NetworkLabs.Mrt.Programs
import NetworkLabs.Mrt.ProgramEffects
import NetworkLabs.Mrt.SenderProgram
import NetworkLabs.Mrt.ReceiverProgram
import NetworkLabs.Mrt.EndToEnd
import NetworkLabs.Mrt.Hanging
import NetworkLabs.Mrt.LastTurn
import NetworkLabs.Chat.Dpp
import NetworkLabs.Chat.Grammar
import NetworkLabs.Chat.Client
import NetworkLabs.Chat.Language
import NetworkLabs.Chat.Server
import NetworkLabs.Chat.Quit
import NetworkLabs.Chat.Segmentation
import NetworkLabs.Chat.Session
import NetworkLabs.Chat.Shutdown
import NetworkLabs.Chat.Utterances
import NetworkLabs.Chat.Descriptors
import NetworkLabs.Chat.Room
import NetworkLabs.Chat.Relay
import NetworkLabs.Chat.Transcript
import NetworkLabs.Stun.Response
import NetworkLabs.Stun.Symmetry
import NetworkLabs.Stun.Message
import NetworkLabs.Stun.Host
import NetworkLabs.Stun.Held
import NetworkLabs.Stun.Loop
import NetworkLabs.Stun.Received
import NetworkLabs.Stun.AnyHost
import NetworkLabs.Stun.ConeLevel
import NetworkLabs.Stun.Decoding
import NetworkLabs.Stun.Walk
import NetworkLabs.Stun.Verdict
import NetworkLabs.Stun.Mixing
import NetworkLabs.Stun.Visits
import NetworkLabs.Stun.Ending
import NetworkLabs.Stun.Reads
import NetworkLabs.Stun.Footprint
import NetworkLabs.Stun.Level
import NetworkLabs.Stun.ConeTest
import NetworkLabs.Stun.ConeVerdict
