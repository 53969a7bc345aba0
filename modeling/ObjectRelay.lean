import ObjectRelay.Address.Host
import ObjectRelay.Address.Literal
import ObjectRelay.Address.Record
import ObjectRelay.Address.Socket
import ObjectRelay.AddressBook
import ObjectRelay.Bytes.BigEndian
import ObjectRelay.Bytes.Hex
import ObjectRelay.Bytes.Octets
import ObjectRelay.Connection.Basic
import ObjectRelay.Connection.Handshake
import ObjectRelay.Connection.Lifetime
import ObjectRelay.Connection.Relay
import ObjectRelay.Distinct
import ObjectRelay.Frame.Codec
import ObjectRelay.Frame.Command
import ObjectRelay.Gossip.Fanout
import ObjectRelay.Gossip.KnownVectors
import ObjectRelay.Gossip.RequestLedger
import ObjectRelay.Hash.Digest
import ObjectRelay.Hash.Sha512
import ObjectRelay.Inventory
import ObjectRelay.Limits
import ObjectRelay.Main
import ObjectRelay.Message.Basic
import ObjectRelay.Message.Wire
import ObjectRelay.Node.Basic
import ObjectRelay.Object.Envelope
import ObjectRelay.Object.Expiry
import ObjectRelay.Object.Payload
import ObjectRelay.Peer.Inbox
import ObjectRelay.Peer.Table
import ObjectRelay.Pool
import ObjectRelay.Service.Basic
import ObjectRelay.Service.Error
import ObjectRelay.Service.Exchange
import ObjectRelay.Service.Launch
import ObjectRelay.Service.Session
import ObjectRelay.Service.Settings
import ObjectRelay.Settings.Arguments
import ObjectRelay.Settings.Basic
import ObjectRelay.Settings.Field
import ObjectRelay.Settings.File
import ObjectRelay.Shuffle
import ObjectRelay.Text.Digits
import ObjectRelay.Text.Invisible
import ObjectRelay.Text.Quoted
import ObjectRelay.Text.Utf8
import ObjectRelay.Toml.Document
import ObjectRelay.Toml.Printer
import ObjectRelay.Toml.Quoted
import ObjectRelay.Toml.Scalar
import ObjectRelay.Toml.Value
import ObjectRelay.Wire.Counted
import ObjectRelay.Wire.Reader
import ObjectRelay.Wire.Varint
import ObjectRelay.Work.Difficulty
import ObjectRelay.Work.Engine
import ObjectRelay.Work.Search
import ObjectRelay.Work.Trial
import ObjectRelay.Proofs.Frame.Resync
import ObjectRelay.Proofs.Distinct
import ObjectRelay.Proofs.Frame.Chunks
import ObjectRelay.Proofs.Gossip.RequestLedger
import ObjectRelay.Proofs.Connection.Speech
import ObjectRelay.Proofs.Connection.Effect
import ObjectRelay.Proofs.Hub.Basic
import ObjectRelay.Proofs.Bytes.BigEndian
import ObjectRelay.Proofs.Connection.Agreement
import ObjectRelay.Proofs.Connection.Ending
import ObjectRelay.Proofs.Hub.Balance
import ObjectRelay.Proofs.Hub.Refetch
import ObjectRelay.Proofs.Hub.Requests
import ObjectRelay.Proofs.Hub.Sending
import ObjectRelay.Proofs.Text.Utf8
import ObjectRelay.Proofs.Wire.Canonical
import ObjectRelay.Proofs.Message.Canonical
import ObjectRelay.Proofs.Frame.Command
import ObjectRelay.Proofs.Message.RoundTrip
import ObjectRelay.Proofs.Frame.Layout
import ObjectRelay.Proofs.Frame.Canonical
import ObjectRelay.Proofs.Frame.Overlong
import ObjectRelay.Proofs.Frame.Recovery
import ObjectRelay.Proofs.Connection.Handshake
import ObjectRelay.Proofs.HashMap
import ObjectRelay.Proofs.Inventory
import ObjectRelay.Proofs.Node.Acceptance
import ObjectRelay.Proofs.Connection.Storing
import ObjectRelay.Proofs.Connection.Memory
import ObjectRelay.Proofs.Peer.Table
import ObjectRelay.Proofs.Hub.Storage
import ObjectRelay.Proofs.Hub.Retention
import ObjectRelay.Proofs.Connection.Meeting
import ObjectRelay.Proofs.Dialogue.Basic
import ObjectRelay.Proofs.Connection.Hearing
import ObjectRelay.Proofs.Dialogue.Handshake
import ObjectRelay.Proofs.Dialogue.Flow
import ObjectRelay.Proofs.Dialogue.Synchronization
import ObjectRelay.Proofs.Hub.Announcement
import ObjectRelay.Proofs.AddressBook.Basic
import ObjectRelay.Proofs.AddressBook.Known
import ObjectRelay.Proofs.AddressBook.Offer
import ObjectRelay.Proofs.Connection.Activation
import ObjectRelay.Proofs.Connection.Opening
import ObjectRelay.Proofs.Hub.Acquaintance
import ObjectRelay.Proofs.Hub.Inheritance
import ObjectRelay.Proofs.Work.Progression
import ObjectRelay.Proofs.Work.Race
import ObjectRelay.Proofs.Work.Report
import ObjectRelay.Proofs.Work.Engine
import ObjectRelay.Proofs.Work.Progress
import ObjectRelay.Proofs.Work.Search
import ObjectRelay.Proofs.Service.Publication
import ObjectRelay.Proofs.Service.Launch
import ObjectRelay.Proofs.Service.Course
import ObjectRelay.Proofs.Service.Offers
import ObjectRelay.Proofs.Service.Atomicity
import ObjectRelay.Proofs.Work.Target
import ObjectRelay.Proofs.Node.Window
import ObjectRelay.Proofs.Object.Identity
import ObjectRelay.Proofs.Hub.Timeouts
import ObjectRelay.Proofs.Frame.Progress
import ObjectRelay.Proofs.Wire.Items
import ObjectRelay.Proofs.AddressBook.Room
import ObjectRelay.Proofs.AddressBook.Latest
import ObjectRelay.Proofs.AddressBook.History
import ObjectRelay.Proofs.AddressBook.Selection
import ObjectRelay.Proofs.Pool.Closing
import ObjectRelay.Proofs.Pool.Dialing
import ObjectRelay.Proofs.Address.Endpoint
import ObjectRelay.Proofs.Pool.Redialing
import ObjectRelay.Proofs.Gossip.Remembrance
import ObjectRelay.Proofs.Text.Digits
import ObjectRelay.Proofs.Address.Literal
import ObjectRelay.Proofs.Address.Display
import ObjectRelay.Proofs.Address.Host
import ObjectRelay.Proofs.Settings.Saving
