import Tith.Accept.Dispatch
import Tith.Accept.Journey
import Tith.Accept.Loop
import Tith.Accept.Spool
import Tith.Adapter.Assertions
import Tith.Adapter.AtMostOnce
import Tith.Adapter.Basic
import Tith.Adapter.Commit
import Tith.Adapter.Consistent
import Tith.Adapter.Conversion
import Tith.Adapter.Delivers
import Tith.Adapter.Disposition
import Tith.Adapter.Inbound
import Tith.Adapter.Names
import Tith.Adapter.Plan
import Tith.Adapter.Publication
import Tith.Adapter.Publish
import Tith.Adapter.Publishing
import Tith.Adapter.References
import Tith.Adapter.Runs
import Tith.Adapter.Tic
import Tith.Adapter.Unblocked
import Tith.Adapter.World
import Tith.Bso.BusyLock
import Tith.Bso.Correlate
import Tith.Bso.Destination
import Tith.Bso.Invertible
import Tith.Bso.Layout
import Tith.Bso.Recovery
import Tith.Bso.Reference
import Tith.Bso.Sweeps
import Tith.Config.Basic
import Tith.Config.Closure
import Tith.Config.Parse
import Tith.Config.Pattern
import Tith.Config.References
import Tith.Config.Syntax
import Tith.Config.Times
import Tith.Config.Written
import Tith.Crypto.Basic
import Tith.Deliver.Exchange
import Tith.Deliver.Outcomes
import Tith.Deliver.Pass
import Tith.Deliver.PassOnce
import Tith.Deliver.Reroute
import Tith.Deliver.Returned
import Tith.Deliver.Schedule
import Tith.Exchange.Authenticity
import Tith.Exchange.Classification
import Tith.Exchange.Receive
import Tith.Exchange.Response
import Tith.Exchange.Session
import Tith.Exchange.SessionOrder
import Tith.Ipc.Canonical
import Tith.Ipc.Control
import Tith.Ipc.Document
import Tith.Ipc.Framer
import Tith.Ipc.Framing
import Tith.Ipc.Marks
import Tith.Ipc.Requests
import Tith.Ipc.Results
import Tith.Ipc.RoundTrip
import Tith.Ipc.Service
import Tith.Ipc.Streams
import Tith.Ipc.Submit
import Tith.Ledger.Basic
import Tith.Ledger.Codec
import Tith.Legacy.Address
import Tith.Legacy.Body
import Tith.Legacy.Calendar
import Tith.Legacy.Compatibility
import Tith.Legacy.Control
import Tith.Legacy.Convert
import Tith.Legacy.DateTime
import Tith.Legacy.Days
import Tith.Legacy.Fitting
import Tith.Legacy.FiveDimensional
import Tith.Legacy.Packet
import Tith.Legacy.ReadBack
import Tith.Legacy.Retained
import Tith.Lib.Base64
import Tith.Lib.Bytes
import Tith.Lib.Chain
import Tith.Lib.Decoder
import Tith.Lib.DepthFirst
import Tith.Lib.Except
import Tith.Lib.FirstFit
import Tith.Lib.Glob
import Tith.Lib.Hex
import Tith.Lib.List
import Tith.Lib.Machine
import Tith.Lib.Path
import Tith.Lib.Program
import Tith.Lib.Search
import Tith.Lib.Source
import Tith.Lib.StateExcept
import Tith.Lib.Table
import Tith.Lib.Text
import Tith.Lib.Triple
import Tith.Lib.Utf8
import Tith.Lib.Varint
import Tith.Nodelist.Canonical
import Tith.Nodelist.Document
import Tith.Nodelist.Endpoint
import Tith.Nodelist.FlagText
import Tith.Nodelist.Flags
import Tith.Nodelist.Hierarchy
import Tith.Nodelist.Lemmas.Validator
import Tith.Nodelist.Lookup
import Tith.Nodelist.ReadBack
import Tith.Nodelist.Server
import Tith.Nodelist.Stream
import Tith.Router.Route
import Tith.Router.Selection
import Tith.Router.Selectors
import Tith.Router.Tree
import Tith.Server.Account
import Tith.Server.Copies
import Tith.Server.Exchange
import Tith.Server.Holds
import Tith.Server.Settles
import Tith.Store.Basic
import Tith.Store.ClaimInvariant
import Tith.Store.ClaimTokens
import Tith.Store.Codec
import Tith.Store.Control
import Tith.Store.Delivery
import Tith.Store.DeliveryInvariant
import Tith.Store.Duplicates
import Tith.Store.EventLog
import Tith.Store.ExactlyOnce
import Tith.Store.Identifiers
import Tith.Store.Inbound
import Tith.Store.KeyContinuity
import Tith.Store.KeyPins
import Tith.Store.Lemmas.Copies
import Tith.Store.Lemmas.Events
import Tith.Store.Lemmas.Frames
import Tith.Store.Lemmas.InboundCases
import Tith.Store.Lemmas.Inbox
import Tith.Store.Lemmas.Jobs
import Tith.Store.Lemmas.Ledger
import Tith.Store.Lemmas.OutboundCases
import Tith.Store.Lemmas.Tokens
import Tith.Store.Lemmas.Touches
import Tith.Store.Lemmas.Writes
import Tith.Store.Lossless
import Tith.Store.Machine
import Tith.Store.Outbound
import Tith.Store.PollSnapshot
import Tith.Store.Submission
import Tith.Submission.Distribution
import Tith.Submission.Forward
import Tith.Submission.Trail
import Tith.Wire.Address
import Tith.Wire.Agreement
import Tith.Wire.Build
import Tith.Wire.BuildItem
import Tith.Wire.Bundle
import Tith.Wire.Carrier
import Tith.Wire.Common
import Tith.Wire.Describe
import Tith.Wire.Identity
import Tith.Wire.Integer
import Tith.Wire.IntegerCodec
import Tith.Wire.Item
import Tith.Wire.Lemmas.Address
import Tith.Wire.Lemmas.Build
import Tith.Wire.Lemmas.Carrier
import Tith.Wire.Lemmas.Codec
import Tith.Wire.Lemmas.Cursor
import Tith.Wire.Lemmas.Integer
import Tith.Wire.Lemmas.Item
import Tith.Wire.Lemmas.Layout
import Tith.Wire.Lemmas.Parse
import Tith.Wire.Lemmas.Provenance
import Tith.Wire.Lemmas.ReadBack
import Tith.Wire.Lemmas.ReadItem
import Tith.Wire.Lemmas.Repeats
import Tith.Wire.Lemmas.Tlv
import Tith.Wire.Lemmas.Trimmed
import Tith.Wire.Lemmas.Validate
import Tith.Wire.Originated
import Tith.Wire.ReadItem
import Tith.Wire.Readable
import Tith.Wire.Renumber
import Tith.Wire.Replaces
import Tith.Wire.RoundTrip
import Tith.Wire.Spelling
import Tith.Wire.Streaming
import Tith.Wire.Suffix
import Tith.Wire.Tlv
import Tith.Wire.Trimmed
import Tith.Wire.Types
