import AcousticNode.Bytes.Hex
import AcousticNode.Bytes.Enumeration
import AcousticNode.Wire.Limits
import AcousticNode.Fault
import AcousticNode.Wire.Checksum
import AcousticNode.Wire.Binary
import AcousticNode.Table
import AcousticNode.Wire.Routing
import AcousticNode.Wire.Layout
import AcousticNode.Module.Readings
import AcousticNode.Module.Hydrophone
import AcousticNode.Module.Network
import AcousticNode.Module.Reporting
import AcousticNode.Module.Record
import AcousticNode.Module.Basic
import AcousticNode.Payload.Basic
import AcousticNode.Packet
import AcousticNode.Calendar
import AcousticNode.Json.Reader
import AcousticNode.Json.Writer
import AcousticNode.Configuration.Document
import AcousticNode.Store.File
import AcousticNode.Link
import AcousticNode.HydrophoneCache
import AcousticNode.Node.Basic
import AcousticNode.Outline.Payload
import AcousticNode.Main
import AcousticNode.Proofs.Packet.RoundTrip
import AcousticNode.Proofs.Packet.Acceptance
import AcousticNode.Proofs.Packet.Corruption
import AcousticNode.Proofs.Node.Acknowledgement
import AcousticNode.Proofs.Node.ValidConfiguration
import AcousticNode.Proofs.Node.Redelivery
import AcousticNode.Proofs.Node.Dispatch
import AcousticNode.Proofs.Node.Exchange
import AcousticNode.Proofs.Node.Query
import AcousticNode.Proofs.Node.Recollection
import AcousticNode.Proofs.Node.Itinerary
import AcousticNode.Proofs.Node.Drain
import AcousticNode.Proofs.Node.Storage
import AcousticNode.Proofs.Node.Reports
import AcousticNode.Proofs.Module.Encoding
import AcousticNode.Proofs.Grammar.Values
import AcousticNode.Proofs.Packet.Canonical
import AcousticNode.Proofs.Node.Resemblance
import AcousticNode.Proofs.Node.Separation
import AcousticNode.Proofs.Configuration.Parts
import AcousticNode.Proofs.Configuration.Listing
import AcousticNode.Proofs.Module.Framing
import AcousticNode.Proofs.Module.Taking
import AcousticNode.Proofs.Store.Saving
import AcousticNode.Proofs.CommandLine.HexArgument
import AcousticNode.Proofs.CommandLine.Request
import AcousticNode.Proofs.Store.Remnant
