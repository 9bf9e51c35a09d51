import Filestore.Flat
import Filestore.Main
import Filestore.Proofs.Bytes
import Filestore.Proofs.Catalog.Files
import Filestore.Proofs.Catalog.Ledger
import Filestore.Proofs.Chain.Capacity
import Filestore.Proofs.Chain.FillLast
import Filestore.Proofs.Chain.Linked
import Filestore.Proofs.Chain.Packed
import Filestore.Proofs.Chain.Position
import Filestore.Proofs.Chain.Push
import Filestore.Proofs.Checked.File
import Filestore.Proofs.Checked.Fill
import Filestore.Proofs.Checked.Slab
import Filestore.Proofs.Checked.Store
import Filestore.Proofs.Checked.Stream
import Filestore.Proofs.Descriptor
import Filestore.Proofs.Descriptor.Ledger
import Filestore.Proofs.Directory
import Filestore.Proofs.File.Extended
import Filestore.Proofs.File.Extent
import Filestore.Proofs.File.Seek
import Filestore.Proofs.File.Sharing
import Filestore.Proofs.File.Shrink
import Filestore.Proofs.File.Spans
import Filestore.Proofs.File.Truncated
import Filestore.Proofs.File.ZeroTurns
import Filestore.Proofs.Flat.Change
import Filestore.Proofs.Flat.Counts
import Filestore.Proofs.Flat.History
import Filestore.Proofs.Flat.Represents
import Filestore.Proofs.Flat.Step
import Filestore.Proofs.Json
import Filestore.Proofs.Lookup
import Filestore.Proofs.Loop
import Filestore.Proofs.Script.Cut
import Filestore.Proofs.Script.Grammar
import Filestore.Proofs.Script.Lines
import Filestore.Proofs.Script.Omission
import Filestore.Proofs.Script.Remembered
import Filestore.Proofs.Script.Report
import Filestore.Proofs.Script.RoundTrip
import Filestore.Proofs.Script.Session
import Filestore.Proofs.Script.Turns
import Filestore.Proofs.Slab.Exchange
import Filestore.Proofs.Slab.Ledger
import Filestore.Proofs.Slab.Live
import Filestore.Proofs.Store.Atomic
import Filestore.Proofs.Store.Chains
import Filestore.Proofs.Store.Clients
import Filestore.Proofs.Store.Edited
import Filestore.Proofs.Store.Fill
import Filestore.Proofs.Store.FillAtOnce
import Filestore.Proofs.Store.Handles
import Filestore.Proofs.Store.InPlace
import Filestore.Proofs.Store.Lifecycle
import Filestore.Proofs.Store.Naming
import Filestore.Proofs.Store.Progress
import Filestore.Proofs.Store.Reachable
import Filestore.Proofs.Store.ReadUpTo
import Filestore.Proofs.Store.Reply
import Filestore.Proofs.Store.Resize
import Filestore.Proofs.Store.Shrink
import Filestore.Proofs.Store.Sound
import Filestore.Proofs.Store.Split
import Filestore.Proofs.Store.Storage
import Filestore.Proofs.Store.Transfer
import Filestore.Proofs.Store.View
import Filestore.Proofs.Stream.Progress
import Filestore.Proofs.Stream.Read
import Filestore.Proofs.Stream.Ready
import Filestore.Proofs.Stream.Split
import Filestore.Proofs.Stream.Write
import Filestore.Proofs.Stream.WriteStep
import Filestore.Proofs.Text.ByteOrder
import Filestore.Proofs.Text.Numeral
import Filestore.Proofs.Text.Words
import Filestore.Slab.Lemmas
import Filestore.Text.Numeral.Lemmas
import Filestore.Text.Utf8.Lemmas
