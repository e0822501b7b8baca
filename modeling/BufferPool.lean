import BufferPool.Size.Class
import BufferPool.Size.Growth
import BufferPool.Memory
import BufferPool.PageMap
import BufferPool.Subpage.Table
import BufferPool.Refusal
import BufferPool.Config.Pool
import BufferPool.Metrics.Counters
import BufferPool.Arena.Basic
import BufferPool.Arena.Lease
import BufferPool.Arena.Return
import BufferPool.Arena.Stats
import BufferPool.Buffer
import BufferPool.View
import BufferPool.Session.Basic
import BufferPool.Session.Command
import BufferPool.Metrics.Publish
import BufferPool.Config.Read
import BufferPool.Logging.Install
import BufferPool.Proofs.Checked
import BufferPool.Proofs.Size
import BufferPool.Proofs.Config
import BufferPool.Proofs.Locator
import BufferPool.Proofs.Subpage
import BufferPool.Proofs.PageMap
import BufferPool.Proofs.Memory
import BufferPool.Proofs.Table.Nodes
import BufferPool.Proofs.Table.Ring
import BufferPool.Proofs.Table.Lists
import BufferPool.Proofs.Table.Slots
import BufferPool.Proofs.Arena.Basic
import BufferPool.Proofs.Arena.Change
import BufferPool.Proofs.Lease
import BufferPool.Proofs.Arena.Chunks
import BufferPool.Proofs.Arena.Books
import BufferPool.Proofs.Arena.Lease
import BufferPool.Proofs.Arena.Return
import BufferPool.Proofs.Arena.Start
import BufferPool.Proofs.Arena.Figures
import BufferPool.Proofs.Arena.Listings
import BufferPool.Proofs.Arena.References
import BufferPool.Proofs.Pool.Basic
import BufferPool.Proofs.Pool.Course
import BufferPool.Proofs.Pool.Lease
import BufferPool.Proofs.Pool.Resize
import BufferPool.Proofs.Pool.Bytes
import BufferPool.Proofs.Pool.Ledger
import BufferPool.Proofs.Pool.Thrift
import BufferPool.Proofs.Size.Class
import BufferPool.Proofs.Size.Growth
import BufferPool.Proofs.Pool.Shortage
import BufferPool.Proofs.Buffer
import BufferPool.Proofs.View
import BufferPool.Proofs.Session.Registry
import BufferPool.Proofs.Session.Basic
import BufferPool.Proofs.Session.Cursors
import BufferPool.Proofs.Session.Contents
import BufferPool.Proofs.Session.Effect
import BufferPool.Proofs.Session.Commands
import BufferPool.Proofs.Session.Handles
import BufferPool.Proofs.Session.Step
import BufferPool.Proofs.Session.Run
import BufferPool.Proofs.Session.Arrays
import BufferPool.Proofs.Session.Release
import BufferPool.Proofs.Session.Pages
import BufferPool.Proofs.Session.Subpages
import BufferPool.Proofs.Session.Sizes
import BufferPool.Proofs.Session.Chunks
import BufferPool.Proofs.Session.Idle
import BufferPool.Proofs.Session.Moves
import BufferPool.Proofs.FirstFit
import BufferPool.Proofs.Arena.Place
import BufferPool.Proofs.Session.Places
import BufferPool.Proofs.Arena.Tally
import BufferPool.Proofs.Pool.Tally
import BufferPool.Proofs.Session.Kept
import BufferPool.Proofs.Session.Balance
import BufferPool.Proofs.Arena.Plain
import BufferPool.Proofs.Pool.Twins
import BufferPool.Proofs.Session.Renamed
import BufferPool.Proofs.Session.Twins
import BufferPool.Proofs.Runs
import BufferPool.Proofs.Slots
import BufferPool.Proofs.Table.Order
import BufferPool.Proofs.Table.Course
import BufferPool.Proofs.Arena.Alike
import BufferPool.Proofs.Arena.Undo
import BufferPool.Proofs.Pool.Undo
import BufferPool.Proofs.Session.Undo
import BufferPool.Proofs.Session.Room
import BufferPool.Proofs.Session.Lineage
import BufferPool.Proofs.Session.Windows
import BufferPool.Proofs.Session.Spared
import BufferPool.Proofs.Session.Stream
import BufferPool.Proofs.Locator.Code
import BufferPool.Proofs.Arena.Packing
import BufferPool.Proofs.Metrics.Publish
import BufferPool.Proofs.Table.Generations
import BufferPool.Proofs.Session.References
