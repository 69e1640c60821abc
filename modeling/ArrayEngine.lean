import ArrayEngine.Assoc
import ArrayEngine.Catalogue
import ArrayEngine.Comm.Collective
import ArrayEngine.Comm.World
import ArrayEngine.Data.Basic
import ArrayEngine.Data.Class
import ArrayEngine.Data.Element
import ArrayEngine.Data.Parse
import ArrayEngine.Data.Print
import ArrayEngine.Decimal.Shortest
import ArrayEngine.Device
import ArrayEngine.Dispatch.Entry
import ArrayEngine.Dispatch.Error
import ArrayEngine.Dispatch.Key
import ArrayEngine.Dispatch.Registry
import ArrayEngine.Dispatch.Selection
import ArrayEngine.ElementType
import ArrayEngine.Error
import ArrayEngine.Grid.Basic
import ArrayEngine.Grid.DistTensor
import ArrayEngine.Grid.Distribution
import ArrayEngine.Grid.Error
import ArrayEngine.Grid.Fingerprint
import ArrayEngine.Layout
import ArrayEngine.Machine.Copy
import ArrayEngine.Machine.Memory
import ArrayEngine.Machine.Stream
import ArrayEngine.Named
import ArrayEngine.Report
import ArrayEngine.Scalar.Binary
import ArrayEngine.Scalar.Bytes
import ArrayEngine.Scalar.Conversion
import ArrayEngine.Template.Expand
import ArrayEngine.Template.Input
import ArrayEngine.Template.Literal
import ArrayEngine.Template.Path
import ArrayEngine.Template.Reader
import ArrayEngine.Template.Token
import ArrayEngine.Tensor.Access
import ArrayEngine.Tensor.Basic
import ArrayEngine.Tensor.Cast
import ArrayEngine.Tensor.Copy
import ArrayEngine.Tensor.Error
import ArrayEngine.Tensor.Fill
import ArrayEngine.Tensor.Matrix
import ArrayEngine.Text.Hidden
import ArrayEngine.Text.Quoted
import ArrayEngine.Trap
import ArrayEngine.TypeTable
import ArrayEngine.Workspace
import ArrayEngine.Proofs.Comm.Agreement
import ArrayEngine.Proofs.Comm.Progress
import ArrayEngine.Proofs.Comm.Rounds
import ArrayEngine.Proofs.Effect
import ArrayEngine.Proofs.Machine.Keeps
import ArrayEngine.Proofs.Tensor.Kernels
import ArrayEngine.Proofs.Tensor.Change
import ArrayEngine.Proofs.Tensor.Sound
import ArrayEngine.Proofs.Tensor.Creation
import ArrayEngine.Proofs.Workspace.Sharing
import ArrayEngine.Proofs.Grid.Coordinates
import ArrayEngine.Proofs.Grid.Shares
import ArrayEngine.Proofs.Grid.Resize
import ArrayEngine.Proofs.Machine.Contents
import ArrayEngine.Proofs.Tensor.Contents
import ArrayEngine.Proofs.Grid.Sound
import ArrayEngine.Proofs.Grid.Copy
import ArrayEngine.Proofs.Grid.Elements
import ArrayEngine.Proofs.Comm.Unanimous
import ArrayEngine.Proofs.Grid.Fleet
import ArrayEngine.Proofs.Grid.Lockstep
import ArrayEngine.Proofs.Grid.Mirror
import ArrayEngine.Proofs.Grid.Replies
import ArrayEngine.Proofs.Grid.Layouts
import ArrayEngine.Proofs.Dispatch.NativeKeys
import ArrayEngine.Proofs.Dispatch.GeneralKeys
import ArrayEngine.Proofs.Dispatch.Histories
import ArrayEngine.Proofs.TypeTable.Callers
import ArrayEngine.Proofs.Template.Order
import ArrayEngine.Proofs.Layout.Walk
import ArrayEngine.Proofs.Layout.Box
import ArrayEngine.Proofs.Machine.Bounds
import ArrayEngine.Proofs.Tensor.Bounds
import ArrayEngine.Proofs.Tensor.Transfers
import ArrayEngine.Proofs.Workspace.Bounds
import ArrayEngine.Proofs.Machine.Downloads
import ArrayEngine.Proofs.Tensor.RoundTrip
import ArrayEngine.Proofs.Workspace.RoundTrip
import ArrayEngine.Proofs.Comm.Stages
import ArrayEngine.Proofs.Grid.CopyRounds
import ArrayEngine.Proofs.Grid.Verdict
import ArrayEngine.Proofs.Grid.Congruence
import ArrayEngine.Proofs.Tensor.HostCopies
import ArrayEngine.Proofs.Workspace.Copies
import ArrayEngine.Proofs.Workspace.Devices
import ArrayEngine.Proofs.Machine.Elements
import ArrayEngine.Proofs.Tensor.Fills
import ArrayEngine.Proofs.Workspace.Fills
import ArrayEngine.Proofs.Grid.Failures
import ArrayEngine.Proofs.Dispatch.Casts
import ArrayEngine.Proofs.Tensor.Casts
import ArrayEngine.Proofs.Workspace.Casts
import ArrayEngine.Proofs.Dispatch.Calls
import ArrayEngine.Proofs.Dispatch.Selection
import ArrayEngine.Proofs.Layout.Order
import ArrayEngine.Proofs.Tensor.Packed
import ArrayEngine.Proofs.Workspace.Packed
import ArrayEngine.Proofs.Tensor.Lookups
import ArrayEngine.Proofs.Workspace.Lookups
import ArrayEngine.Proofs.Layout.Columns
import ArrayEngine.Proofs.Tensor.Fresh
import ArrayEngine.Proofs.Tensor.Matrices
import ArrayEngine.Proofs.Workspace.Matrices
import ArrayEngine.Proofs.Grid.Strides
import ArrayEngine.Proofs.Grid.Ranks
import ArrayEngine.Proofs.Dispatch.KeyOrder
import ArrayEngine.Proofs.Template.Positions
import ArrayEngine.Proofs.Template.Reading
import ArrayEngine.Proofs.Machine.Deliveries
import ArrayEngine.Proofs.Tensor.Writes
import ArrayEngine.Proofs.Workspace.Snapshots
import ArrayEngine.Proofs.Layout.Products
import ArrayEngine.Proofs.Layout.Extents
import ArrayEngine.Proofs.Grid.Blocks
