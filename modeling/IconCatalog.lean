import IconCatalog.Main
import IconCatalog.Proofs.Source.Token
import IconCatalog.Proofs.Source.Expression
import IconCatalog.Proofs.Source.Body
import IconCatalog.Proofs.Table.Grammar
import IconCatalog.Proofs.Source.Occurrence
import IconCatalog.Proofs.Table.Header
import IconCatalog.Proofs.Enumeration.Header
import IconCatalog.Proofs.Source.Series
import IconCatalog.Proofs.Layout
import IconCatalog.Proofs.Table.Printed
import IconCatalog.Proofs.Table.RoundTrip
import IconCatalog.Proofs.Table.Icon
import IconCatalog.Proofs.Enumeration.Grammar
import IconCatalog.Proofs.Enumeration.Printed
import IconCatalog.Proofs.Enumeration.RoundTrip
import IconCatalog.Proofs.Disk
import IconCatalog.Proofs.Run
import IconCatalog.Proofs.Json.Literal
import IconCatalog.Proofs.Json.Value
import IconCatalog.Proofs.Disk.Growth
import IconCatalog.Proofs.Settings.Document
import IconCatalog.Proofs.Settings.Store
import IconCatalog.Proofs.Settings.Change
import IconCatalog.Proofs.Disk.Tree
import IconCatalog.Proofs.Run.Folder
import IconCatalog.Proofs.Seed.Plant
import IconCatalog.Proofs.RemotePattern.Patch
import IconCatalog.Proofs.RemotePattern.Config
import IconCatalog.Proofs.Command.Init
import IconCatalog.Proofs.Edit.Perform
import IconCatalog.Proofs.Edit.Selection
import IconCatalog.Proofs.Table.File
import IconCatalog.Proofs.Enumeration.File
import IconCatalog.Proofs.Sorted
import IconCatalog.Proofs.Seed.Source
import IconCatalog.Proofs.Edit.Revision
import IconCatalog.Proofs.Edit.State
import IconCatalog.Proofs.Edit.Catalog
import IconCatalog.Proofs.Edit.Interrupted
import IconCatalog.Proofs.Edit.Cycle
import IconCatalog.Proofs.Table.Reread
import IconCatalog.Proofs.Table.Annotated
import IconCatalog.Proofs.Enumeration.Reread
import IconCatalog.Proofs.Edit.Reread
import IconCatalog.Proofs.ImageHelper
import IconCatalog.Proofs.Edit.Retarget
import IconCatalog.Proofs.Settings.Document
import IconCatalog.Proofs.Disk.Tree
import IconCatalog.Proofs.Run.Folder
import IconCatalog.Proofs.Seed.Plant
import IconCatalog.Proofs.RemotePattern.Config
import IconCatalog.Proofs.Command.Init
import IconCatalog.Proofs.ImageHelper.Opening
import IconCatalog.Proofs.ImageHelper.Extent
import IconCatalog.Proofs.ImageHelper.Splice
import IconCatalog.Proofs.ImageHelper.Frame
import IconCatalog.Proofs.ImageHelper.Settled
import IconCatalog.Proofs.ImageHelper.Again
import IconCatalog.Proofs.Enumeration.Value
import IconCatalog.Proofs.Edit.Step
import IconCatalog.Proofs.Edit.Layout
import IconCatalog.Proofs.Source.Comment
import IconCatalog.Proofs.Comment
import IconCatalog.Proofs.Disk.Path
import IconCatalog.Proofs.Settings.Target
import IconCatalog.Proofs.Source.Reading
import IconCatalog.Proofs.Refusal
import IconCatalog.Proofs.Source.Search
import IconCatalog.Proofs.Indented
import IconCatalog.Proofs.RemotePattern.Array
import IconCatalog.Proofs.RemotePattern.Append
