import SqlTree.Draft.Binary
import SqlTree.Draft.Change
import SqlTree.Draft.Definition
import SqlTree.Draft.Expression
import SqlTree.Draft.Query
import SqlTree.Lock.Config
import SqlTree.Lock.ManagerRun
import SqlTree.Lock.TableRun
import SqlTree.Node.Access
import SqlTree.Node.Resolution
import SqlTree.Proofs.Document.Canonical
import SqlTree.Proofs.Document.Children
import SqlTree.Proofs.Document.Construction
import SqlTree.Proofs.Document.Fields
import SqlTree.Proofs.Document.Finished
import SqlTree.Proofs.Document.Gaps
import SqlTree.Proofs.Document.Image
import SqlTree.Proofs.Document.Revival
import SqlTree.Proofs.Document.ShortForms
import SqlTree.Proofs.Document.SpareMembers
import SqlTree.Proofs.Document.Texts
import SqlTree.Proofs.Draft.Assignments
import SqlTree.Proofs.Draft.BinaryExpressions
import SqlTree.Proofs.Draft.ColumnDefinitions
import SqlTree.Proofs.Draft.Conditions
import SqlTree.Proofs.Draft.Insertions
import SqlTree.Proofs.Draft.TableDefinitions
import SqlTree.Proofs.Draft.Wildcards
import SqlTree.Proofs.Json.Numerals
import SqlTree.Proofs.Json.Reading
import SqlTree.Proofs.Lock.AllOrNothing
import SqlTree.Proofs.Lock.CallEnds
import SqlTree.Proofs.Lock.CallSteps
import SqlTree.Proofs.Lock.Cancellation
import SqlTree.Proofs.Lock.Closing
import SqlTree.Proofs.Lock.Contention
import SqlTree.Proofs.Lock.DroppedTable
import SqlTree.Proofs.Lock.FirstCome
import SqlTree.Proofs.Lock.Holdings
import SqlTree.Proofs.Lock.Ledger
import SqlTree.Proofs.Lock.ManagerScene
import SqlTree.Proofs.Lock.ManagerSound
import SqlTree.Proofs.Lock.NameExclusion
import SqlTree.Proofs.Lock.Places
import SqlTree.Proofs.Lock.Progress
import SqlTree.Proofs.Lock.QueueAccount
import SqlTree.Proofs.Lock.ReaderFirst
import SqlTree.Proofs.Lock.Recreation
import SqlTree.Proofs.Lock.Routes
import SqlTree.Proofs.Lock.TableHistory
import SqlTree.Proofs.Lock.UnfinishedClosing
import SqlTree.Proofs.Lock.WakeCommands
import SqlTree.Proofs.Lock.Wakeup
import SqlTree.Proofs.Node.Completeness
import SqlTree.Proofs.Node.LocalRules
import SqlTree.Proofs.Node.NameResolution
import SqlTree.Proofs.Node.Reads
import SqlTree.Proofs.Node.Registration
import SqlTree.Proofs.Node.Terms
import SqlTree.Proofs.Node.Visibility
import SqlTree.Proofs.Node.WiderScopes
import SqlTree.Proofs.Sql.Grouping
import SqlTree.Proofs.Sql.Identifiers
import SqlTree.Proofs.Sql.Layout
import SqlTree.Proofs.Sql.Names
import SqlTree.Proofs.Sql.Phrases
import SqlTree.Proofs.Text.ByteOrder
import SqlTree.Registry.Description
import SqlTree.Registry.RoundTrip
import SqlTree.School
