import TableReport.Main
import TableReport.Proofs.TableOrder.Calls
import TableReport.Proofs.TableOrder.Fault
import TableReport.Proofs.Report.Document
import TableReport.Proofs.TableOrder.Field
import TableReport.Proofs.TableOrder.Direction
import TableReport.Proofs.Report.Sink
import TableReport.Proofs.Folder
import TableReport.Proofs.Run.Outcome
import TableReport.Proofs.Run.Settings
import TableReport.Proofs.TableOrder.Missing
import TableReport.Proofs.Report.Block
import TableReport.Proofs.Size.Count
import TableReport.Proofs.Size.Magnitude
import TableReport.Proofs.Size.Truncation
import TableReport.Proofs.Run.Override
import TableReport.Proofs.Binary64.Order
import TableReport.Proofs.Size.Encoding
import TableReport.Proofs.TableOrder.Float
import TableReport.Proofs.Decimal.Layout
import TableReport.Proofs.Report.FloatText
import TableReport.Proofs.Decimal.Scan
import TableReport.Proofs.Json.Spelling
import TableReport.Proofs.Json.Document
import TableReport.Proofs.Json.Edit
import TableReport.Proofs.Json.Items
import TableReport.Proofs.Table.Variant
import TableReport.Proofs.Snapshot.Variant
import TableReport.Proofs.Quantity.Kind
import TableReport.Proofs.Keyspace.Flushes
import TableReport.Proofs.Report.Percent
import TableReport.Proofs.TableOrder.Keyspace
