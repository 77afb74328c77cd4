import MetadataRegistry.Service.Request
import MetadataRegistry.Main
import MetadataRegistry.TableCall.Request
import MetadataRegistry.Session
import MetadataRegistry.Proofs.Json.Spelling
import MetadataRegistry.Proofs.Json.RoundTrip
import MetadataRegistry.Proofs.Digits
import MetadataRegistry.Proofs.Json.Values
import MetadataRegistry.Proofs.CollectionFlush
import MetadataRegistry.Proofs.Binary64.Rounding
import MetadataRegistry.Proofs.Binary64.Scaling
import MetadataRegistry.Proofs.Binary64.Shortest
import MetadataRegistry.Proofs.Calendar
import MetadataRegistry.Proofs.Identifiers
import MetadataRegistry.Proofs.WrittenTime
import MetadataRegistry.Proofs.ExchangedTime
import MetadataRegistry.Proofs.ExactMetadata
import MetadataRegistry.Proofs.Json.Records
import MetadataRegistry.Proofs.Documents
import MetadataRegistry.Proofs.TableCalls
import MetadataRegistry.Proofs.Merging
import MetadataRegistry.Proofs.InsertedRows
import MetadataRegistry.Proofs.SegmentRows
import MetadataRegistry.Proofs.SegmentSearch
import MetadataRegistry.Proofs.Dictionaries
import MetadataRegistry.Proofs.Failures
import MetadataRegistry.Proofs.Integrity
import MetadataRegistry.Proofs.Json.Reals
import MetadataRegistry.Proofs.Metadata
import MetadataRegistry.Proofs.ReadBack
import MetadataRegistry.Proofs.Log
import MetadataRegistry.Proofs.TenantRows
import MetadataRegistry.Proofs.Checkpoints
import MetadataRegistry.Proofs.Records
import MetadataRegistry.Proofs.ResourceNames
import MetadataRegistry.Proofs.DatabaseLifecycle
import MetadataRegistry.Proofs.ServiceAnswers
import MetadataRegistry.Proofs.SegmentHistory
import MetadataRegistry.Proofs.CellOrder
import MetadataRegistry.Proofs.DeletionSweeps
import MetadataRegistry.Proofs.TenantIsolation
import MetadataRegistry.Proofs.TenantNames
import MetadataRegistry.Proofs.NormalForm
import MetadataRegistry.Proofs.Deadlines
import MetadataRegistry.Proofs.DatabaseCreation
import MetadataRegistry.Proofs.MergedKeys
import MetadataRegistry.Proofs.CheckpointBatches
import MetadataRegistry.Proofs.Retention
import MetadataRegistry.Proofs.RecordEdits
import MetadataRegistry.Proofs.Interleaving
import MetadataRegistry.Proofs.DatabaseLookup
import MetadataRegistry.Proofs.Settings
import MetadataRegistry.Proofs.Pages
import MetadataRegistry.Proofs.TextOrder
import MetadataRegistry.Proofs.TimeOrder
import MetadataRegistry.Proofs.RecordTimes
import MetadataRegistry.Proofs.Listings
import MetadataRegistry.Proofs.AuditTimes
import MetadataRegistry.Proofs.DatabaseNames
import MetadataRegistry.Proofs.IdentifierSpellings
import MetadataRegistry.Proofs.TimeCodecs
import MetadataRegistry.Proofs.IdentifierOrder
