import ResourceQuery.Enumeration.Race
import ResourceQuery.Enumeration.Rack
import ResourceQuery.Enumeration.Schedule
import ResourceQuery.Enumeration.Workspace
import ResourceQuery.Filter.Report
import ResourceQuery.Json.Record
import ResourceQuery.Proofs.DateTime.Grammar
import ResourceQuery.Proofs.DateTime.Written
import ResourceQuery.Proofs.Enumeration.Cancellation
import ResourceQuery.Proofs.Enumeration.Draining
import ResourceQuery.Proofs.Enumeration.Exhaustion
import ResourceQuery.Proofs.Enumeration.Laziness
import ResourceQuery.Proofs.Enumeration.Paging
import ResourceQuery.Proofs.Enumeration.Racing
import ResourceQuery.Proofs.Enumeration.ReadAhead
import ResourceQuery.Proofs.Enumeration.Streaming
import ResourceQuery.Proofs.Enumeration.Waiting
import ResourceQuery.Proofs.Filter.Brackets
import ResourceQuery.Proofs.Filter.Envelope
import ResourceQuery.Proofs.Filter.Obtainable
import ResourceQuery.Proofs.Filter.Refusal
import ResourceQuery.Proofs.Filter.Rendering
import ResourceQuery.Proofs.Schema.Recency
import ResourceQuery.Proofs.Schema.Transparency
import ResourceQuery.Proofs.Text.Identifier
