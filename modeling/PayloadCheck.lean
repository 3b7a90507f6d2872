import PayloadCheck.Http.Service
import PayloadCheck.Json.Display
import PayloadCheck.Main
import PayloadCheck.Settings.Launch
import PayloadCheck.Tool.Call
import PayloadCheck.Proofs.Schema.CheckedLocation
import PayloadCheck.Proofs.Schema.Exactness
import PayloadCheck.Proofs.Schema.Report
import PayloadCheck.Proofs.Spec.History
import PayloadCheck.Proofs.Store.History
import PayloadCheck.Proofs.Json.LongInteger
import PayloadCheck.Proofs.Store.Contents
import PayloadCheck.Proofs.Store.Atomicity
import PayloadCheck.Proofs.Yaml.Building
import PayloadCheck.Proofs.Yaml.Writing
import PayloadCheck.Proofs.Loading
import PayloadCheck.Proofs.Yaml.Blameless
import PayloadCheck.Proofs.Store.Holdings
import PayloadCheck.Proofs.Store.Displacement
import PayloadCheck.Proofs.Json.Exactness
import PayloadCheck.Proofs.Coherence
import PayloadCheck.Proofs.Number.Numeral
import PayloadCheck.Proofs.Http.BodyLimit
import PayloadCheck.Proofs.Document.NamesOnce
import PayloadCheck.Proofs.Json.Plain
import PayloadCheck.Proofs.Schema.Written
import PayloadCheck.Proofs.Spec.Listing
import PayloadCheck.Proofs.Store.Operations
import PayloadCheck.Proofs.Surfaces
import PayloadCheck.Proofs.Document.Anchors
import PayloadCheck.Proofs.Document.FalseAlarms
import PayloadCheck.Proofs.Document.Extent
import PayloadCheck.Proofs.Json.PrintedNumber
import PayloadCheck.Proofs.Json.Printing
import PayloadCheck.Proofs.Schema.RoundTrip
import PayloadCheck.Proofs.Schema.Restated
import PayloadCheck.Proofs.Tool.PrintedSchema
import PayloadCheck.Proofs.Schema.Positions
import PayloadCheck.Proofs.Document.Finite
import PayloadCheck.Proofs.Yaml.KeyTexts
import PayloadCheck.Proofs.Schema.Nested
import PayloadCheck.Proofs.Schema.Inlining
import PayloadCheck.Proofs.Schema.Cleared
import PayloadCheck.Proofs.Schema.Layout
import PayloadCheck.Proofs.Schema.Weakening
import PayloadCheck.Proofs.Schema.Assembly
import PayloadCheck.Proofs.Spec.Routes
import PayloadCheck.Proofs.Highlight.Token
import PayloadCheck.Proofs.Highlight.Partition
import PayloadCheck.Proofs.Json.RefusedConstant
import PayloadCheck.Proofs.Text.Position
import PayloadCheck.Proofs.Json.Limits
import PayloadCheck.Proofs.Json.Viability
import PayloadCheck.Proofs.Json.MessagePlace
import PayloadCheck.Proofs.Spec.Order
import PayloadCheck.Proofs.Spec.Pointers
import PayloadCheck.Proofs.Tool.Rejection
