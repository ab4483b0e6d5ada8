import Gallery.Main
import Gallery.Path.Components
import Gallery.Proofs.Layout.Greedy
import Gallery.Proofs.Layout.Coverage
import Gallery.Proofs.Layout.ExactFit
import Gallery.Proofs.Layout.Faults
import Gallery.Proofs.Layout.Monotone
import Gallery.Proofs.Layout.Growth
import Gallery.Proofs.Layout.Restart
import Gallery.Proofs.Layout.Scaling
import Gallery.Proofs.Layout.Uniform
import Gallery.Proofs.Cache.Contents
import Gallery.Proofs.Cache.History
import Gallery.Proofs.Cache.Eviction
import Gallery.Proofs.Cache.Keys
import Gallery.Proofs.Cache.Capacity
import Gallery.Proofs.Cache.Racing
import Gallery.Proofs.Cache.Size
import Gallery.Proofs.Cache.Encoding
import Gallery.Proofs.Image.Settled
import Gallery.Proofs.Image.Fields
import Gallery.Proofs.Image.Sequences
import Gallery.Proofs.Image.Header
import Gallery.Proofs.Scan.Transparency
import Gallery.Proofs.Session.Passes
import Gallery.Proofs.Session.Counts
import Gallery.Proofs.Session.Unbroken
import Gallery.Proofs.Session.FailStop
import Gallery.Proofs.Session.Geometry
import Gallery.Proofs.Session.Accounts
import Gallery.Proofs.Output.Document
import Gallery.Proofs.Tree.Resolution
import Gallery.Proofs.Scan.Discovery
import Gallery.Proofs.Scan.Freshness
import Gallery.Proofs.Path.Joined
import Gallery.Proofs.Scan.Walk
import Gallery.Proofs.Scan.Exactness
import Gallery.Proofs.Scan.Rescan
import Gallery.Proofs.Scan.Balance
import Gallery.Proofs.Output.Passes
import Gallery.Proofs.Output.Truncation
import Gallery.Proofs.Text.Ascii
import Gallery.Proofs.Command.Failure
import Gallery.Proofs.Command.Widths
import Gallery.Json.Reader
import Gallery.Proofs.Json.Number
import Gallery.Proofs.Json.Text
import Gallery.Proofs.Json.Reading
import Gallery.Output.Record
import Gallery.Proofs.Output.Lines
import Gallery.Proofs.Output.Stylesheet
import Gallery.Proofs.Output.Listing
