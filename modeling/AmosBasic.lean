import AmosBasic.Encoding
import AmosBasic.Main
import AmosBasic.Reading.Lemmas
import AmosBasic.Request
import AmosBasic.Session.Operation
import AmosBasic.Source.Lemmas
import AmosBasic.Proofs.Bytes
import AmosBasic.Proofs.Raster.Planes
import AmosBasic.Proofs.Raster.Conversion
import AmosBasic.Proofs.Raster.RoundTrip
import AmosBasic.Proofs.Reading.Passage
import AmosBasic.Proofs.Reading.Cut
import AmosBasic.Proofs.Reading.Outcome
import AmosBasic.Proofs.Reading.Confined
import AmosBasic.Proofs.Reading.Noting
import AmosBasic.Proofs.Reading.Keeping
import AmosBasic.Proofs.Float.Fields
import AmosBasic.Proofs.Float.Rounding
import AmosBasic.Proofs.Float.Scaled
import AmosBasic.Proofs.Float.Binary32
import AmosBasic.Proofs.Float.Literal
import AmosBasic.Proofs.Line.Check
import AmosBasic.Proofs.Line.Grammar
import AmosBasic.Proofs.Line.Record
import AmosBasic.Proofs.Line.Acceptance
import AmosBasic.Proofs.Line.Front
import AmosBasic.Proofs.Line.Failure
import AmosBasic.Proofs.Text.Latin1
import AmosBasic.Proofs.Line.StringBody
import AmosBasic.Proofs.Line.Draft
import AmosBasic.Proofs.Bank.Grammar
import AmosBasic.Proofs.Bank.Images
import AmosBasic.Proofs.Bank.Acceptance
import AmosBasic.Proofs.Bank.Draft
import AmosBasic.Proofs.Bank.Picture
import AmosBasic.Proofs.Bank.Payloads
import AmosBasic.Proofs.Bank.PayloadPlaces
import AmosBasic.Proofs.Decoding.Opening
import AmosBasic.Proofs.Decoding.Cut
import AmosBasic.Proofs.Decoding.Deliveries
import AmosBasic.Proofs.Decoding.RoundTrip
import AmosBasic.Proofs.Session.Listing
import AmosBasic.Proofs.Session.Section
import AmosBasic.Proofs.Session.Opening
import AmosBasic.Proofs.Session.History
import AmosBasic.Proofs.Session.Counters
import AmosBasic.Proofs.Session.Payloads
import AmosBasic.Proofs.Decoding.Course
import AmosBasic.Proofs.Decoding.Agreement
import AmosBasic.Proofs.Decoding.Options
import AmosBasic.Proofs.Decoding.Refusal
import AmosBasic.Proofs.Reading.Endless
import AmosBasic.Proofs.Decoding.Extent
import AmosBasic.Proofs.Decoding.Rasters
import AmosBasic.Proofs.Session.Skipping
import AmosBasic.Proofs.Reading.Pace
import AmosBasic.Proofs.Reading.Draining
import AmosBasic.Proofs.Reading.Requests
import AmosBasic.Proofs.FileTree.Standing
import AmosBasic.Proofs.FileTree.Leading
import AmosBasic.Proofs.FileTree.Growth
import AmosBasic.Proofs.Export.Names
import AmosBasic.Proofs.Reading.Receiving
import AmosBasic.Proofs.Decoding.Answers
import AmosBasic.Proofs.Export.Plan
import AmosBasic.Proofs.Export.Making
import AmosBasic.Proofs.Export.Answers
import AmosBasic.Proofs.Export.Run
import AmosBasic.Proofs.Export.Contents
import AmosBasic.Proofs.Export.Overwriting
import AmosBasic.Proofs.Export.Confinement
import AmosBasic.Proofs.Export.Listing
import AmosBasic.Proofs.Bank.Sizes
import AmosBasic.Proofs.Command.Arguments
import AmosBasic.Proofs.Command.Run
import AmosBasic.Proofs.Text.Numeral
import AmosBasic.Proofs.Line.Number
import AmosBasic.Proofs.Bank.PictureHeader
import AmosBasic.Proofs.Export.Limit
import AmosBasic.Proofs.Float.Nearest
import AmosBasic.Proofs.Float.Shortest
import AmosBasic.Proofs.Text.Decimal
import AmosBasic.Proofs.Float.Text
import AmosBasic.Proofs.Line.FloatText
import AmosBasic.Proofs.Line.Warning
import AmosBasic.Proofs.Command.Grammar
