import AirTraffic.Cleaning.AltitudeProfile
import AirTraffic.Cleaning.LocalMotion
import AirTraffic.Cleaning.MissingValues
import AirTraffic.Cleaning.Occupancy
import AirTraffic.Cleaning.Outage
import AirTraffic.Cleaning.Spacing
import AirTraffic.Cleaning.Standard
import AirTraffic.Cleaning.Step
import AirTraffic.Cleaning.TrendOutlier
import AirTraffic.CommandLine.Arguments
import AirTraffic.CommandLine.Options
import AirTraffic.CommandLine.Value
import AirTraffic.Decimal.Digits
import AirTraffic.Decimal.Numeral
import AirTraffic.Decimal.Rounding
import AirTraffic.Decimal.Shortest
import AirTraffic.Decimal.Text
import AirTraffic.Encounter.Error
import AirTraffic.Encounter.Forecast
import AirTraffic.Encounter.Instant
import AirTraffic.Encounter.Profile
import AirTraffic.Encounter.Summary
import AirTraffic.Encounter.TrackPair
import AirTraffic.Fit.Inverse
import AirTraffic.Fit.Line
import AirTraffic.Fit.MovingWindow
import AirTraffic.Fit.Polynomial
import AirTraffic.Geo.Angle
import AirTraffic.Geo.LocalPlane
import AirTraffic.Geo.Position
import AirTraffic.Intake
import AirTraffic.Json.Reader
import AirTraffic.Json.Record
import AirTraffic.Json.Value
import AirTraffic.Main
import AirTraffic.Polyline
import AirTraffic.Program
import AirTraffic.Proofs.Cleaning.Chain
import AirTraffic.Proofs.Cleaning.Edits
import AirTraffic.Proofs.Cleaning.Guarantees
import AirTraffic.Proofs.Cleaning.Rerun
import AirTraffic.Proofs.Cleaning.Spacing
import AirTraffic.Proofs.Geo.Pseudometric
import AirTraffic.Proofs.Geo.GreatCircle
import AirTraffic.Proofs.Proximity.Association
import AirTraffic.Proofs.Proximity.BallTree
import AirTraffic.Proofs.Proximity.Isometry
import AirTraffic.Proofs.Proximity.Metric
import AirTraffic.Proofs.Proximity.Pairing
import AirTraffic.Proofs.Proximity.Refusal
import AirTraffic.Proofs.Proximity.Stream
import AirTraffic.Proofs.Proximity.StreamRun
import AirTraffic.Proofs.Scalar.Exact
import AirTraffic.Proofs.TimeShift.Cleaning
import AirTraffic.Proofs.TimeShift.Encounter
import AirTraffic.Proofs.TimeShift.Pairing
import AirTraffic.Proofs.TimeShift.Report
import AirTraffic.Proximity.Association
import AirTraffic.Proximity.BallTree
import AirTraffic.Proximity.Criteria
import AirTraffic.Proximity.CriteriaRecord
import AirTraffic.Proximity.Error
import AirTraffic.Proximity.Metric
import AirTraffic.Proximity.Reckoning
import AirTraffic.Proximity.Screen
import AirTraffic.Proximity.Stream
import AirTraffic.Proximity.Tally
import AirTraffic.Report
import AirTraffic.Report.Blend
import AirTraffic.Scalar
import AirTraffic.Scalar.Binary
import AirTraffic.Scalar.Floating
import AirTraffic.Scalar.Powers
import AirTraffic.Settings
import AirTraffic.Standard
import AirTraffic.Text.Blank
import AirTraffic.Text.Duration
import AirTraffic.Text.Visible
import AirTraffic.TimeSpan
import AirTraffic.Track
import AirTraffic.Track.Nearest
import AirTraffic.Units
import AirTraffic.Proofs.Encounter.Sampling
import AirTraffic.Proofs.Cleaning.Provenance
import AirTraffic.Proofs.Cleaning.Validity
import AirTraffic.Proofs.Encounter.Closest
import AirTraffic.Proofs.Encounter.Complete
import AirTraffic.Proofs.Encounter.Foresight
import AirTraffic.Proofs.Cleaning.Blocks
import AirTraffic.Proofs.Encounter.Approach
import AirTraffic.Proofs.Track.Grouping
import AirTraffic.Proofs.InPlace.Access
import AirTraffic.Proofs.InPlace.Spacing
import AirTraffic.Proofs.InPlace.Neighbours
import AirTraffic.Proofs.InPlace.TrendOutlier
import AirTraffic.Proofs.InPlace.MissingValues
import AirTraffic.Proofs.InPlace.Outage
import AirTraffic.Proofs.InPlace.LocalMotion
import AirTraffic.Proofs.InPlace.MovingWindow
import AirTraffic.Proofs.InPlace.AltitudeProfile
import AirTraffic.Proofs.InPlace.Run
import AirTraffic.Proofs.Encounter.Segment
import AirTraffic.Proofs.InPlace.Separation
import AirTraffic.Proofs.Encounter.Reading
import AirTraffic.Proofs.Encounter.Coverage
import AirTraffic.Proofs.Encounter.Minimum
import AirTraffic.Proofs.Encounter.Closing
import AirTraffic.Proofs.Scalar.Magnitude
import AirTraffic.Proofs.Encounter.Symmetry
import AirTraffic.Proofs.Geo.ShorterArc
import AirTraffic.Proofs.Report.Between
import AirTraffic.Proofs.Track.Reading
import AirTraffic.Proofs.Encounter.Gap
import AirTraffic.Proofs.Report.Subdivision
import AirTraffic.Proofs.Track.Refinement
import AirTraffic.Proofs.Proximity.Pseudometric
import AirTraffic.Proofs.Track.Nearest
import AirTraffic.Proofs.Scalar.Sums
import AirTraffic.Proofs.Fit.Inverse
import AirTraffic.Proofs.Fit.LeastSquares
import AirTraffic.Proofs.Fit.MovingWindow
import AirTraffic.Proofs.Polyline.Exact
import AirTraffic.Proofs.Fit.WeightedMean
import AirTraffic.Proofs.Cleaning.AltitudeProfile
import AirTraffic.Proofs.Cleaning.LocalMotion
import AirTraffic.Proofs.Cleaning.CubicMotion
import AirTraffic.Proofs.Fit.Line
import AirTraffic.Proofs.Fit.Quality
import AirTraffic.Proofs.Cleaning.TrendOutlier
import AirTraffic.Proofs.Cleaning.MissingValues
import AirTraffic.Proofs.Cleaning.LoneOutlier
import AirTraffic.Proofs.Cleaning.StraightTrend
import AirTraffic.Proofs.Cleaning.PositiveAltitude
import AirTraffic.Proofs.Cleaning.Crowding
import AirTraffic.Proofs.Cleaning.Heartbeat
import AirTraffic.Proofs.Cleaning.DeducedSpeed
import AirTraffic.Proofs.Cleaning.NearOutage
import AirTraffic.Proofs.Fit.Residuals
import AirTraffic.Proofs.Scalar.Extended
import AirTraffic.Proofs.Fit.Undetermined
import AirTraffic.Proofs.Proximity.Screen
import AirTraffic.Proofs.Report.Course
import AirTraffic.Proofs.Proximity.BallTree.Leaves
import AirTraffic.Proofs.Proximity.BallTree.Refusal
import AirTraffic.Proofs.Geo.LocalPlane
import AirTraffic.Proofs.Geo.Midpoint
import AirTraffic.Proofs.TimeSpan.Steps
