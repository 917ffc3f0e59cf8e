import Overlap.Main
import Overlap.Proofs.Footprint.RowMajor
import Overlap.Proofs.Relation.Intersect
import Overlap.Session
import Overlap.Sexp.Decode
import Overlap.Proofs.Region.Reshape
import Overlap.Proofs.Relation.Shapes
import Overlap.Proofs.Footprint.Disjoint
import Overlap.Proofs.Footprint.Ascending
import Overlap.Proofs.Footprint.Words
import Overlap.Proofs.Footprint.Listing
import Overlap.Proofs.Footprint.Offsets
import Overlap.Proofs.Footprint.Check
import Overlap.Proofs.Footprint.Arrays
import Overlap.Proofs.Footprint.Intervals
import Overlap.Proofs.Footprint.Exact
import Overlap.Proofs.Relation.Telling
import Overlap.Proofs.Session.Subtract
import Overlap.Proofs.Region.Division
import Overlap.Proofs.Relation.Refusals
import Overlap.Proofs.Relation.Lists
import Overlap.Proofs.Axis.Canonical
import Overlap.Proofs.Equation.Bounds
import Overlap.Proofs.Relation.Symmetry
import Overlap.Proofs.Relation.Exchange
import Overlap.Proofs.Relation.Associativity
import Overlap.Proofs.Footprint.Routes
import Overlap.Proofs.Phrase.Grammar
import Overlap.Proofs.Phrase.Meaning
import Overlap.Proofs.Phrase.Readable
import Overlap.Proofs.Phrase.RoundTrip
import Overlap.Proofs.Sexp.Reading
import Overlap.Proofs.Sexp.Regions
import Overlap.Proofs.Footprint.Shape
import Overlap.Proofs.Relation.AxisTold
import Overlap.Proofs.Footprint.Faults
import Overlap.Proofs.Footprint.Stops
import Overlap.Proofs.Report.Texts
import Overlap.Proofs.Relation.Shortcut
import Overlap.Proofs.Relation.Budget
import Overlap.Proofs.Region.Interval
import Overlap.Proofs.Region.Rows
import Overlap.Proofs.Footprint.Encoding
import Overlap.Proofs.Phrase.Viable
import Overlap.Proofs.Phrase.Furthest
import Overlap.Proofs.Sexp.Layouts
import Overlap.Proofs.Sexp.Stable
import Overlap.Proofs.Equation.Euclid
import Overlap.Proofs.Diagnostic.Excerpt
import Overlap.Proofs.Phrase.Terminals
import Overlap.Proofs.Sexp.Flat
import Overlap.Proofs.Sexp.Width
