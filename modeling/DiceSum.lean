import DiceSum.Main
import DiceSum.Proofs.GreedyCut
import DiceSum.Proofs.RunningSum
import DiceSum.Proofs.FaceChoice
import DiceSum.Proofs.TotalRange
import DiceSum.Proofs.Saturation
import DiceSum.Proofs.Significand
import DiceSum.Proofs.EndFaces
import DiceSum.Proofs.Tally
import DiceSum.Proofs.Overflow
import DiceSum.Proofs.Grammar
import DiceSum.Proofs.RowOutcome
import DiceSum.Proofs.FirstFault
import DiceSum.Proofs.RoundTrip
import DiceSum.Proofs.Joining
import DiceSum.Proofs.Continuation
import DiceSum.Proofs.SignedTerms
import DiceSum.Proofs.Reordering
import DiceSum.Proofs.Stream
import DiceSum.Proofs.BracketedTotals
import DiceSum.Proofs.Breakdown
import DiceSum.Proofs.DrawOrder
import DiceSum.Proofs.Composition
import DiceSum.Proofs.RangeCheck
import DiceSum.Proofs.AgreeingBounds
import DiceSum.Proofs.Requests
import DiceSum.Proofs.Log
import DiceSum.Proofs.Lines
import DiceSum.Proofs.Transcript
import DiceSum.Proofs.SignFlip
import DiceSum.Proofs.LineEndings
import DiceSum.Proofs.SkippedLines
import DiceSum.Proofs.LongestMatch
import DiceSum.Proofs.Tiling
import DiceSum.Proofs.Buckets
