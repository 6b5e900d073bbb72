import LongMatch.Main
import LongMatch.Sequence.Replay
import LongMatch.Proofs.Params.Sizes
import LongMatch.Proofs.Sequence.Maximal
import LongMatch.Proofs.Chunk.Ends
import LongMatch.Proofs.Index.Filing
import LongMatch.Proofs.Index.Recent
import LongMatch.Proofs.Index.Alike
import LongMatch.Proofs.Sequence.Tiling
import LongMatch.Proofs.Sequence.Folding
import LongMatch.Proofs.Scan.Survey
import LongMatch.Proofs.Scan.Moves
import LongMatch.Proofs.Scan.Sound
import LongMatch.Proofs.Scan.Start
import LongMatch.Proofs.Scan.Description
import LongMatch.Proofs.Scan.Work
import LongMatch.Proofs.Scan.Probes
import LongMatch.Proofs.Scan.Recall
import LongMatch.Proofs.Scan.Collect
import LongMatch.Proofs.Scan.HandOff
import LongMatch.Proofs.Scan.Reuse
import LongMatch.Proofs.Scan.Safety
import LongMatch.Proofs.Chunk.Greedy
import LongMatch.Proofs.Chunk.Locality
import LongMatch.Proofs.Scan.Forward
import LongMatch.Proofs.Scan.Ledger
import LongMatch.Proofs.Index.Ring
import LongMatch.Proofs.Index.Log
import LongMatch.Proofs.Scan.Choice
import LongMatch.Proofs.Chunk.Segmentation
import LongMatch.Proofs.Scan.Silent
import LongMatch.Proofs.Scan.Nearest
import LongMatch.Proofs.Scan.Uniform
import LongMatch.Proofs.Params.Adjust
import LongMatch.Proofs.Index.NearMiss
