import Interleave.Main
import Interleave.Merge.Bench
import Interleave.Proofs.Log.Blame
import Interleave.Proofs.Log.Excerpt
import Interleave.Proofs.Log.Thinning
import Interleave.Proofs.Merge.Attachment
import Interleave.Proofs.Merge.Counting
import Interleave.Proofs.Merge.Exchange
import Interleave.Proofs.Merge.Handling
import Interleave.Proofs.Merge.Limits
import Interleave.Proofs.Merge.Ordering
import Interleave.Proofs.Merge.Outline
import Interleave.Proofs.Merge.Pacing
import Interleave.Proofs.Merge.Ranking
import Interleave.Proofs.Merge.Recovery
import Interleave.Proofs.Merge.Rotation
import Interleave.Proofs.Merge.Stopping
import Interleave.Proofs.Merge.Trace
import Interleave.Proofs.Merge.Truncation
import Interleave.Proofs.Program.Completion
import Interleave.Proofs.Program.Warnings
import Interleave.Proofs.Settings.Separation
import Interleave.Proofs.Time.Chronology
import Interleave.Proofs.Time.Dates
import Interleave.Proofs.Time.Offsets
