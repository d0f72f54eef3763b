import RuntimeLog.Main
import RuntimeLog.Proofs.Reading.Resumption
import RuntimeLog.Proofs.Stream.Buffering
import RuntimeLog.Proofs.LogReader.Decoding
import RuntimeLog.Proofs.LogReader.Opening
import RuntimeLog.Proofs.LogReader.Session
import RuntimeLog.Proofs.LogReader.Schedule
import RuntimeLog.Proofs.LogReader.Records
import RuntimeLog.Proofs.LogReader.Drain
import RuntimeLog.Proofs.Update
import RuntimeLog.Proofs.Forest.Atomicity
import RuntimeLog.Proofs.LogReader.Faults
import RuntimeLog.Proofs.LogReader.History
import RuntimeLog.Proofs.Jitlog.History
import RuntimeLog.Proofs.Forest.Steps
import RuntimeLog.Proofs.Forest.Outline
import RuntimeLog.Proofs.Forest.Tracking
import RuntimeLog.Proofs.Forest.Ties
import RuntimeLog.Proofs.Forest.Indexes
import RuntimeLog.Proofs.Forest.Links
import RuntimeLog.Proofs.Space.Nearest
import RuntimeLog.Proofs.Space.Lookup
import RuntimeLog.Proofs.Space.Traces
import RuntimeLog.Proofs.Space.Declared
import RuntimeLog.Proofs.CallTree.Layout
import RuntimeLog.Proofs.Stack.TagCounts
import RuntimeLog.Proofs.CallTree.Stacks
import RuntimeLog.Proofs.CallTree.Folding
import RuntimeLog.Proofs.CallTree.Counts
import RuntimeLog.Proofs.CallTree.Pruning
import RuntimeLog.Proofs.CallTree.VirtualCounts
import RuntimeLog.Proofs.Reading.Exactness
import RuntimeLog.Proofs.LogReader.Dialects
import RuntimeLog.Proofs.LogReader.Requests
import RuntimeLog.Proofs.Forest.Alike
import RuntimeLog.Proofs.Jitlog.Records
import RuntimeLog.Proofs.Jitlog.Replay
import RuntimeLog.Proofs.Jitlog.SourceLines
import RuntimeLog.Proofs.Profile.Records
import RuntimeLog.Proofs.Profile.Description
import RuntimeLog.Proofs.Forest.MachineCode
import RuntimeLog.Proofs.Forest.CodeHistory
import RuntimeLog.Proofs.LogReader.Truncation
import RuntimeLog.Proofs.Stream.Reception
import RuntimeLog.Proofs.LogReader.Replies
import RuntimeLog.Proofs.LogReader.Steps
import RuntimeLog.Proofs.Reading.Causes
import RuntimeLog.Proofs.Jitlog.Causes
import RuntimeLog.Proofs.LogReader.Finishing
import RuntimeLog.Proofs.Stream.Losses
import RuntimeLog.Proofs.LogReader.Retries
import RuntimeLog.Proofs.Trace.Growth
import RuntimeLog.Proofs.Forest.Growth
import RuntimeLog.Proofs.Pprof.Tables
import RuntimeLog.Proofs.Pprof.Consistency
import RuntimeLog.Proofs.Jitlog.Attachments
import RuntimeLog.Proofs.Forest.Attachments
import RuntimeLog.Proofs.Forest.Credits
import RuntimeLog.Proofs.Forest.Targets
import RuntimeLog.Proofs.Forest.Tallies
import RuntimeLog.Proofs.Forest.Totals
import RuntimeLog.Proofs.LogReader.Continuation
import RuntimeLog.Proofs.Forest.CounterOrder
import RuntimeLog.Proofs.Forest.Conservation
import RuntimeLog.Proofs.CallTree.NodeSums
import RuntimeLog.Proofs.Space.VirtualNames
import RuntimeLog.Proofs.Stack.Tagging
import RuntimeLog.Proofs.Space.CompiledFrames
import RuntimeLog.Proofs.Stats.Agreement
import RuntimeLog.Proofs.Jitlog.Insertions
import RuntimeLog.Proofs.Stack.Spreading
import RuntimeLog.Proofs.CallTree.Repetition
import RuntimeLog.Proofs.LogReader.Calls
import RuntimeLog.Proofs.LogReader.Tiling
import RuntimeLog.Proofs.LogReader.Conveyance
import RuntimeLog.Proofs.LogReader.Transparency
import RuntimeLog.Proofs.Trace.Overlays
import RuntimeLog.Proofs.Space.Bisection
import RuntimeLog.Proofs.Space.Soundness
import RuntimeLog.Proofs.Space.Overlaps
import RuntimeLog.Proofs.Forest.Occupancy
import RuntimeLog.Proofs.Reading.Fields
import RuntimeLog.Proofs.LogReader.Headers
import RuntimeLog.Proofs.Forest.MergePoints
import RuntimeLog.Proofs.Forest.Extraction
import RuntimeLog.Proofs.Jitlog.Layouts
import RuntimeLog.Proofs.Jitlog.Spellings
import RuntimeLog.Proofs.Jitlog.MergePoints
import RuntimeLog.Proofs.Stack.CloneSuffixes
import RuntimeLog.Proofs.CallTree.Walks
import RuntimeLog.Proofs.Pprof.Messages
import RuntimeLog.Proofs.Forest.Entries
