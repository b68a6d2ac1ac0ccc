import RangeRead.Bench.Command
import RangeRead.Bench.Generator
import RangeRead.Channel.Operation
import RangeRead.Error.Values
import RangeRead.Main
import RangeRead.Options.Mapping
import RangeRead.Proofs.Atomicity
import RangeRead.Proofs.Bench.Refusal
import RangeRead.Proofs.Classification
import RangeRead.Proofs.Conservation
import RangeRead.Proofs.Frugality
import RangeRead.Proofs.Options.Acceptance
import RangeRead.Proofs.Options.RoundTrip
import RangeRead.Proofs.Raising
import RangeRead.Proofs.Recovery
import RangeRead.Proofs.Reopening
import RangeRead.Proofs.Reporting
import RangeRead.Proofs.Representation
import RangeRead.Proofs.Sequential
import RangeRead.Proofs.Sharing
import RangeRead.Proofs.Store.Memory
import RangeRead.Proofs.Store.Pinning
import RangeRead.Proofs.Store.Refinement
import RangeRead.Proofs.Store.Requests
import RangeRead.Proofs.Store.Window
import RangeRead.Proofs.Trace.Abandoned
import RangeRead.Proofs.Tracing
import RangeRead.Proofs.Transport.Custody
import RangeRead.Proofs.Transport.Log
import RangeRead.Store.Channel
import RangeRead.Store.Memory
