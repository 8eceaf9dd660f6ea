import ControllerBench.Describe
import ControllerBench.Json.Record
import ControllerBench.Main
import ControllerBench.Proofs.Delivery.Naming
import ControllerBench.Proofs.Dispatch.Interference
import ControllerBench.Proofs.Dispatch.Snapshot
import ControllerBench.Proofs.Judging.Shutdown
import ControllerBench.Proofs.Judging.Backpressure
import ControllerBench.Proofs.Delivery.Stopping
import ControllerBench.Proofs.Observation.Sharing
import ControllerBench.Proofs.Observation.Subsequence
import ControllerBench.Proofs.Observation.Assignment
import ControllerBench.Proofs.Observation.Callers
import ControllerBench.Proofs.Observation.Matching
import ControllerBench.Proofs.Observation.Account
import ControllerBench.Proofs.Observation.Targets
import ControllerBench.Proofs.Observation.Widening
import ControllerBench.Proofs.Demo.Replicas
import ControllerBench.Reaction
import ControllerBench.Scenario.Program
import ControllerBench.Scenario.Reporting
import ControllerBench.Scenario.Session
import ControllerBench.Scenario.Template
import ControllerBench.Scenario.Trigger
import ControllerBench.Proofs.Dispatch.Calls
import ControllerBench.Proofs.Dispatch.Sequential
import ControllerBench.Proofs.Dispatch.Replay
import ControllerBench.Proofs.Dispatch.Conduct
import ControllerBench.Proofs.Judging.Case
import ControllerBench.Proofs.Judging.Window
import ControllerBench.Proofs.Dispatch.Budget
import ControllerBench.Proofs.Dispatch.Limits
import ControllerBench.Proofs.Judging.Leaving
import ControllerBench.Proofs.Store.FiniteMap
