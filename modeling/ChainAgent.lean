import ChainAgent.Agent.Rehearsal
import ChainAgent.Agent.Wiring
import ChainAgent.Chain.Executor
import ChainAgent.Chain.Registry
import ChainAgent.Command.Dispatch
import ChainAgent.Digest.Sha256
import ChainAgent.Gateway.Refusal
import ChainAgent.Gateway.Rehearsal
import ChainAgent.Gateway.Service
import ChainAgent.Host.World
import ChainAgent.Knowledge.Binding
import ChainAgent.Ledger.Opening
import ChainAgent.Ledger.Overflow
import ChainAgent.Ledger.Store
import ChainAgent.Main
import ChainAgent.Reasoning.Backend
import ChainAgent.Reasoning.Prompt
import ChainAgent.Reasoning.Reply
import ChainAgent.Settings.Loading
import ChainAgent.Task.Record
import ChainAgent.Text.Lowercase
import ChainAgent.Toml.Printer
import ChainAgent.Toml.Reader
import ChainAgent.Url.Address
import ChainAgent.Proofs.Agent.Persisted
import ChainAgent.Proofs.Ledger.CutLog
import ChainAgent.Proofs.Ledger.Entries
import ChainAgent.Proofs.Ledger.FailedWrites
import ChainAgent.Proofs.Ledger.Interchange
import ChainAgent.Proofs.Ledger.Recency
import ChainAgent.Proofs.Ledger.Reopening
import ChainAgent.Proofs.Gateway.Issuing
import ChainAgent.Proofs.Gateway.Validity
import ChainAgent.Proofs.Gateway.Lockout
import ChainAgent.Proofs.Gateway.Admission
import ChainAgent.Proofs.Gateway.Serving
import ChainAgent.Proofs.Gateway.Bookkeeping
import ChainAgent.Proofs.Text.Redaction
import ChainAgent.Proofs.Agent.History
import ChainAgent.Proofs.Gateway.Counting
import ChainAgent.Proofs.Chain.Messages
import ChainAgent.Proofs.Ledger.FreshIds
import ChainAgent.Proofs.Text.Keys
import ChainAgent.Proofs.Settings.ApiKey
import ChainAgent.Proofs.Settings.RoundTrip
import ChainAgent.Proofs.Gateway.Waiting
import ChainAgent.Proofs.Text.Substitution
import ChainAgent.Proofs.Chain.Batch
import ChainAgent.Proofs.Chain.Execution
import ChainAgent.Proofs.Chain.Observations
import ChainAgent.Proofs.Reasoning.Script
import ChainAgent.Proofs.Reasoning.Prompt
import ChainAgent.Proofs.Knowledge.Lookup
import ChainAgent.Proofs.Reasoning.ScriptPath
import ChainAgent.Proofs.Command.Networks
import ChainAgent.Proofs.Command.History
import ChainAgent.Proofs.Command.Deadline
