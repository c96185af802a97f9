import ComputeNet.Text.Blank
import ComputeNet.Ed25519.Signature
import ComputeNet.Address.Derived
import ComputeNet.Commitment
import ComputeNet.Version
import ComputeNet.Error.Basic
import ComputeNet.Account.NetworkConfig
import ComputeNet.Account.NodeInfo
import ComputeNet.Account.Agent
import ComputeNet.Account.Session
import ComputeNet.Account.Task
import ComputeNet.Event.Log
import ComputeNet.Instruction.Draft
import ComputeNet.Instruction.Validation
import ComputeNet.Transaction.Basic
import ComputeNet.Yaml.Document
import ComputeNet.Settings.KeyFile
import ComputeNet.World.Run
import ComputeNet.Proofs.Wait.Course
import ComputeNet.Proofs.Wait.Sightings
import ComputeNet.Proofs.Wait.Informed
import ComputeNet.Proofs.World.Told
import ComputeNet.Proofs.Wait.Answer
import ComputeNet.Proofs.Borsh.Exact
import ComputeNet.Proofs.Status.Filters
import ComputeNet.Proofs.Wait.Overlooked
import ComputeNet.Proofs.Wait.Networks
import ComputeNet.Proofs.History.Batches
import ComputeNet.Proofs.History.Newest
import ComputeNet.Proofs.History.Returned
import ComputeNet.Proofs.History.Plain
import ComputeNet.Proofs.History.Pages
import ComputeNet.Proofs.Feed.Course
import ComputeNet.Proofs.Feed.Moves
import ComputeNet.Proofs.Feed.Delivered
import ComputeNet.Proofs.Wait.Ends
import ComputeNet.Proofs.Wait.Causes
import ComputeNet.Proofs.Wait.Failures
import ComputeNet.Proofs.Text.Utf8
import ComputeNet.Proofs.Text.Base64
import ComputeNet.Proofs.Borsh.Lawful
import ComputeNet.Proofs.Borsh.Cut
import ComputeNet.Proofs.Account.Correspondence
import ComputeNet.Proofs.Address.Distinct
import ComputeNet.Proofs.Status.Window
import ComputeNet.Proofs.Status.Listing
import ComputeNet.Proofs.Status.Unbound
import ComputeNet.Proofs.Wait.Sifted
import ComputeNet.Proofs.Wait.Confluent
import ComputeNet.Proofs.Event.Lines
import ComputeNet.Proofs.Event.Linewise
import ComputeNet.Proofs.Wait.Streams
import ComputeNet.Proofs.Feed.Kept
import ComputeNet.Proofs.World.Streams
import ComputeNet.Proofs.Wait.Timers
import ComputeNet.Proofs.World.Clock
import ComputeNet.Proofs.Wait.Deadlines
import ComputeNet.Proofs.World.Alone
import ComputeNet.Proofs.World.Stored
import ComputeNet.Proofs.History.Live
import ComputeNet.Proofs.History.Filtered
import ComputeNet.Proofs.Instruction.Data
import ComputeNet.Proofs.Account.Cut
import ComputeNet.Proofs.Settings.Scheme
import ComputeNet.Proofs.Transaction.Signers
import ComputeNet.Proofs.Transaction.Sent
import ComputeNet.Proofs.History.Fetched
