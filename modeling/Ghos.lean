import Ghos.Lib.Machine
import Ghos.Lib.Bounded
import Ghos.Lib.Store
import Ghos.Lib.CommitReveal
import Ghos.Lib.Borsh
import Ghos.Lib.Modular
import Ghos.Lib.DiscreteLog
import Ghos.Lib.ElGamal
import Ghos.Lib.JsText
import Ghos.Lib.Retry
import Ghos.Lib.Sigma
import Ghos.Lib.Tlv
import Ghos.Lib.Rounding
import Ghos.Lib.Folding
import Ghos.Lib.HashChain
import Ghos.Lib.Footprint
import Ghos.Lib.StoreMaps
import Ghos.Lib.Codec
import Ghos.Lib.Atomic
import Ghos.Lib.Bookkeeping
import Ghos.Lib.Buffers
import Ghos.Lib.Sampling
import Ghos.Lib.Delivery
import Ghos.Program.Runtime
import Ghos.Program.State
import Ghos.Program.Validation
import Ghos.Program.Config
import Ghos.Program.Mix
import Ghos.Program.Instruction
import Ghos.Program.External
import Ghos.Program.Registry
import Ghos.Program.Auditor
import Ghos.Program.Burner
import Ghos.Program.Token
import Ghos.Program.Calls
import Ghos.Program.Effects
import Ghos.Program.Views
import Ghos.Program.CallEffects
import Ghos.Mix.Addressing
import Ghos.Program.CallViews
import Ghos.Mix.Refinement
import Ghos.Mix.History
import Ghos.Mix.Requests
import Ghos.Program.CallRequests
import Ghos.Program.Padding
import Ghos.Mix.Invariant
import Ghos.Mix.Protocol
import Ghos.Mix.Progress
import Ghos.Mix.Binding
import Ghos.Mix.Anonymity
import Ghos.Mix.Isolation
import Ghos.Mix.Events
import Ghos.Config.Knobs
import Ghos.Config.Authority
import Ghos.Config.Enforcement
import Ghos.Config.Pause
import Ghos.Config.Version
import Ghos.Auditor.History
import Ghos.Auditor.Handover
import Ghos.Auditor.Cooldown
import Ghos.Auditor.Attestation
import Ghos.Auditor.Inclusion
import Ghos.Burner.Cap
import Ghos.Burner.Expiry
import Ghos.Burner.Destruction
import Ghos.Program.Footprints
import Ghos.Program.Parallel
import Ghos.Program.Replay
import Ghos.Program.Consent
import Ghos.Program.Wire
import Ghos.Program.Shared
import Ghos.Program.Redelivery
import Ghos.Client.Sdk
import Ghos.Client.MixNote
import Ghos.Client.Cli
import Ghos.Client.ConfigCodec
import Ghos.Client.Ristretto
import Ghos.Client.ElGamal
import Ghos.Client.Keys
import Ghos.Client.Send
import Ghos.Client.Pdas
import Ghos.Client.MixAccounts
import Ghos.Client.Commands
import Ghos.Client.KeySeparation
import Ghos.Client.Arguments
import Ghos.Client.AccountData
import Ghos.Client.EventCodec
import Ghos.Client.Watcher
import Ghos.Client.Amounts
import Ghos.Client.Errors
import Ghos.Client.Retry
import Ghos.Client.Homomorphic
import Ghos.Client.Sigma
import Ghos.Client.SigmaCompleteness
import Ghos.Client.SigmaSecrecy
import Ghos.Client.Bulletproof
import Ghos.Client.Transcript
import Ghos.Client.InnerProduct
import Ghos.Client.RangeCheck
import Ghos.Client.Status
import Ghos.Client.Settle
import Ghos.Client.Settings
import Ghos.Client.SettingsCommands
import Ghos.Client.Builders
import Ghos.Client.Inert
import Ghos.Client.Storage
import Ghos.Client.ConfigReaders
import Ghos.Lib.Edwards
import Ghos.Lib.EdwardsCodes
import Ghos.Client.Field25519
import Ghos.Client.Edwards25519
import Ghos.Client.RistrettoCodec
import Ghos.Client.RistrettoGroup
import Ghos.Client.RistrettoLaws
import Ghos.Client.Malleability
import Ghos.Client.Coordinates
import Ghos.Client.RangeBundle
import Ghos.Lib.Decimal
import Ghos.Lib.DecimalText
import Ghos.Client.Units
import Ghos.Client.AmountText
import Ghos.Client.AuditorKeys
import Ghos.Client.HexText
import Ghos.Client.IntegerCodec
import Ghos.Lib.Raises
import Ghos.Client.LoadErrors
import Ghos.Client.BurnerList
import Ghos.Client.ErrorPlaces
import Ghos.Client.SqrtRatio
import Ghos.Client.ScalarCosets
import Ghos.Client.Inverses
import Ghos.Client.ExtensionWalk
import Ghos.Client.SeedBytes
