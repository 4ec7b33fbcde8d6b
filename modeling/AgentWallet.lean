import AgentWallet.Policy.BundleCaps
import AgentWallet.Policy.AssetCaps
import AgentWallet.PolicyState.CrashSafety
import AgentWallet.PolicyState.CapInvariant
import AgentWallet.PolicyState.Settlement
import AgentWallet.PolicyState.GateAdmission
import AgentWallet.Profile.ReceiptFields
import AgentWallet.Nonces.SingleUse
import AgentWallet.Network.EnvelopeKey
import AgentWallet.Network.PreSend
import AgentWallet.Network.Submit
import AgentWallet.AuditLog.Calendar
import AgentWallet.AuditLog.LastLine
import AgentWallet.AuditLog.FaultSafety
import AgentWallet.SmartAccount.Multicall
import AgentWallet.Sep7.Signed
import AgentWallet.Mpp.Claims
import AgentWallet.Mpp.Service
import AgentWallet.Pool.Channels
import AgentWallet.Sep45.Entries
import AgentWallet.SmartAccount.Networks
import AgentWallet.X402.Exact
import AgentWallet.Approval.Consent
import AgentWallet.Approval.OperatorCredentials
import AgentWallet.AuditLog.Timelocks
import AgentWallet.Toolsets.Confinement
import AgentWallet.Toolsets.Narrowing
import AgentWallet.Toolsets.ToolArgs
import AgentWallet.Toolsets.Refusal
import AgentWallet.AuditLog.ArchiveNames
import AgentWallet.Claimable.Predicate
import AgentWallet.Policy.SignatureHex
import AgentWallet.SmartAccount.SignerSnapshots
