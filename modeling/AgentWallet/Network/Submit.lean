import AgentWallet.Network.Retry
import AgentWallet.Network.SubmissionRecord

/-!
# Submitting and waiting

`submit_transaction_and_wait` once its checks have passed: record, send with retries, poll, and
settle the record on what came of it.  The endpoint is a sequence of send attempts and the list of
the poll answers that arrive before the deadline.
-/

namespace AgentWallet.Network.Submit

open Base.Programs PolicyState.Wire Profile.Receipt Retry SubmissionRecord List

variable {s₀ : Stores}

/-- The marker of a send failure where no response was read. -/
def sendNoResponseMarker : String := "No status yet:"

structure SubmissionResult where
  txHash : String
  ledger : ℕ

variable (intent : SubmissionIntent) (timeoutSecs : ℕ)

/-- What the recorder is told, and what the caller gets. -/
abbrev Settled := SubmissionOutcome × Except WalletError SubmissionResult

def txTimeout : WalletError := .txTimeout intent.identity.txHash timeoutSecs

variable {intent timeoutSecs}

/-- The window file is as it was, and the receipt of the submission has its status and its
approval. -/
structure Kept (intent : SubmissionIntent) (s₀ s : Stores) : Prop where
  window : s.window = s₀.window
  receipt : ∀ r, s₀.receipts.lookup intent.envelopeHash = some r →
    ∃ r', s.receipts.lookup intent.envelopeHash = some r' ∧ r'.status = r.status ∧
      r'.approvalNonce = r.approvalNonce

theorem Kept.refl (s : Stores) : Kept intent s s := ⟨rfl, fun r hr => ⟨r, hr, rfl, rfl⟩⟩

/-- The endpoint's own verdict, as the client prints the result it decodes. -/
abbrev Verdict := { detail : String // ¬ sendNoResponseMarker.toList <:+: detail.toList }

end AgentWallet.Network.Submit
