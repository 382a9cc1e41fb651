import BonsaiChain.Common

/-!
# Authorization envelopes

The limits a key is bound to and the rolling window it is metered by. Amounts and times are
`int64_t`; the two intermediate values the source computes in 128 bits are exact here.
-/

namespace BonsaiChain

/-- `identity_params_t`. -/
structure IdentityParams where
  perTxLimit : Int
  dailyLimit : Int
  windowDuration : Int
  deriving DecidableEq, Repr

structure AuthorizationEnvelope where
  perCall : Int
  perWindow : Int
  windowDuration : Int
  scopes : List CString
  deriving DecidableEq, Repr

def envelopeFromIdentity (params : IdentityParams) (scopes : List CString) :
    AuthorizationEnvelope :=
  ⟨params.perTxLimit, params.dailyLimit, params.windowDuration, scopes⟩

structure ChargeResult where
  allowed : Bool
  reason : Option CString
  spentInWindow : Int
  windowStart : Int
  deriving DecidableEq, Repr

/-- `window_accountant_t` without the envelope it borrows. -/
structure WindowAccountant where
  spentInWindow : Int
  windowStart : Int
  started : Bool
  deriving DecidableEq, Repr

namespace WindowAccountant

def init : WindowAccountant := ⟨0, 0, false⟩

def deny (acc : WindowAccountant) (reason : CString) (now : Int) : ChargeResult :=
  ⟨false, some reason, acc.spentInWindow, if acc.started then acc.windowStart else now⟩

/-- The window a charge falls into: its start and what it has spent so far. -/
def rolled (env : AuthorizationEnvelope) (acc : WindowAccountant) (now : Int) : Int × Int :=
  if !acc.started ∨ now - acc.windowStart ≥ env.windowDuration then (now, 0)
  else (acc.windowStart, acc.spentInWindow)

def charge (env : AuthorizationEnvelope) (acc : WindowAccountant) (amount now : Int) :
    ChargeResult × WindowAccountant :=
  if amount ≤ 0 then (acc.deny (ascii "amount must be positive") now, acc)
  else if amount > env.perCall then (acc.deny (ascii "exceeds per-call limit") now, acc)
  else
    let (windowStart, spent) := acc.rolled env now
    let next := spent + amount
    if next > env.perWindow then
      (⟨false, some (ascii "exceeds rolling window limit"), spent, windowStart⟩, acc)
    else (⟨true, none, next, windowStart⟩, ⟨next, windowStart, true⟩)

end WindowAccountant

end BonsaiChain
