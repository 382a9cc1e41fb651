import BonsaiChain.KeyBroker
import BonsaiChain.PrivateEnclave

/-!
# Sandboxed agents

An agent holds one brokered secret, and its only way out is `sandboxed_agent_act`: authorize, then
seal the payload, then invoke the capability provider. The provider, like the oracle and the vault,
is a function of its own state. A call answers with the state it leaves and what it did outside the
broker, in order.
-/

namespace BonsaiChain

/-- `capability_provider_t.invoke` over the provider's state, with its opaque result. -/
abbrev Invoke (π ρ : Type) := π → Option CString → Bytes → Except Err ρ × π

/-- `sandboxed_agent_s` without the broker it borrows. -/
structure SandboxedAgent (ν π ρ : Type) where
  secret : CString
  ensureKey : EnsureKey ν
  identityId : CString
  invoke : Invoke π ρ

/-- `agent_action_request_t`; the payload `none` is a null pointer with a length. -/
structure AgentActionRequest where
  scope : Option CString
  amount : Int
  payload : Option Bytes
  provenance : Option ProvenanceRecord

/-- `agent_action_result_t`. -/
structure AgentActionResult (ρ : Type) where
  allowed : Bool
  reason : Option CString
  actionHash : Option CString
  provenanceHash : Option CString
  sealed : Option SealedRecord
  result : Option ρ

/-- The broker and the parties behind it. -/
structure Egress (σ ν π : Type) where
  broker : KeyBroker
  oracle : σ
  vault : ν
  provider : π

/-- What an act takes from outside: the oracle's answers, the broker's clock, and what the seal
takes. -/
structure ActReads (σ : Type) where
  ask : Ask σ
  now : Int
  sealReads : SealReads

/-- A seal that succeeded, or an invocation of the provider. -/
inductive Effect where
  | sealed (identityId : CString) (payload : Bytes) (action : SealedAction)
  | invoked (scope : Option CString) (payload : Bytes)
  deriving DecidableEq, Repr

section Act

variable {σ ν π ρ : Type}

/-- What the agent asks the broker for. -/
def SandboxedAgent.authorization (agent : SandboxedAgent ν π ρ) (req : AgentActionRequest) :
    AuthorizationRequest :=
  ⟨some agent.secret, req.scope, req.amount⟩

/-- `sandboxed_agent_act` behind an allowed authorization. -/
def sandboxedAgentEffect (crypto : EnclaveCrypto) (agent : SandboxedAgent ν π ρ)
    (s : Egress σ ν π) (req : AgentActionRequest) (reads : SealReads) :
    Except Err (AgentActionResult ρ) × Egress σ ν π × List Effect :=
  match privateEnclaveSealAction crypto agent.ensureKey s.vault agent.identityId req.payload
      req.provenance reads with
  | (.error e, vault) => (.error e, { s with vault }, [])
  | (.ok action, vault) =>
    let payload := req.payload.getD []
    let effects := [.sealed agent.identityId payload action, .invoked req.scope payload]
    match agent.invoke s.provider req.scope payload with
    | (.error e, provider) => (.error e, { s with vault, provider }, effects)
    | (.ok result, provider) =>
      (.ok ⟨true, none, some action.actionHash, some action.provenanceHash, some action.record,
        some result⟩, { s with vault, provider }, effects)

def sandboxedAgentAct (crypto : EnclaveCrypto) (agent : SandboxedAgent ν π ρ)
    (s : Egress σ ν π) (req : AgentActionRequest) (reads : ActReads σ) :
    Except Err (AgentActionResult ρ) × Egress σ ν π × List Effect :=
  match s.broker.authorize crypto.sha256 reads.ask s.oracle (agent.authorization req) reads.now with
  | (decision, broker, oracle) =>
    let s := { s with broker, oracle }
    if !decision.allowed then
      (.ok ⟨false, decision.reason, none, none, none, none⟩, s, [])
    else sandboxedAgentEffect crypto agent s req reads.sealReads

end Act

end BonsaiChain
