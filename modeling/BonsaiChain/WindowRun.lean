import BonsaiChain.AgentTeaCovenant
import BonsaiChain.AuthorizationEnvelope
import BonsaiChain.Lib.RollingWindow
import BonsaiChain.Lib.Runs
import BonsaiChain.RicardianTea

/-!
# Runs of a window accountant

An accountant charged again and again, with the amounts it granted, and the same charges metered on
chain: every granted charge is an action of the identity contracts.
-/

namespace BonsaiChain

open Lib

structure ChargeCall where
  amount : Int
  now : Int
  deriving DecidableEq, Repr

/-- A granted charge at `now` opens a window. -/
def WindowAccountant.opens (env : AuthorizationEnvelope) (acc : WindowAccountant) (now : Int) :
    Bool :=
  !acc.started || decide (now - acc.windowStart ≥ env.windowDuration)

/-- The accountant after some calls and what it has granted, in order. -/
structure WindowRun where
  acc : WindowAccountant
  grants : List (Grant Int)
  deriving DecidableEq, Repr

namespace WindowRun

def start : WindowRun := ⟨.init, []⟩

def step (env : AuthorizationEnvelope) (r : WindowRun) (c : ChargeCall) : WindowRun :=
  let (result, acc) := r.acc.charge env c.amount c.now
  ⟨acc, if result.allowed then r.grants ++ [⟨c.amount, c.now, r.acc.opens env c.now⟩]
    else r.grants⟩

def after (env : AuthorizationEnvelope) (cs : List ChargeCall) : WindowRun :=
  run (step env) start cs

end WindowRun

/-- An accountant beside an AgentTea and a RicardianTea that execute what it grants. -/
structure MeteredRun where
  acc : WindowAccountant
  agent : AgentTea
  ricardian : RicardianTea
  deriving DecidableEq

namespace MeteredRun

def start (agent : AgentTea) (ricardian : RicardianTea) : MeteredRun :=
  ⟨.init, { agent with state := agentTeaGenesisState },
    { ricardian with state := ricardianTeaGenesisState ricardian.params }⟩

def step (env : AuthorizationEnvelope) (r : MeteredRun) (c : ChargeCall) : MeteredRun :=
  let (result, acc) := r.acc.charge env c.amount c.now
  if result.allowed then
    ⟨acc, { r.agent with state := agentTeaApplyAction r.agent c.amount c.now },
      { r.ricardian with state := ricardianTeaApplyAction r.ricardian c.amount c.now }⟩
  else { r with acc := acc }

def after (env : AuthorizationEnvelope) (agent : AgentTea) (ricardian : RicardianTea)
    (cs : List ChargeCall) : MeteredRun :=
  run (step env) (start agent ricardian) cs

end MeteredRun

/-- The contracts are deployed with the limits of the envelope, and graduate together. -/
structure SameLimits (env : AuthorizationEnvelope) (p : AgentTeaParams) (q : RicardianTeaParams) :
    Prop where
  perTxLimit : p.perTxLimit = env.perCall
  dailyLimit : p.dailyLimit = env.perWindow
  windowDuration : p.windowDuration = env.windowDuration
  ricardianWindowDuration : q.windowDuration = env.windowDuration
  graduationThreshold : q.graduationThreshold = p.graduationThreshold

end BonsaiChain
