import BonsaiChain.AttestorTea
import BonsaiChain.PublisherTeaSpend

/-!
# Calls of the AttestorTea contract

The public methods of `attestorTea.scrypt`: the byte strings they hash and the calls with all their
arguments. The bond has no state, so `stake` recreates the script it runs in; it is open to anybody
and does not look at the other inputs of its transaction.
-/

namespace BonsaiChain.Covenant

/-- A deployed bond: its locking script and the constants the methods read. -/
structure AttestorTea where
  script : Bytes
  operator : Bytes
  attestorRabinPubKey : ℤ
  unbondNotBefore : ℤ
  deriving DecidableEq

namespace AttestorTea

section Methods

variable (P : Prims) (this : AttestorTea) (ctx : Ctx)

def slashEquivocation (reporter : Block 33) : Option Bytes := do
  let total := ctx.value
  let bounty := total.tdiv 2
  let burn := total - bounty
  let bountyOutput ← buildOutput (buildPublicKeyHashScript (P.hash160 reporter.1)) bounty
  let burnOutput ← buildOutput (buildOpreturnScript (hexLiteral (ascii "534c415348454400"))) burn
  withChange ctx (bountyOutput ++ burnOutput)

def stake (addAmount : ℤ) : Option Bytes := do
  require (addAmount > 0)
  let bondOutput ← buildOutput this.script (ctx.value + addAmount)
  withChange ctx bondOutput

def withdraw : Option Bytes := do
  require (ctx.locktime ≥ this.unbondNotBefore)
  let payout ← buildOutput (buildPublicKeyHashScript (P.hash160 this.operator)) ctx.value
  withChange ctx payout

end Methods

inductive Call where
  | slashEquivocation (seq : ℤ) (digestA : Block 32) (sigA : RabinVerifierSig) (digestB : Block 32)
      (sigB : RabinVerifierSig) (reporter : Block 33)
  | stake (addAmount : ℤ)
  | withdraw (operatorSig : Bytes)

section Guards

variable (V : Verifiers)

/-- The attestor of the bond signed the digest under the sequence number. -/
def Attested (this : AttestorTea) (seq : ℤ) (digest : Block 32) (sig : RabinVerifierSig) : Prop :=
  ∃ msg ∈ attestationMsg seq digest, V.verifySig msg sig this.attestorRabinPubKey

instance (this : AttestorTea) (seq : ℤ) (digest : Block 32) (sig : RabinVerifierSig) :
    Decidable (Attested V this seq digest sig) := inferInstanceAs (Decidable (∃ _ ∈ _, _))

/-- The `require`s that are not about the outputs. -/
def Guards (e : Event AttestorTea Call) : Prop :=
  match e.call with
  | .slashEquivocation seq digestA sigA digestB sigB _ =>
    digestA ≠ digestB ∧ Attested V e.this seq digestA sigA ∧ Attested V e.this seq digestB sigB
  | .stake _ => True
  | .withdraw operatorSig =>
    e.spend.LocktimeInForce ∧ V.checkSig e.spend operatorSig e.this.operator

end Guards

/-- The outputs a call requires, behind its numeric `require`s. -/
def outputs (P : Prims) (e : Event AttestorTea Call) : Option Bytes :=
  match e.call with
  | .slashEquivocation _ _ _ _ _ reporter => slashEquivocation P e.spend.ctx reporter
  | .stake addAmount => e.this.stake e.spend.ctx addAmount
  | .withdraw _ => e.this.withdraw P e.spend.ctx

/-- What a call adds to the bond. -/
def staked (e : Event AttestorTea Call) : ℤ :=
  match e.call with
  | .stake addAmount => addAmount
  | _ => 0

def Call.Ends : Call → Prop
  | .stake _ => False
  | _ => True

instance : DecidablePred Call.Ends := fun c =>
  match c with
  | .slashEquivocation .. => .isTrue trivial
  | .stake _ => .isFalse id
  | .withdraw _ => .isTrue trivial

def next (e : Event AttestorTea Call) : Option (AttestorTea × ℤ) :=
  if e.call.Ends then none else some (e.this, (e.spend.value.toNat : ℤ) + staked e)

/-- The bond that was deployed as `d`. -/
def contract (P : Prims) (V : Verifiers) (d : AttestorTea) : Contract AttestorTea Call where
  Holds this script := this = d ∧ script = d.script
  Guards := Guards V
  outputs := outputs P
  next := next

end AttestorTea

/-- The bond of an instance, on chain. -/
def AttestorTea.ofInstance (c : BonsaiChain.AttestorTea) (script : Bytes) : AttestorTea :=
  ⟨script, c.params.operatorPubkey, c.params.attestorRabinPubkey, c.params.unbondNotBefore⟩

end BonsaiChain.Covenant
