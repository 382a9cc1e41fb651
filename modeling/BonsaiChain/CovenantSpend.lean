import BonsaiChain.ContractSign
import BonsaiChain.Covenant
import BonsaiChain.Lib.SignMagnitude
import BonsaiChain.Rabin

/-!
# Spends of contract outputs

What a covenant method checks of the transaction it runs in. `Tx.checkPreimageSigHashType` ties the
preimage to the spending transaction, so its fields are read off the transaction; the change and the
list of outpoints are arguments of the method. A contract goes from output to output as its calls
are accepted; what the signatures of a call are checked with is a parameter.
-/

namespace BonsaiChain.Covenant

open Lib

/-- A contract output on chain. -/
structure ContractOutput where
  txid : CString
  vout : UInt32
  value : UInt64
  script : Bytes
  deriving DecidableEq, Repr

/-- The state section of a script, as `buildState` lays it out. -/
def stateSection (flag : UInt8) (pushes : Bytes) : Bytes :=
  flag :: pushes ++ leBytes 4 (pushes.length + 1) ++ [0x00]

/-- A script with a code part whose state section holds the values. -/
def CarriesState (code : Bytes) (stateProps : List ScryptParam) (values : List ScryptArg)
    (script : Bytes) : Prop :=
  ∃ state, buildState stateProps values false = .ok state ∧ script = code ++ [0x6a] ++ state

/-- A script with a code part whose state section has the genesis flag up, whatever it holds. -/
def RaisesGenesis (code script : Bytes) : Prop :=
  ∃ flag pushes, flag ≠ 0 ∧ pushes.length + 1 < 2 ^ 31
    ∧ script = code ++ [0x6a] ++ stateSection flag pushes

/-- The state a compiled contract runs on: that of its script, or the one its constructor sets where
the genesis flag is up, since it then skips the section. -/
def ReadsState (code : Bytes) (stateProps : List ScryptParam) (constructed values : List ScryptArg)
    (script : Bytes) : Prop :=
  CarriesState code stateProps values script ∨ values = constructed ∧ RaisesGenesis code script

/-- The transaction and input a method runs in, the value of the spent output and the arguments that
every method takes. -/
structure Spend where
  tx : Tx
  input : ℕ
  value : UInt64
  changeAmount : ℤ
  changeAddress : Block 20
  prevouts : Bytes

namespace Spend

variable (P : Prims) (s : Spend)

def ctx : Ctx := ⟨s.value.toNat, s.tx.locktime.toNat, s.changeAmount, s.changeAddress⟩

/-- The input spends the output. -/
def Spends (o : ContractOutput) : Prop :=
  (∃ i ∈ s.tx.inputs[s.input]?, i.prevTxidDisplay = o.txid ∧ i.vout = o.vout) ∧ s.value = o.value

instance (o : ContractOutput) : Decidable (s.Spends o) := inferInstanceAs (Decidable (_ ∧ _))

/-- `require(nSequence < 0xffffffff)`, which puts the locktime in force. -/
def LocktimeInForce : Prop := ∃ i ∈ s.tx.inputs[s.input]?, i.sequence < 0xffffffff

instance : Decidable s.LocktimeInForce := inferInstanceAs (Decidable (∃ _ ∈ _, _))

/-- `checkInputZero`: the outpoints hash to `hashPrevouts` and start with the spent one. -/
def ChecksInputZero : Prop :=
  (∃ outpoints ∈ (s.tx.inputs.mapM outpointBytes).toOption,
      sha256d P s.prevouts = sha256d P outpoints.flatten)
    ∧ ∃ i ∈ s.tx.inputs[s.input]?, ∃ outpoint ∈ (outpointBytes i).toOption,
      ∃ outputIndex ∈ num2bin (smValue (outpoint.drop 32)) 4,
        s.prevouts.take 36 = outpoint.take 32 ++ outputIndex

instance : Decidable (s.ChecksInputZero P) := inferInstanceAs (Decidable (_ ∧ _))

/-- `require(hashOutputs == hash256(outputs))`. -/
def HashesOutputs (outputs : Option Bytes) : Prop :=
  ∃ bs ∈ outputs, sha256d P (s.tx.outputs.flatMap printTxOut) = sha256d P bs

instance (outputs : Option Bytes) : Decidable (s.HashesOutputs P outputs) :=
  inferInstanceAs (Decidable (∃ _ ∈ _, _))

/-- The identity goes on in output 0 of the transaction. -/
def ContinuesIn (o : ContractOutput) : Prop :=
  txId (fun bs => (sha256d P bs).1) s.tx = .ok o.txid ∧ o.vout = 0
    ∧ s.tx.outputs[0]? = some ⟨o.value, o.script⟩

instance (o : ContractOutput) : Decidable (s.ContinuesIn P o) :=
  inferInstanceAs (Decidable (_ ∧ _ ∧ _))

end Spend

/-- The signature checks of the methods: `checkSig`, which reads the spending transaction, and
`RabinVerifier.verifySig`. -/
structure Verifiers where
  checkSig : Spend → Bytes → Bytes → Bool
  verifySig : Bytes → RabinVerifierSig → ℤ → Bool

section Contracts

variable {σ ι : Type}

/-- A call of a contract, with the state it reads and the transaction it runs in. -/
structure Event (σ ι : Type) where
  this : σ
  spend : Spend
  call : ι

/-- A contract with states `σ` and calls `ι`: the scripts that hold a state, the `require`s of a
call, the outputs it hashes, and the state and value of the first one where the contract goes on. -/
structure Contract (σ ι : Type) where
  Holds : σ → Bytes → Prop
  Guards : Event σ ι → Prop
  outputs : Event σ ι → Option Bytes
  next : Event σ ι → Option (σ × ℤ)

namespace Contract

variable (C : Contract σ ι) (P : Prims)

/-- A spend of `o` that its script accepts, with `o'` for output 0. -/
structure Step (o : ContractOutput) (e : Event σ ι) (o' : ContractOutput) : Prop where
  holds : C.Holds e.this o.script
  spends : e.spend.Spends o
  guards : C.Guards e
  outputs : e.spend.HashesOutputs P (C.outputs e)
  continues : e.spend.ContinuesIn P o'

/-- The contract by itself: its state and deposit, as long as it goes on. -/
structure Moves (a : Option (σ × ℤ)) (e : Event σ ι) (a' : Option (σ × ℤ)) : Prop where
  live : a = some (e.this, (e.spend.value.toNat : ℤ))
  guards : C.Guards e
  outputs : (C.outputs e).isSome
  next : a' = C.next e

/-- An output of this value and script is the contract with this state and deposit, or none. -/
def Stands : Option (σ × ℤ) → UInt64 → Bytes → Prop
  | some (this, deposit), value, script => C.Holds this script ∧ (value.toNat : ℤ) = deposit
  | none, _, script => ∀ this, ¬C.Holds this script

end Contract

end Contracts

end BonsaiChain.Covenant
