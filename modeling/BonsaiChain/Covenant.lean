import BonsaiChain.ScriptCodec
import BonsaiChain.TxChange

/-!
# What the covenants compute

The built-in functions of sCrypt the contracts use, on integers and byte strings; a script that
fails is `none`. A covenant method requires that the outputs of the spending transaction hash to the
byte string it builds from its own state and the spending context.
-/

namespace BonsaiChain.Covenant

open Lib

/-- What a method reads of the spending transaction. -/
structure Ctx where
  value : ℤ
  locktime : ℤ
  changeAmount : ℤ
  changeAddress : Block 20

section Builtins

/-- Sign and magnitude in `width` little-endian bytes. -/
def num2bin (n : ℤ) (width : ℕ) : Option Bytes :=
  if 0 < width ∧ n.natAbs < 2 ^ (8 * width - 1) then
    some (leBytes width (n.natAbs + if n < 0 then 2 ^ (8 * width - 1) else 0))
  else none

def toLEUnsigned (n : ℤ) (width : ℕ) : Option Bytes :=
  if 0 ≤ n ∧ n < 256 ^ width then some (leBytes width n.toNat) else none

def require (p : Prop) [Decidable p] : Option Unit := if p then some () else none

/-- A hex literal of a contract. -/
def hexLiteral (s : CString) : Bytes := (hexDecode s).toOption.getD []

end Builtins

section Utils

def buildOutput (outputScript : Bytes) (outputSatoshis : ℤ) : Option Bytes := do
  let satoshis ← toLEUnsigned outputSatoshis 8
  return satoshis ++ writeVarint outputScript.length ++ outputScript

def buildPublicKeyHashScript (address : Block 20) : Bytes :=
  [0x76, 0xa9, 0x14] ++ address.1 ++ [0x88, 0xac]

def buildOpreturnScript (data : Bytes) : Bytes := [0x00, 0x6a] ++ pushData data

end Utils

section State

/-- The code part of a stateful locking script: everything before the `OP_RETURN` that starts the
state section. The four bytes before the last one hold the length of the state. -/
def codePart (script : Bytes) : Option Bytes :=
  let stateLen := stateBodyLen script
  if stateLen + 6 ≤ script.length ∧ script[script.length - (stateLen + 6)]? = some 0x6a then
    some (script.take (script.length - (stateLen + 6)))
  else none

/-- `getStateScript`: the code part, `OP_RETURN` and the state behind a cleared genesis flag. -/
def getStateScript (code : Bytes) (stateProps : List ScryptParam) (values : List ScryptArg) :
    Option Bytes := do
  let state ← (buildState stateProps values false).toOption
  return code ++ [0x6a] ++ state

def buildStateOutput (code : Bytes) (stateProps : List ScryptParam) (values : List ScryptArg)
    (amount : ℤ) : Option Bytes := do
  let script ← getStateScript code stateProps values
  buildOutput script amount

def buildChangeOutput (ctx : Ctx) : Option Bytes :=
  if ctx.changeAmount > 0 then
    buildOutput (buildPublicKeyHashScript ctx.changeAddress) ctx.changeAmount
  else some []

/-- The outputs with the change output after them where there is change. -/
def withChange (ctx : Ctx) (outputs : Bytes) : Option Bytes := do
  if ctx.changeAmount > 0 then
    let change ← buildChangeOutput ctx
    return outputs ++ change
  else return outputs

end State

end BonsaiChain.Covenant
