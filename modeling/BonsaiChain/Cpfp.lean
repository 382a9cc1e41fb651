import BonsaiChain.ChainBroadcast
import BonsaiChain.CharterParams
import BonsaiChain.ContractSign
import BonsaiChain.ScriptSupport

/-!
# A child that pays for its parent

`scripts/cpfp_lib.c`: one output of a parent transaction is spent back to the key it belongs to, for
a fee that speeds the parent up. What the run prints about the child is left out.
-/

namespace BonsaiChain

section Arguments

/-- `strtol` in base 10 with a `long` of 64 bits: the number in front and what follows it, and
`none` when there is no digit or `errno` is set. -/
def strtol (text : CString) : Option (Int64 × CString) :=
  let (negative, s) := readSign (text.dropWhile isJsWs)
  let digits := s.takeWhile isDigitByte
  let n : ℤ := if negative then -digitsValue digits else digitsValue digits
  if digits = [] then none
  else if n < Int64.minValue.toInt ∨ Int64.maxValue.toInt < n then none
  else some (Int64.ofInt n, s.dropWhile isDigitByte)

/-- What `parse_vout` and `parse_fee` do with a text. -/
def parseLong (s : CString) : Option Int64 :=
  let s := s.dropWhile isJsWs
  if s = [] then some 0
  else
    match strtol s with
    | none => none
    | some (v, rest) => if rest.dropWhile isJsWs = [] then some v else none

def parseVout (s : Option CString) : Option Int64 := (s.bind parseLong).filter fun v => 0 ≤ v

def parseFee : Option CString → Option Int64
  | none => some 3000
  | some s => parseLong s

end Arguments

/-- Where a run fails; it prints a message and exits with 1. -/
inductive CpfpFailure where
  | usage
  | keyFile (e : Err)
  | invalidWif
  | pubkey
  | client (e : Err)
  | notFound (parent : CString)
  | noOutput (parent : CString) (vout : UInt32)
  | refused (childOut fee : Int64)
  | addInput
  | sighash
  | signing
  | serialize
  | broadcast (e : Err)

/-- The client of the chain service, which also hands out raw transactions. -/
structure CpfpClient extends WocClient where
  rawTx : CString → Except Err (Option CString)

structure CpfpChild where
  vout : UInt32
  value : UInt64
  fee : Int64
  tx : Tx
  raw : CString
  txid : CString

section Run

variable (P : Prims) (S : Secp256k1) (E : ScriptEnv)

/-- The parent, the index and the fee from the environment. The index is cast to 32 bits. -/
def cpfpArguments : Except CpfpFailure (CString × UInt32 × Int64) :=
  match E.envSet "PARENT", parseVout (E.getenv "VOUT"), parseFee (E.getenv "FEE") with
  | some parent, some vout, some fee => .ok (parent, vout.toUInt64.toUInt32, fee)
  | _, _, _ => .error .usage

def cpfpKeyPath : CString :=
  match E.envSet "KEY_FILE" with
  | some path => path
  | none => (E.bonsaiHome ++ ascii "/chain/test_bsv.json").take 2047

/-- The funded key and its public key. -/
def cpfpKey : Except CpfpFailure (EcdsaKey × Block 33) := do
  let kf ← (E.keyFileLoad (cpfpKeyPath E)).mapError .keyFile
  (keyFileVerify P S kf .mainnet).mapError .keyFile
  let (key, _) ← (ecdsaKeyFromWif P S kf.wif.val).mapError fun _ => .invalidWif
  let pub ← key.pubkey.mapError fun _ => .pubkey
  return (key, pub)

/-- The parent as the service has it. -/
def fetchParent (client : CpfpClient) (parent : CString) : Except CpfpFailure Tx :=
  match client.rawTx parent with
  | .ok (some hex) => (txDeserialize hex).mapError fun _ => .notFound parent
  | _ => .error (.notFound parent)

def parentValue (parent : CString) (ptx : Tx) (vout : UInt32) : Except CpfpFailure UInt64 :=
  match ptx.outputs[vout.toNat]? with
  | none => .error (.noOutput parent vout)
  | some o => .ok o.satoshis

/-- The guard: `(long)value - child_fee`, with an overflow that wraps. -/
def childOutput (value : UInt64) (fee : Int64) : Except CpfpFailure UInt64 :=
  if value.toInt64 - fee < 1000 ∨ fee > 50000 then .error (.refused (value.toInt64 - fee) fee)
  else .ok (value.toInt64 - fee).toUInt64

/-- The unlocking script; both lengths are written as single bytes. -/
def cpfpScriptSig (der : Bytes) (pub : Block 33) : Bytes :=
  UInt8.ofNat (der.length + 1) :: der ++ sighashAllForkid :: 33 :: pub.1

/-- The child, built and signed. -/
def buildChild (key : EcdsaKey) (pub : Block 33) (parent : CString) (vout : UInt32) (value : UInt64)
    (fee : Int64) (childOut : UInt64) : Except CpfpFailure CpfpChild := do
  let b ← (txBuilderAddInput txBuilderInit parent vout [] 0xffffffff).mapError fun _ => .addInput
  let outScript := buildP2pkhScript (P.hash160 pub.1)
  let b := txBuilderAddOutput b outScript childOut
  let digest ← (bip143Sighash P b 0 outScript value sighashAllForkid).mapError fun _ => .sighash
  let der ← (key.signLowS digest).mapError fun _ => .signing
  let tx := { b with
    inputs := b.inputs.modify 0 fun i => { i with scriptSig := cpfpScriptSig der pub } }
  let raw ← (txBuilderBuildHex tx).mapError fun _ => .serialize
  let txid ← (txId (fun bs => (sha256d P bs).1) tx).mapError fun _ => .serialize
  return ⟨vout, value, fee, tx, raw, txid⟩

/-- `cpfp_run` up to the child. Opening the client may fail. -/
def cpfpChild (woc : Except Err CpfpClient) : Except CpfpFailure CpfpChild := do
  let (parent, vout, fee) ← cpfpArguments E
  let (key, pub) ← cpfpKey P S E
  let client ← woc.mapError .client
  let ptx ← fetchParent client parent
  let value ← parentValue parent ptx vout
  let childOut ← childOutput value fee
  buildChild P key pub parent vout value fee childOut

/-- `cpfp_run`: the txid when the child was sent; without a confirmation it is a dry run. -/
def cpfpRun (woc : Except Err CpfpClient) : Except CpfpFailure (Option CString) := do
  let child ← cpfpChild P S E woc
  let client ← woc.mapError .client
  if E.confirmMainnetBroadcast then
    let txid ← (wocClientBroadcast P client.toWocClient child.raw).mapError .broadcast
    return some txid
  else return none

end Run

end BonsaiChain
