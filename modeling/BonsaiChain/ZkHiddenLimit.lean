import BonsaiChain.Bignum
import BonsaiChain.Num2bin
import BonsaiChain.ScriptCodec

/-!
# The verifying key of a hidden limit

`zk/g16.c`, as `BONSAI_ENABLE_ZK` compiles it: a snarkjs key as a key of the contract, and the files
the verifier outside the chain gets. `contracts/zk_hidden_limit.c`: the locking script with the key.
-/

namespace BonsaiChain

section Tower

/-- `bn_t`: the library behind it holds `INT_MAX / (4 * BN_BITS2)` words of 8 bytes at most. -/
structure BigNum where
  val : ℤ
  fits : bnNumBytes val.natAbs ≤ 67108856
  deriving DecidableEq

structure Fq2 where
  x : BigNum
  y : BigNum
  deriving DecidableEq

structure Fq6 where
  x : Fq2
  y : Fq2
  z : Fq2
  deriving DecidableEq

structure Fq12 where
  x : Fq6
  y : Fq6
  deriving DecidableEq

structure G1Point where
  x : BigNum
  y : BigNum
  deriving DecidableEq

structure G2Point where
  x : Fq2
  y : Fq2
  deriving DecidableEq

structure G16Proof where
  a : G1Point
  b : G2Point
  c : G1Point
  deriving DecidableEq

/-- `alpha` and `beta` are for the verifier outside the chain only. -/
structure G16VerifyingKey where
  millerB1a1 : Fq12
  gamma : G2Point
  delta : G2Point
  gammaAbc : G1Point × G1Point
  alpha : G1Point
  beta : G2Point
  deriving DecidableEq

end Tower

section Converters

/-- Two decimal strings; either pointer can be null. -/
abbrev DecPair := Option CString × Option CString

structure SnarkjsVkey where
  protocol : Option CString
  curve : Option CString
  nPublic : Int32
  vkAlpha1 : DecPair
  vkBeta2 : DecPair × DecPair
  vkGamma2 : DecPair × DecPair
  vkDelta2 : DecPair × DecPair
  ic : DecPair × DecPair

def leafDec : Option CString → Except Err BigNum
  | none => .error .eparse
  | some s => do
    let v ← bnParseDec s
    if h : bnNumBytes v.natAbs ≤ 67108856 then .ok ⟨v, h⟩ else .error .eparse

def g1FromDec (xy : DecPair) : Except Err G1Point := do
  let x ← leafDec xy.1
  let y ← leafDec xy.2
  return ⟨x, y⟩

def g2FromDec (cc : DecPair × DecPair) : Except Err G2Point := do
  let xx ← leafDec cc.1.1
  let xy ← leafDec cc.1.2
  let yx ← leafDec cc.2.1
  let yy ← leafDec cc.2.2
  return ⟨⟨xx, xy⟩, ⟨yx, yy⟩⟩

def fq12Zero : Fq12 :=
  let zero : BigNum := ⟨0, by decide⟩
  let fq6 : Fq6 := ⟨⟨zero, zero⟩, ⟨zero, zero⟩, ⟨zero, zero⟩⟩
  ⟨fq6, fq6⟩

def vkFromSnarkjs (vk : SnarkjsVkey) : Except Err G16VerifyingKey := do
  if vk.protocol ≠ some (ascii "groth16") then throw .einval
  if vk.curve ≠ some (ascii "bn128") ∧ vk.curve ≠ some (ascii "bn254") then throw .einval
  if vk.nPublic ≠ 1 then throw .einval
  let millerB1a1 := fq12Zero
  let gamma ← g2FromDec vk.vkGamma2
  let delta ← g2FromDec vk.vkDelta2
  let ic0 ← g1FromDec vk.ic.1
  let ic1 ← g1FromDec vk.ic.2
  let alpha ← g1FromDec vk.vkAlpha1
  let beta ← g2FromDec vk.vkBeta2
  return ⟨millerB1a1, gamma, delta, (ic0, ic1), alpha, beta⟩

end Converters

section Files

def jsonInt (v : BigNum) : Bytes := 34 :: decimalInt v.val ++ [34]

def jsonG1 (p : G1Point) : Bytes :=
  ascii "[" ++ jsonInt p.x ++ ascii "," ++ jsonInt p.y ++ ascii ",\"1\"]"

def jsonG2 (p : G2Point) : Bytes :=
  ascii "[[" ++ jsonInt p.x.x ++ ascii "," ++ jsonInt p.x.y ++ ascii "],["
    ++ jsonInt p.y.x ++ ascii "," ++ jsonInt p.y.y ++ ascii "],[\"1\",\"0\"]]"

def writeProofFile (p : G16Proof) : Bytes :=
  ascii "\x7b\n \"pi_a\": " ++ jsonG1 p.a ++ ascii ",\n \"pi_b\": " ++ jsonG2 p.b
    ++ ascii ",\n \"pi_c\": " ++ jsonG1 p.c
    ++ ascii ",\n \"protocol\": \"groth16\",\n \"curve\": \"bn128\"\n\x7d\n"

def writeVkeyFile (vk : G16VerifyingKey) : Bytes :=
  ascii "\x7b\n \"protocol\": \"groth16\",\n \"curve\": \"bn128\",\n"
    ++ ascii " \"nPublic\": 1,\n \"vk_alpha_1\": " ++ jsonG1 vk.alpha
    ++ ascii ",\n \"vk_beta_2\": " ++ jsonG2 vk.beta
    ++ ascii ",\n \"vk_gamma_2\": " ++ jsonG2 vk.gamma ++ ascii ",\n \"vk_delta_2\": "
    ++ jsonG2 vk.delta ++ ascii ",\n \"IC\": [" ++ jsonG1 vk.gammaAbc.1 ++ ascii ","
    ++ jsonG1 vk.gammaAbc.2 ++ ascii "]\n\x7d\n"

/-- `BONSAI_G16_N` is 1. -/
def writePublicFile (input : BigNum) : Bytes := ascii "[" ++ jsonInt input ++ ascii "]\n"

/-- The verdict is what `snarkjs` makes of the key, the public input and the proof. -/
def verifyProofOffChain (snarkjs : Bytes → Bytes → Bytes → Except Err Bool) (input : BigNum)
    (proof : G16Proof) (vk : G16VerifyingKey) : Except Err Bool :=
  snarkjs (writeVkeyFile vk) (writePublicFile input) (writeProofFile proof)

end Files

section LockingScript

structure ZkHiddenLimit where
  artifact : ScryptArtifact
  vk : G16VerifyingKey
  limitCommitment : BigNum

def zklBuildFq2 (f : Fq2) : ScryptArg := .struct (ascii "FQ2") [.int f.x.val, .int f.y.val]

def zklBuildFq6 (f : Fq6) : ScryptArg :=
  .struct (ascii "FQ6") [zklBuildFq2 f.x, zklBuildFq2 f.y, zklBuildFq2 f.z]

def zklBuildFq12 (f : Fq12) : ScryptArg := .struct (ascii "FQ12") [zklBuildFq6 f.x, zklBuildFq6 f.y]

def zklBuildG2 (p : G2Point) : ScryptArg :=
  .struct (ascii "G2Point") [zklBuildFq2 p.x, zklBuildFq2 p.y]

def zklBuildG1 (p : G1Point) : ScryptArg := .struct (ascii "G1Point") [.int p.x.val, .int p.y.val]

def zklBuildVk (vk : G16VerifyingKey) : ScryptArg :=
  .struct (ascii "VerifyingKey") [zklBuildFq12 vk.millerB1a1, zklBuildG2 vk.gamma,
    zklBuildG2 vk.delta, .fixedArray [zklBuildG1 vk.gammaAbc.1, zklBuildG1 vk.gammaAbc.2]]

def zkHiddenLimitLockingScript (c : ZkHiddenLimit) : Except Err Bytes :=
  reconstructLockingScript c.artifact [zklBuildVk c.vk, .int c.limitCommitment.val] [] false

/-- The structs of `zkHiddenLimit.json`. -/
def zkStructs : List ScryptStruct :=
  let int (name : String) : ScryptParam := ⟨ascii name, .int⟩
  let struct (name : String) : ScryptParam := ⟨ascii name, .struct⟩
  [⟨ascii "CurvePoint", [int "x", int "y", int "z", int "t"]⟩,
    ⟨ascii "TwistPoint", [struct "x", struct "y", struct "z", struct "t"]⟩,
    ⟨ascii "FQ2", [int "x", int "y"]⟩,
    ⟨ascii "FQ6", [struct "x", struct "y", struct "z"]⟩,
    ⟨ascii "FQ12", [struct "x", struct "y"]⟩,
    ⟨ascii "G1Point", [int "x", int "y"]⟩,
    ⟨ascii "G2Point", [struct "x", struct "y"]⟩,
    ⟨ascii "LineFuncRes", [struct "a", struct "b", struct "c", struct "rOut"]⟩,
    ⟨ascii "Proof", [struct "a", struct "b", struct "c"]⟩,
    ⟨ascii "VerifyingKey", [struct "millerb1a1", struct "gamma", struct "delta",
      ⟨ascii "gammaAbc", .fixedArray⟩]⟩]

/-- The names of the placeholders of `zkHiddenLimit.json`, in order. -/
def zkPlaceholders : List CString :=
  [ascii "vk.millerb1a1.x.x.x", ascii "vk.millerb1a1.x.x.y", ascii "vk.millerb1a1.x.y.x",
    ascii "vk.millerb1a1.x.y.y", ascii "vk.millerb1a1.x.z.x", ascii "vk.millerb1a1.x.z.y",
    ascii "vk.millerb1a1.y.x.x", ascii "vk.millerb1a1.y.x.y", ascii "vk.millerb1a1.y.y.x",
    ascii "vk.millerb1a1.y.y.y", ascii "vk.millerb1a1.y.z.x", ascii "vk.millerb1a1.y.z.y",
    ascii "vk.gamma.x.x", ascii "vk.gamma.x.y", ascii "vk.gamma.y.x", ascii "vk.gamma.y.y",
    ascii "vk.delta.x.x", ascii "vk.delta.x.y", ascii "vk.delta.y.x", ascii "vk.delta.y.y",
    ascii "vk.gammaAbc[0].x", ascii "vk.gammaAbc[0].y", ascii "vk.gammaAbc[1].x",
    ascii "vk.gammaAbc[1].y", ascii "limitCommitment"]

/-- `zkHiddenLimit.json`, with the code before its placeholders and the code behind them. -/
def zkArtifact (pre post : Bytes) : ScryptArtifact where
  hexTemplate := hexEncode pre ++ zkPlaceholders.flatMap (fun n => ascii "<" ++ n ++ ascii ">")
    ++ hexEncode post
  ctorParams := [⟨ascii "vk", .struct⟩, ⟨ascii "limitCommitment", .int⟩]
  structs := zkStructs
  stateProps := []

end LockingScript

end BonsaiChain
