import BonsaiChain.Address
import BonsaiChain.CJson
import BonsaiChain.ScryptContract

/-!
# What the scripts share

`scripts/script_support.c` and the helpers the scripts repeat: environment variables, paths below
the root, key files, and public keys in hex. The process and its files are a record of answers, so a
file that is read twice reads the same. The loader of the compiled artifacts is one of the answers.
-/

namespace BonsaiChain

/-- The first argument, the environment and the files of a script. -/
structure ScriptEnv where
  argv1 : Option CString
  getenv : String → Option CString
  pathExists : CString → Bool
  readFile : CString → Except Err Bytes
  loadArtifact : CString → Except Err ScryptArtifact

namespace ScriptEnv

variable (E : ScriptEnv)

/-- The value of a variable that is set and not empty. -/
def envSet (name : String) : Option CString := (E.getenv name).filter fun v => v ≠ []

def envOr (name : String) (dflt : CString) : CString := (E.envSet name).getD dflt

/-- `env_require` and `env_need`. -/
def envRequire (name : String) : Except Err CString :=
  match E.envSet name with
  | none => .error .einval
  | some v => .ok v

def root : CString :=
  match E.argv1.filter fun a => a ≠ [] with
  | some a => a
  | none => E.envOr "BONSAI_CHAIN_ROOT" (ascii ".")

/-- `path_join` below the root. -/
def path (rel : String) : CString :=
  if E.root = [] then ascii rel else E.root ++ ascii "/" ++ ascii rel

/-- `read_file_text`: what is read is used as a C string. -/
def readFileText (rel : String) : Except Err CStr := (E.readFile (E.path rel)).map cStr

def confirmMainnetBroadcast : Bool := E.getenv "CONFIRM_MAINNET_BROADCAST" = some (ascii "yes")

end ScriptEnv

section KeyFile

structure KeyFile where
  wif : CStr
  address : CStr

namespace ScriptEnv

variable (E : ScriptEnv)

/-- The home directory, as its buffer of 1024 bytes holds it. -/
def bonsaiHome : CString :=
  match E.envSet "BONSAI_NOTARY_HOME" with
  | some h => h.take 1023
  | none => (E.envOr "HOME" (ascii ".") ++ ascii "/.local/trinote").take 1023

def keyFileLoad (path : CString) : Except Err KeyFile :=
  match E.readFile path with
  | .error _ => .error .epersist
  | .ok text =>
    match CJson.parse (cStr text).val with
    | none => .error .eparse
    | some root =>
      match (CJson.getObjectItem (ascii "wif") root).bind CJson.stringValue,
        (CJson.getObjectItem (ascii "address") root).bind CJson.stringValue with
      | some wif, some address => .ok ⟨wif, address⟩
      | _, _ => .error .eparse

end ScriptEnv

def keyFileVerify (P : Prims) (S : Secp256k1) (kf : KeyFile) (net : BsvNetwork) :
    Except Err Unit := do
  let (key, _) ← ecdsaKeyFromWif P S kf.wif.val
  let pub ← key.pubkey
  if addressFromPubkey P pub net ≠ kf.address.val then throw .ebinding

end KeyFile

/-- `pubkey_hex_to_compressed`. -/
def pubkeyHexToCompressed (S : Secp256k1) (hex : CString) : Except Err (Block 33) :=
  ecdsaPubkeyFromHex S hex

end BonsaiChain
