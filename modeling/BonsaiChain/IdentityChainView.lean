import BonsaiChain.ChainSource

/-!
# Reading an identity script off the chain

`verify_identity_script_on_chain` compares the locking script of an identity outpoint with the one
expected. It never fails: a read that fails is a negative answer with a reason.
-/

namespace BonsaiChain

/-- `identity_chain_view_t`. -/
structure IdentityChainView where
  getIdentityScriptHex : CString → UInt32 → Except Err (Option CString)

/-- `csiv_get_identity_script_hex`: the view over a chain source. -/
def ChainSource.identityView (source : ChainSource) : IdentityChainView where
  getIdentityScriptHex genesisTxid vout :=
    match source.getRawTx genesisTxid with
    | .error e => .error e
    | .ok none => .error .enet
    | .ok (some raw) =>
      match txDeserialize raw with
      | .error e => .error e
      | .ok tx =>
        match tx.outputs[vout.toNat]? with
        | none => .error .enotfound
        | some o => .ok (some (hexEncode o.script))

/-- `bns_err_name`. -/
def Err.name : Err → CString
  | .einval => ascii "BNS_EINVAL"
  | .ecrypto => ascii "BNS_ECRYPTO"
  | .enet => ascii "BNS_ENET"
  | .eparse => ascii "BNS_EPARSE"
  | .enotfound => ascii "BNS_ENOTFOUND"
  | .epersist => ascii "BNS_EPERSIST"
  | .eshredded => ascii "BNS_ESHREDDED"
  | .eintegrity => ascii "BNS_EINTEGRITY"
  | .ebinding => ascii "BNS_EBINDING"
  | .ehoplimit => ascii "BNS_EHOPLIMIT"
  | .eperm => ascii "BNS_EPERM"
  | .enomem => ascii "BNS_ENOMEM"
  | .eunsupported => ascii "BNS_EUNSUPPORTED"
  | .erange => ascii "BNS_ERANGE"

def unreachablePrefix : CString := ascii "chain unreachable (fail-closed): "

/-- The detail reported for a read that returned `rc`; `none` is `BNS_OK` without a script. -/
def unreachableDetail : Option Err → CString
  | some .enotfound => ascii "identity output not found"
  | some .enet => ascii "chain read failed"
  | some .eparse => ascii "malformed transaction"
  | some .enomem => ascii "out of memory"
  | some .einval => ascii "invalid argument"
  | some e => e.name
  | none => ascii "BNS_OK"

/-- ASCII lower case, as `strcasecmp` compares. -/
def asciiLower (s : CString) : CString := s.map fun c => if 65 ≤ c ∧ c ≤ 90 then c - 65 + 97 else c

/-- `verify_identity_script_on_chain`: `none` is `ok`, otherwise the reason. -/
def verifyIdentityScriptOnChain (view : IdentityChainView) (identityId : Option CString)
    (vout : UInt32) (expected : Option CString) : Option CString :=
  match identityId, expected with
  | some identityId, some expected =>
    match view.getIdentityScriptHex identityId vout with
    | .error e => some (unreachablePrefix ++ unreachableDetail (some e))
    | .ok none => some (unreachablePrefix ++ unreachableDetail none)
    | .ok (some onChain) =>
      if asciiLower onChain = asciiLower expected then none
      else some (ascii
        "on-chain locking script does not match the expected script (charter/param mismatch)")
  | _, _ => some (unreachablePrefix ++ ascii "invalid identity view")

end BonsaiChain
