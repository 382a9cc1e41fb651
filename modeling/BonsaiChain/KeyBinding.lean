import BonsaiChain.KeyBroker

/-!
# What binds a key to its contract

`key_broker_issue_from_chain` looks for the hash and for the key in the lower-case text of the
verified script. The script commits to them when it contains their bytes, which asks for an
occurrence on a byte boundary.
-/

namespace BonsaiChain

/-- An occurrence in a hex text that starts on a byte boundary. -/
def OccursAligned (needle text : CString) : Prop :=
  ∃ before after, before ++ needle ++ after = text ∧ before.length % 2 = 0

namespace IssueFromChainArgs

variable (args : IssueFromChainArgs)

def scriptText : CString := args.expectedLockingScriptHex.getD []

def hashText : CString := args.ricardianHash.getD []

def keyText : CString := args.agentPubKey.getD []

/-- The bytes of the script contain the 32 of the hash and the 33 of the key. -/
def ScriptBinds : Prop :=
  ∃ script, hexDecode args.scriptText = .ok script ∧
    (∃ rh, hexDecodeFixed args.hashText 32 = .ok rh ∧ rh <:+: script) ∧
    ∃ pk, hexDecodeFixed args.keyText 33 = .ok pk ∧ pk <:+: script

/-- What the broker checks of its arguments. -/
structure TextBinds (view : IdentityChainView) : Prop where
  verified : verifyIdentityScriptOnChain view args.identityId args.identityVout
    args.expectedLockingScriptHex = none
  hash : isSha256Hex args.hashText = true
  key : isPubkeyHex args.keyText = true
  hash_mem : hexToLower args.hashText <:+: hexToLower args.scriptText
  key_mem : hexToLower args.keyText <:+: hexToLower args.scriptText

/-- What it leaves open: the script is whole bytes, and both occur on a byte boundary. -/
structure TextAligned : Prop where
  even : args.scriptText.length % 2 = 0
  digits : ∀ c ∈ args.scriptText, (hexNibble c).isSome = true
  hash : OccursAligned (hexToLower args.hashText) (hexToLower args.scriptText)
  key : OccursAligned (hexToLower args.keyText) (hexToLower args.scriptText)

end IssueFromChainArgs

/-- Neither draw of the random source fails. -/
def IssueRandom.Answers (rand : IssueRandom) : Prop :=
  rand.idRaw.isSome = true ∧ rand.secRaw.isSome = true

end BonsaiChain
