import BonsaiChain.Address
import BonsaiChain.AgentStateFile
import BonsaiChain.AgentTea
import BonsaiChain.AgentTeaCovenant
import BonsaiChain.AgentTeaSpend
import BonsaiChain.AgentTeaTxBuilder
import BonsaiChain.Agentd
import BonsaiChain.AgentdLineage
import BonsaiChain.AgentdPersistence
import BonsaiChain.AgentdWorld
import BonsaiChain.ArpTxBuilder
import BonsaiChain.ArtifactLoader
import BonsaiChain.AtlasIdentity
import BonsaiChain.AttestationQuorum
import BonsaiChain.AttestorTea
import BonsaiChain.AttestorTeaSpend
import BonsaiChain.AuthorizationEnvelope
import BonsaiChain.AutoExecLinter
import BonsaiChain.AutoExecVector
import BonsaiChain.Base58
import BonsaiChain.Base58Buffer
import BonsaiChain.Bignum
import BonsaiChain.Blockchain
import BonsaiChain.BuilderCall
import BonsaiChain.CJson
import BonsaiChain.CJsonPretty
import BonsaiChain.CNumber
import BonsaiChain.CanonicalJson
import BonsaiChain.ChainBroadcast
import BonsaiChain.ChainSource
import BonsaiChain.ChangeSettlement
import BonsaiChain.CharterParams
import BonsaiChain.Common
import BonsaiChain.ContractCall
import BonsaiChain.ContractSign
import BonsaiChain.Covenant
import BonsaiChain.CovenantSpend
import BonsaiChain.Cpfp
import BonsaiChain.Deploy
import BonsaiChain.Ecdsa
import BonsaiChain.Hash
import BonsaiChain.IdentityChainView
import BonsaiChain.KeyBinding
import BonsaiChain.KeyBroker
import BonsaiChain.KeyVault
import BonsaiChain.Lib.Binary64
import BonsaiChain.Lib.BlumRoot
import BonsaiChain.Lib.CrashDisk
import BonsaiChain.Lib.Delimited
import BonsaiChain.Lib.FileReplace
import BonsaiChain.Lib.HashChain
import BonsaiChain.Lib.LedgerRegister
import BonsaiChain.Lib.LineLog
import BonsaiChain.Lib.LittleEndian
import BonsaiChain.Lib.Loop
import BonsaiChain.Lib.Parser
import BonsaiChain.Lib.Paths
import BonsaiChain.Lib.PrimeField
import BonsaiChain.Lib.Radix
import BonsaiChain.Lib.Results
import BonsaiChain.Lib.Reverse
import BonsaiChain.Lib.RollingWindow
import BonsaiChain.Lib.Runs
import BonsaiChain.Lib.Search
import BonsaiChain.Lib.Segments
import BonsaiChain.Lib.Sha256
import BonsaiChain.Lib.SignMagnitude
import BonsaiChain.Lib.StableSort
import BonsaiChain.Lib.Traced
import BonsaiChain.Lib.Utf8
import BonsaiChain.ManifestDurability
import BonsaiChain.ManifestRegistry
import BonsaiChain.Mimc7
import BonsaiChain.Num2bin
import BonsaiChain.PrivateEnclave
import BonsaiChain.Proofs.AgentStateFile
import BonsaiChain.Proofs.AgentTea
import BonsaiChain.Proofs.AgentTeaSpend
import BonsaiChain.Proofs.Agentd
import BonsaiChain.Proofs.AgentdMirror
import BonsaiChain.Proofs.AgentdPersistence
import BonsaiChain.Proofs.AgentdRecord
import BonsaiChain.Proofs.AgentdWorld
import BonsaiChain.Proofs.ArtifactLoader
import BonsaiChain.Proofs.AttestationQuorum
import BonsaiChain.Proofs.AttestorTeaSpend
import BonsaiChain.Proofs.AutoExecLinter
import BonsaiChain.Proofs.AutoExecVector
import BonsaiChain.Proofs.Base58
import BonsaiChain.Proofs.Bignum
import BonsaiChain.Proofs.Blockchain
import BonsaiChain.Proofs.BuilderCall
import BonsaiChain.Proofs.Builders
import BonsaiChain.Proofs.CJson
import BonsaiChain.Proofs.CJsonPretty
import BonsaiChain.Proofs.ChangeSettlement
import BonsaiChain.Proofs.CharterParams
import BonsaiChain.Proofs.Common
import BonsaiChain.Proofs.ContractCall
import BonsaiChain.Proofs.Covenant
import BonsaiChain.Proofs.CovenantSpend
import BonsaiChain.Proofs.Cpfp
import BonsaiChain.Proofs.Deploy
import BonsaiChain.Proofs.DomainMessages
import BonsaiChain.Proofs.FixedFee
import BonsaiChain.Proofs.KeyBinding
import BonsaiChain.Proofs.KeyBroker
import BonsaiChain.Proofs.KeyVault
import BonsaiChain.Proofs.KillSwitch
import BonsaiChain.Proofs.LengthPrefix
import BonsaiChain.Proofs.ManifestRegistry
import BonsaiChain.Proofs.MerklePath
import BonsaiChain.Proofs.Mimc7
import BonsaiChain.Proofs.Num2bin
import BonsaiChain.Proofs.Num2binWidth
import BonsaiChain.Proofs.OracleCache
import BonsaiChain.Proofs.PrivateEnclave
import BonsaiChain.Proofs.PublisherTea
import BonsaiChain.Proofs.PublisherTeaSpend
import BonsaiChain.Proofs.Rabin
import BonsaiChain.Proofs.RabinAttestor
import BonsaiChain.Proofs.RabinPrime
import BonsaiChain.Proofs.ReceiptHistory
import BonsaiChain.Proofs.ReceiptReadback
import BonsaiChain.Proofs.RecoverPadding
import BonsaiChain.Proofs.ReleaseAnchorVerifier
import BonsaiChain.Proofs.ReputationIndexer
import BonsaiChain.Proofs.RevocationOracle
import BonsaiChain.Proofs.RicardianCharter
import BonsaiChain.Proofs.RicardianTeaSpend
import BonsaiChain.Proofs.SandboxedAgent
import BonsaiChain.Proofs.ScriptPush
import BonsaiChain.Proofs.Sighash
import BonsaiChain.Proofs.SpendHistory
import BonsaiChain.Proofs.TeaMethod
import BonsaiChain.Proofs.TemplateSubstitution
import BonsaiChain.Proofs.TerminalSpend
import BonsaiChain.Proofs.Tx
import BonsaiChain.Proofs.TxBuilders
import BonsaiChain.Proofs.Utf8
import BonsaiChain.Proofs.UtxoSelect
import BonsaiChain.Proofs.Varint
import BonsaiChain.Proofs.VerifyRicardian
import BonsaiChain.Proofs.WalletSpend
import BonsaiChain.Proofs.WindowRun
import BonsaiChain.Proofs.ZkHiddenLimit
import BonsaiChain.PublisherTea
import BonsaiChain.PublisherTeaCovenant
import BonsaiChain.PublisherTeaSpend
import BonsaiChain.Rabin
import BonsaiChain.RabinAttestor
import BonsaiChain.RabinPrime
import BonsaiChain.ReceiptHistory
import BonsaiChain.ReleaseAnchorVerifier
import BonsaiChain.ReputationIndexer
import BonsaiChain.RevocationOracle
import BonsaiChain.RicardianCharter
import BonsaiChain.RicardianTea
import BonsaiChain.RicardianTeaCovenant
import BonsaiChain.RicardianTeaSpend
import BonsaiChain.RicardianTeaTxBuilder
import BonsaiChain.SandboxedAgent
import BonsaiChain.Script
import BonsaiChain.ScriptCodec
import BonsaiChain.ScriptSupport
import BonsaiChain.ScryptContract
import BonsaiChain.SigningOrder
import BonsaiChain.TeaMethod
import BonsaiChain.Tx
import BonsaiChain.TxBuilders
import BonsaiChain.TxChange
import BonsaiChain.Utf8
import BonsaiChain.UtxoSelect
import BonsaiChain.VerifyRicardian
import BonsaiChain.WalletSpend
import BonsaiChain.WindowRun
import BonsaiChain.ZkHiddenLimit
