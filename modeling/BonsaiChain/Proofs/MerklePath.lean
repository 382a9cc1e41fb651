import BonsaiChain.Blockchain
import BonsaiChain.Lib.HashChain
import BonsaiChain.Lib.Results
import BonsaiChain.Proofs.Blockchain
import BonsaiChain.Proofs.Common

/-!
# A Merkle root binds its leaf

A path is a chain of hashes, in which the text of a level has the sibling on the side its position
says. Two paths with the same positions that lead to one root have one leaf and the same siblings.
-/

namespace BonsaiChain

open Lib

section Path

variable {P : Prims} {leaf leaf' root : Block 32} {proof proof' : MerkleProof} {depth : ℕ}

/-- A level that is skipped. -/
def MerkleNode.Invalid (node : MerkleNode) : Prop := node.pos = merkleInvalidNode

instance : DecidablePred MerkleNode.Invalid := fun node =>
  inferInstanceAs (Decidable (node.pos = merkleInvalidNode))

/-- The texts hashed on a path. -/
def merkleTexts (P : Prims) (leaf : Block 32) (proof : MerkleProof) (depth : ℕ) : List Bytes :=
  chainTexts (sha256d P) MerkleNode.Invalid merkleConcat leaf (proof.toList.take depth)

theorem merkleConcat_length (root : Block 32) (node : MerkleNode) :
    (merkleConcat root node).length = 64 := by
  unfold merkleConcat
  split_ifs <;> simp [root.2, node.hash.2]

/-- At one position the text of a level has its two halves. -/
theorem merkleConcat_inj {root root' : Block 32} {node node' : MerkleNode}
    (hpos : node.pos = node'.pos) (h : merkleConcat root node = merkleConcat root' node') :
    root = root' ∧ node.hash = node'.hash := by
  unfold merkleConcat at h
  rw [hpos] at h
  split_ifs at h
  · obtain ⟨hhash, hroot⟩ := List.append_inj h (node.hash.2.trans node'.hash.2.symm)
    exact ⟨Subtype.ext hroot, Subtype.ext hhash⟩
  · obtain ⟨hroot, hhash⟩ := List.append_inj h (root.2.trans root'.2.symm)
    exact ⟨Subtype.ext hroot, Subtype.ext hhash⟩

theorem calcMerkleRoot_eq_ok : calcMerkleRoot P leaf proof depth = .ok root ↔
    depth ≤ merkleProofDepth ∧ (proof.toList.take depth).foldl (merkleLevel P) leaf = root := by
  unfold calcMerkleRoot
  rw [error_ite_eq_ok, not_lt, Except.ok.injEq]

/-- The positions of two proofs agree on the levels of a path. -/
def SameShape (proof proof' : MerkleProof) (depth : ℕ) : Prop :=
  ∀ i (h : i < merkleProofDepth), i < depth → proof[i].pos = proof'[i].pos

theorem forall₂_take {R : MerkleNode → MerkleNode → Prop} : List.Forall₂ R (proof.toList.take depth)
    (proof'.toList.take depth) ↔
      ∀ i (h : i < merkleProofDepth), i < depth → R proof[i] proof'[i] := by
  have hlen : ∀ q : MerkleProof, (q.toList.take depth).length = min depth merkleProofDepth := by
    simp
  rw [List.forall₂_iff_get]
  simp only [hlen, List.get_eq_getElem, List.getElem_take, Vector.getElem_toList, true_and]
  exact ⟨fun h i hi hd => h i (lt_min hd hi) (lt_min hd hi),
    fun h i hi _ => h i (hi.trans_le (min_le_right _ _)) (hi.trans_le (min_le_left _ _))⟩

/-- The hash tells apart what is hashed on the two paths. -/
def ApartOn (P : Prims) (leaf leaf' : Block 32) (proof proof' : MerkleProof) (depth : ℕ) : Prop :=
  Set.InjOn (sha256d P)
    {bs | bs ∈ merkleTexts P leaf proof depth ∨ bs ∈ merkleTexts P leaf' proof' depth}

theorem leaf_eq_of_root (hshape : SameShape proof proof' depth)
    (hinj : ApartOn P leaf leaf' proof proof' depth)
    (h : calcMerkleRoot P leaf proof depth = .ok root)
    (h' : calcMerkleRoot P leaf' proof' depth = .ok root) :
    leaf = leaf' ∧ ∀ i (hi : i < merkleProofDepth), i < depth →
      proof[i].pos ≠ merkleInvalidNode → proof[i].hash = proof'[i].hash := by
  obtain ⟨-, hroot⟩ := calcMerkleRoot_eq_ok.1 h
  obtain ⟨-, hroot'⟩ := calcMerkleRoot_eq_ok.1 h'
  have hchain := chain_binding (R := fun n n' : MerkleNode => n.pos = n'.pos)
    (Q := fun n n' => n.hash = n'.hash) (fun n n' hpos => by simp [MerkleNode.Invalid, hpos])
    (fun n n' v v' hpos _ htext => merkleConcat_inj hpos htext) (forall₂_take.2 hshape) hinj
    (hroot.trans hroot'.symm)
  exact ⟨hchain.1, forall₂_take.1 hchain.2⟩

theorem txInBlock_iff {header : BlockHeader} :
    txInBlock P leaf header proof depth = true
      ↔ calcMerkleRoot P leaf proof depth = .ok header.merkleRoot := by
  unfold txInBlock
  rcases calcMerkleRoot P leaf proof depth with e | root <;> simp

/-- A root is of one leaf and of one sibling at every level that is not skipped, so that for a shape
of paths one transaction at most is in the block of a header. Only texts of 64 bytes are hashed. -/
theorem calcMerkleRoot_binding (P : Prims) (depth : ℕ) (leaf leaf' : Block 32)
    (proof proof' : MerkleProof) (hshape : SameShape proof proof' depth)
    (hinj : ApartOn P leaf leaf' proof proof' depth) :
    (∀ root, calcMerkleRoot P leaf proof depth = .ok root →
      calcMerkleRoot P leaf' proof' depth = .ok root →
      leaf = leaf' ∧ ∀ i (hi : i < merkleProofDepth), i < depth →
        proof[i].pos ≠ merkleInvalidNode → proof[i].hash = proof'[i].hash)
    ∧ (∀ header, txInBlock P leaf header proof depth = true →
      txInBlock P leaf' header proof' depth = true → leaf = leaf')
    ∧ ∀ bs ∈ merkleTexts P leaf proof depth, bs.length = 64 := by
  refine ⟨fun root h h' => leaf_eq_of_root hshape hinj h h', fun header h h' => ?_,
    fun bs hbs => ?_⟩
  · exact (leaf_eq_of_root hshape hinj (txInBlock_iff.1 h) (txInBlock_iff.1 h')).1
  · obtain ⟨root, node, rfl⟩ := exists_of_mem_chainTexts hbs
    exact merkleConcat_length root node

/-- The payment in a block of two transactions, of which the first is its sibling. -/
def firstTxid : Block 32 :=
  hashOf 0x82501c1178fa0b222c1f3d474ec726b832013f0a532b44bb620cce8624a5feb1

def paymentTxid : Block 32 :=
  hashOf 0x169e1e83e930853391bc6f35f605c6754cfead57cf8387639d3b4096c54f18f4

def paymentProof : MerkleProof :=
  (Vector.replicate merkleProofDepth ⟨hashOf 0, merkleInvalidNode⟩).set 0
    ⟨firstTxid, merkleLeftNode⟩

def paymentHeader : BlockHeader :=
  { genesisHeader with
    prevBlockHash := hashOf 0x55bd840a78798ad0da853f68974f3d183e2bd1db6a842c1feecf222a00000000
    merkleRoot := hashOf 0xff104ccb05421ab93e63f8c3ce5c2c2e9dbb37de2764b3a3175c8166562cac7d
    time := 1231731025
    nonce := 1889418792 }

/-- The payment is in the block, and the first transaction is not where the payment is. -/
theorem calcMerkleRoot_binding_payment :
    txInBlock codePrims paymentTxid paymentHeader paymentProof 3 = true
      ∧ txInBlock codePrims firstTxid paymentHeader paymentProof 3 = false := by
  have hfacts : txInBlock codePrims paymentTxid paymentHeader paymentProof 3 = true
      ∧ paymentTxid ≠ firstTxid
      ∧ merkleTexts codePrims paymentTxid paymentProof 3 = [firstTxid.1 ++ paymentTxid.1]
      ∧ merkleTexts codePrims firstTxid paymentProof 3 = [firstTxid.1 ++ firstTxid.1]
      ∧ sha256d codePrims (firstTxid.1 ++ paymentTxid.1)
        ≠ sha256d codePrims (firstTxid.1 ++ firstTxid.1) := by
    decide +kernel
  obtain ⟨hin, hne, htexts, htexts', hhash⟩ := hfacts
  have hinj : ApartOn codePrims paymentTxid firstTxid paymentProof paymentProof 3 := by
    unfold ApartOn
    rw [htexts, htexts']
    simp only [List.mem_singleton]
    exact Set.injOn_pair.2 fun heq => absurd heq hhash
  obtain ⟨-, honly, -⟩ := calcMerkleRoot_binding codePrims 3 paymentTxid firstTxid paymentProof
    paymentProof (fun _ _ _ => rfl) hinj
  refine ⟨hin, ?_⟩
  rw [← Bool.not_eq_true]
  exact fun hin' => hne (honly paymentHeader hin hin')

end Path

end BonsaiChain
