import BonsaiChain.Lib.PrimeField
import BonsaiChain.Lib.Results
import BonsaiChain.Mimc7
import BonsaiChain.Proofs.Bignum
import Mathlib.Tactic.NormNum.Prime
import Mathlib.Tactic.Ring

/-!
# The cipher and its permutation

The hash computes the cipher over the field of `r` elements, wherever values are reduced. The order
of the units of this field has no factor 7, so every round is a permutation.
-/

namespace BonsaiChain

open Lib

section Field

/-- The number of elements of the field. -/
def scalarField : ℕ :=
  21888242871839275222246405745257275088548364400416034343698204186575808495617

/-- The text of the modulus, the certificates down to factors that are small, and the order of the
units. -/
theorem scalarField_facts : mimc7ScalarField = .ok (scalarField : ℤ)
    ∧ LucasTest 29 405928799 22 [2, 11, 3691, 4999]
    ∧ LucasTest 34 12048837557 2 [2, 2, 7, 7, 661, 93001]
    ∧ LucasTest 43 5156902474397 2 [2, 2, 107, 12048837557]
    ∧ LucasTest 51 1670836401704629 2 [2, 2, 3, 3, 3, 3, 5156902474397]
    ∧ LucasTest 30 639533339 2 [2, 229, 853, 1637]
    ∧ LucasTest 56 65865678001877903 5 [2, 83, 379, 1637, 639533339]
    ∧ LucasTest 94 13818364434197438864469338081 3
      [2, 2, 2, 2, 2, 5, 823, 1593227, 65865678001877903]
    ∧ LucasTest 254 scalarField 5 (List.replicate 28 2 ++ [3, 3, 13, 29, 983, 11003, 237073,
      405928799, 1670836401704629, 13818364434197438864469338081])
    ∧ Nat.Coprime 7 (scalarField - 1) ∧ ¬7 ∣ scalarField - 1 := by
  decide +kernel

theorem mimc7ScalarField_eq : mimc7ScalarField = .ok (scalarField : ℤ) := scalarField_facts.1

theorem scalarField_units : Nat.Coprime 7 (scalarField - 1) ∧ ¬7 ∣ scalarField - 1 :=
  scalarField_facts.2.2.2.2.2.2.2.2.2

theorem scalarField_prime : scalarField.Prime := by
  obtain ⟨-, t405928799, t12048837557, t5156902474397, t1670836401704629, t639533339,
    t65865678001877903, t13818364434197438864469338081, htest, -⟩ := scalarField_facts
  have h405928799 := t405928799.prime (by norm_num)
  have h12048837557 := t12048837557.prime (by norm_num)
  have h5156902474397 := t5156902474397.prime (by simp [h12048837557]; norm_num)
  have h1670836401704629 := t1670836401704629.prime (by simp [h5156902474397]; norm_num)
  have h639533339 := t639533339.prime (by norm_num)
  have h65865678001877903 := t65865678001877903.prime (by simp [h639533339]; norm_num)
  have h13818364434197438864469338081 :=
    t13818364434197438864469338081.prime (by simp [h65865678001877903]; norm_num)
  refine htest.prime fun q hq => ?_
  rcases List.mem_append.1 hq with hq | hq
  · rw [List.eq_of_mem_replicate hq]
    exact Nat.prime_two
  · revert q
    simp [h405928799, h1670836401704629, h13818364434197438864469338081]
    norm_num

instance : Fact scalarField.Prime := ⟨scalarField_prime⟩

theorem scalarField_pos : (0 : ℤ) < scalarField := by
  exact_mod_cast scalarField_prime.pos

end Field

section Rounds

variable {c : ℕ → ℤ} {x k : ℤ}

theorem bnNnmod_eq {a m : ℤ} (hm : 0 < m) : bnNnmod a m = .ok (a % m) := if_neg hm.ne'

theorem bnModMul_eq {a b m : ℤ} (hm : 0 < m) : bnModMul a b m = .ok (a * b % m) := if_neg hm.ne'

/-- A residue, and which one it is. -/
theorem pow7Mod_eq {t m : ℤ} (hm : 0 < m) : pow7Mod t m = .ok (t ^ 7 % m) := by
  have h2 : t * t % m ≡ t ^ 2 [ZMOD m] := by
    rw [sq]
    exact Int.mod_modEq _ _
  have h4 : (t * t % m) * (t * t % m) % m ≡ t ^ 4 [ZMOD m] := by
    rw [show t ^ 4 = t ^ 2 * t ^ 2 by ring]
    exact (Int.mod_modEq _ _).trans (h2.mul h2)
  have h6 : (t * t % m) * (t * t % m) % m * (t * t % m) % m ≡ t ^ 6 [ZMOD m] := by
    rw [show t ^ 6 = t ^ 4 * t ^ 2 by ring]
    exact (Int.mod_modEq _ _).trans (h4.mul h2)
  simp only [pow7Mod, bnModMul_eq hm, ok_bind]
  rw [show t ^ 7 = t ^ 6 * t by ring]
  exact congrArg Except.ok (h6.mul_right t)

example : pow7Mod (scalarField - 2) scalarField = .ok ((scalarField : ℤ) - 2 ^ 7) := by
  decide +kernel

/-- The rounds compute those of the cipher on integers, up to the modulus. -/
theorem foldlM_mimc7Round {m xr kr : ℤ} {consts : List ℤ} (hm : 0 < m) (hx : xr ≡ x [ZMOD m])
    (hk : kr ≡ k [ZMOD m]) : ∀ n, (∀ i ≤ n, consts.getD i 0 = c i) →
      (List.range (n + 1)).foldlM (mimc7Round m xr kr consts) 0 = .ok (mimc7Ref c x k n % m)
  | 0, _ => by
    have hin : (xr + kr) % m ≡ x + k [ZMOD m] := (Int.mod_modEq _ _).trans (hx.add hk)
    simp only [Nat.zero_add, List.range_one, List.foldlM_cons, List.foldlM_nil, mimc7Round,
      roundInput, if_true, bnNnmod_eq hm, ok_bind, pow7Mod_eq hm, mimc7Ref]
    exact congrArg Except.ok (hin.pow 7)
  | n + 1, hc => by
    have hin : (mimc7Ref c x k n % m + kr + c (n + 1)) % m
        ≡ mimc7Ref c x k n + k + c (n + 1) [ZMOD m] :=
      (Int.mod_modEq _ _).trans (((Int.mod_modEq _ _).add hk).add_right _)
    rw [List.range_succ, List.foldlM_append,
      foldlM_mimc7Round hm hx hk n fun i hi => hc i (hi.trans n.le_succ), ok_bind]
    simp only [List.foldlM_cons, List.foldlM_nil, mimc7Round, roundInput, Nat.succ_ne_zero,
      if_false,
      hc (n + 1) le_rfl, bnNnmod_eq hm, ok_bind, pow7Mod_eq hm, mimc7Ref]
    exact congrArg Except.ok (hin.pow 7)

theorem mapM_eq_ok_of_forall {α ε : Type} {f : α → Except ε ℤ} : ∀ {as : List α} {c : ℕ → ℤ},
    (∀ i (h : i < as.length), f as[i] = .ok (c i)) →
    as.mapM f = .ok ((List.range as.length).map c)
  | [], _, _ => rfl
  | a :: as, c, h => by
    have hrest : as.mapM f = .ok ((List.range as.length).map fun i => c (i + 1)) :=
      mapM_eq_ok_of_forall fun i hi => h (i + 1) (Nat.succ_lt_succ hi)
    rw [List.mapM_cons, show f a = .ok (c 0) from h 0 (Nat.succ_pos _), ok_bind, hrest, ok_bind,
      List.length_cons, List.range_succ_eq_map, List.map_cons, List.map_map]
    rfl

/-- The texts of the table are integers. -/
def TableOf (table : Vector CString mimc7Rounds) (c : ℕ → ℤ) : Prop :=
  ∀ i (h : i < mimc7Rounds), bnParseDec table[i] = .ok (c i)

theorem mimc7HashWith_eq {table : Vector CString mimc7Rounds} (h : TableOf table c) (x k : ℤ) :
    mimc7HashWith table x k = .ok (mimc7Cipher c x k % scalarField) := by
  have hm := scalarField_pos
  have hlen : table.toList.length = mimc7Rounds := Vector.length_toList
  have hconsts : table.toList.mapM bnParseDec = .ok ((List.range table.toList.length).map c) := by
    refine mapM_eq_ok_of_forall fun i hi => ?_
    rw [Vector.getElem_toList]
    exact h i (hlen ▸ hi)
  rw [hlen] at hconsts
  have hget : ∀ i ≤ 90, ((List.range mimc7Rounds).map c).getD i 0 = c i := by
    intro i hi
    have hlt : i < 91 := by omega
    simp [List.getD_eq_getElem?_getD, mimc7Rounds, hlt]
  have hrun := foldlM_mimc7Round (c := c) hm (Int.mod_modEq x _) (Int.mod_modEq k _) 90 hget
  have hout : mimc7Ref c x k 90 % scalarField + k % scalarField
      ≡ mimc7Cipher c x k [ZMOD scalarField] :=
    (Int.mod_modEq _ _).add (Int.mod_modEq _ _)
  unfold mimc7HashWith
  rw [mimc7ScalarField_eq, ok_bind, bnNnmod_eq hm, ok_bind, bnNnmod_eq hm, ok_bind, hconsts,
    ok_bind]
  show (List.range (90 + 1)).foldlM _ 0 >>= _ = _
  rw [hrun, ok_bind, bnNnmod_eq hm]
  exact congrArg Except.ok hout

end Rounds

section Cipher

variable {c : ℕ → ℤ} {x k : ℤ}

/-- A homomorphism of rings carries the cipher over. -/
theorem map_mimc7Ref {R S : Type*} [CommRing R] [CommRing S] (f : R →+* S) (c : ℕ → R) (x k : R) :
    ∀ i, f (mimc7Ref c x k i) = mimc7Ref (fun i => f (c i)) (f x) (f k) i
  | 0 => by rw [mimc7Ref, mimc7Ref, map_pow, map_add]
  | i + 1 => by rw [mimc7Ref, mimc7Ref, map_pow, map_add, map_add, map_mimc7Ref f c x k i]

theorem cast_mimc7Cipher (c : ℕ → ℤ) (x k : ℤ) : ((mimc7Cipher c x k : ℤ) : ZMod scalarField)
    = mimc7Cipher (fun i => (c i : ZMod scalarField)) x k := by
  have hrounds := map_mimc7Ref (Int.castRingHom (ZMod scalarField)) c x k 90
  simp only [eq_intCast] at hrounds
  rw [mimc7Cipher, mimc7Cipher, Int.cast_add, hrounds]

theorem mimc7Cipher_congr {x' k' : ℤ} (hx : x ≡ x' [ZMOD scalarField])
    (hk : k ≡ k' [ZMOD scalarField]) :
    mimc7Cipher c x k ≡ mimc7Cipher c x' k' [ZMOD scalarField] := by
  rw [← ZMod.intCast_eq_intCast_iff, cast_mimc7Cipher, cast_mimc7Cipher,
    (ZMod.intCast_eq_intCast_iff _ _ _).2 hx, (ZMod.intCast_eq_intCast_iff _ _ _).2 hk]

/-- Reductions on the way do not change the residue. -/
theorem mimc7Reduced_modEq {reduce : ℕ → ℕ → ℤ → ℤ} {m : ℤ}
    (h : ∀ i j z, reduce i j z ≡ z [ZMOD m]) :
    ∀ i, mimc7Reduced reduce c x k i ≡ mimc7Ref c x k i [ZMOD m] := by
  have hpow : ∀ i t t', t ≡ t' [ZMOD m] → pow7Reduced (reduce i) t ≡ t' ^ 7 [ZMOD m] := by
    intro i t t' ht
    have h1 := (h i 0 t).trans ht
    have h2 := (h i 1 _).trans (h1.mul h1)
    have h4 := (h i 2 _).trans (h2.mul h2)
    have h6 := (h i 3 _).trans (h4.mul h2)
    have h7 := (h i 4 _).trans (h6.mul h1)
    rwa [show t' * t' * (t' * t') * (t' * t') * t' = t' ^ 7 by ring] at h7
  intro i
  induction i with
  | zero => exact hpow 0 _ _ (Int.ModEq.refl _)
  | succ i ih => exact hpow (i + 1) _ _ ((ih.add_right k).add_right _)

/-- The seventh power permutes the field, and so do the rounds. -/
theorem bijective_mimc7Cipher (c : ℕ → ZMod scalarField) (k : ZMod scalarField) :
    Function.Bijective fun x => mimc7Cipher c x k := by
  have hpow : Function.Bijective fun x : ZMod scalarField => x ^ 7 :=
    pow_bijective_of_coprime (by decide) scalarField_units.1
  have hadd : ∀ a : ZMod scalarField, Function.Bijective fun x : ZMod scalarField => x + a :=
    fun a => (Equiv.addRight a).bijective
  have hrounds : ∀ i, Function.Bijective fun x => mimc7Ref c x k i := by
    intro i
    induction i with
    | zero => exact hpow.comp (hadd k)
    | succ i ih => exact hpow.comp ((hadd (c (i + 1))).comp ((hadd k).comp ih))
  exact (hadd k).comp (hrounds 90)

/-- The hash is the cipher over the field, wherever values are reduced; it depends on its arguments
up to the modulus; and it is a permutation of the residues for every key. -/
theorem mimc7Hash_permutes {table : Vector CString mimc7Rounds} (h : TableOf table c) :
    (∀ x k : ℤ, ∃ y : ℤ, mimc7HashWith table x k = .ok y ∧ 0 ≤ y ∧ y < scalarField
      ∧ (y : ZMod scalarField) = mimc7Cipher (fun i => (c i : ZMod scalarField)) x k)
    ∧ (∀ reduce : ℕ → ℕ → ℤ → ℤ, (∀ i j z, reduce i j z ≡ z [ZMOD scalarField]) → ∀ x k : ℤ,
      mimc7HashWith table x k = .ok ((mimc7Reduced reduce c x k 90 + k) % scalarField))
    ∧ (∀ x x' k k' : ℤ, x ≡ x' [ZMOD scalarField] → k ≡ k' [ZMOD scalarField] →
      mimc7HashWith table x k = mimc7HashWith table x' k')
    ∧ (∀ k y : ℤ, 0 ≤ y → y < scalarField →
      ∃! x : ℤ, 0 ≤ x ∧ x < scalarField ∧ mimc7HashWith table x k = .ok y)
    ∧ scalarField.Prime ∧ ¬7 ∣ scalarField - 1 := by
  have hpos := scalarField_pos
  refine ⟨fun x k => ?_, fun reduce hreduce x k => ?_, fun x x' k k' hx hk => ?_,
    fun k y hy0 hy => ?_, scalarField_prime, scalarField_units.2⟩
  · refine ⟨_, mimc7HashWith_eq h x k, Int.emod_nonneg _ hpos.ne', Int.emod_lt_of_pos _ hpos, ?_⟩
    rw [← cast_mimc7Cipher, ZMod.intCast_mod]
  · rw [mimc7HashWith_eq h]
    exact congrArg Except.ok ((mimc7Reduced_modEq hreduce 90).add_right k).symm
  · rw [mimc7HashWith_eq h, mimc7HashWith_eq h]
    exact congrArg Except.ok (mimc7Cipher_congr hx hk)
  · obtain ⟨hinj, hsurj⟩ := bijective_mimc7Cipher (fun i => (c i : ZMod scalarField)) k
    have hash_eq_iff : ∀ x, mimc7HashWith table x k = .ok y
        ↔ mimc7Cipher (fun i => (c i : ZMod scalarField)) x k = y := by
      intro x
      rw [mimc7HashWith_eq h, Except.ok.injEq, ← cast_mimc7Cipher, ZMod.intCast_eq_intCast_iff,
        Int.ModEq, Int.emod_eq_of_lt hy0 hy]
    obtain ⟨z, hz⟩ := hsurj y
    refine ⟨(z.val : ℤ), ⟨Int.natCast_nonneg _, by exact_mod_cast z.val_lt, ?_⟩, ?_⟩
    · rw [hash_eq_iff, Int.cast_natCast, ZMod.natCast_zmod_val]
      exact hz
    · rintro x ⟨hx0, hx, hrun⟩
      have hxz : (x : ZMod scalarField) = z := hinj (((hash_eq_iff x).1 hrun).trans hz.symm)
      rw [← hxz, ZMod.val_intCast, Int.emod_eq_of_lt hx0 hx]

theorem tableOf_mimc7Consts :
    TableOf (mimc7Consts.map decimal) fun i => (mimc7Consts.toList.getD i 0 : ℕ) := by
  intro i h
  have hlen : i < mimc7Consts.toList.length := by simpa using h
  have hget : mimc7Consts.toList.getD i 0 = mimc7Consts[i] := by
    rw [List.getD_eq_getElem?_getD, List.getElem?_eq_getElem hlen, Option.getD_some,
      Vector.getElem_toList]
    rfl
  rw [Vector.getElem_map]
  show bnParseDec (bnToDec mimc7Consts[i]) = .ok ((mimc7Consts.toList.getD i 0 : ℕ) : ℤ)
  rw [hget, bnParseDec_bnToDec]

/-- The value that the source's tests pin. -/
theorem mimc7Hash_permutes_golden : mimc7Hash 1000 42
    = .ok 10025378560806186074443659034927597894808578558948732736767174265523349824461 := by
  obtain ⟨-, hreduced, -⟩ := mimc7Hash_permutes tableOf_mimc7Consts
  have hrun := hreduced (fun _ _ z => z % scalarField) (fun _ _ _ => Int.mod_modEq _ _) 1000 42
  rw [mimc7Hash, hrun]
  decide +kernel

end Cipher

section Commitment

variable {draw : Option (Block 31)} {limit : ℤ}

/-- The residue that a hash under a key is taken for. -/
theorem mimc7HashWith_eq_iff {c : ℕ → ℤ} {table : Vector CString mimc7Rounds} (h : TableOf table c)
    {x x' k : ℤ} :
    mimc7HashWith table x k = mimc7HashWith table x' k ↔ x ≡ x' [ZMOD scalarField] := by
  rw [mimc7HashWith_eq h, mimc7HashWith_eq h, Except.ok.injEq]
  have hinj := (bijective_mimc7Cipher (fun i => (c i : ZMod scalarField)) k).injective
  calc mimc7Cipher c x k % scalarField = mimc7Cipher c x' k % scalarField
      ↔ ((mimc7Cipher c x k : ℤ) : ZMod scalarField) = (mimc7Cipher c x' k : ℤ) :=
        (ZMod.intCast_eq_intCast_iff _ _ _).symm
    _ ↔ (x : ZMod scalarField) = x' := by
        rw [cast_mimc7Cipher, cast_mimc7Cipher]
        exact hinj.eq_iff
    _ ↔ x ≡ x' [ZMOD scalarField] := ZMod.intCast_eq_intCast_iff _ _ _

/-- The salt is the draw, reduced. -/
def saltOf (saltbuf : Block 31) : ℤ := bnParseBe saltbuf.val % scalarField

theorem commitLimit_eq_ok {commitment salt : ℤ} :
    commitLimit draw limit = .ok (commitment, salt) ↔ 0 ≤ limit ∧ ∃ saltbuf, draw = some saltbuf
      ∧ salt = saltOf saltbuf ∧ mimc7Hash limit (saltOf saltbuf) = .ok commitment := by
  unfold commitLimit
  rw [guard_eq_ok, not_lt]
  rcases draw with _ | saltbuf
  · simp [throw, throwThe, MonadExceptOf.throw]
  · have hsalt : bnNnmod (bnParseBe saltbuf.val) scalarField = .ok (saltOf saltbuf) :=
      bnNnmod_eq scalarField_pos
    refine and_congr_right fun _ => ?_
    dsimp only
    rw [mimc7ScalarField_eq, ok_bind, hsalt, ok_bind, bind_eq_ok]
    refine ⟨?_, ?_⟩
    · rintro ⟨_, hash, hpair⟩
      obtain ⟨rfl, rfl⟩ := Prod.mk.inj (pure_eq_ok.1 hpair)
      exact ⟨saltbuf, rfl, rfl, hash⟩
    · rintro ⟨_, hdraw, rfl, hash⟩
      obtain rfl := Option.some.inj hdraw
      exact ⟨_, hash, rfl⟩

/-- A limit is accepted when it is not negative and the draw succeeds, and commitments with the same
salt are equal exactly for limits that agree up to the modulus. -/
theorem commitLimit_binding :
    (∀ draw limit, (∃ commitment salt, commitLimit draw limit = .ok (commitment, salt))
      ↔ 0 ≤ limit ∧ draw ≠ none)
    ∧ ∀ draw limit limit' commitment commitment' salt salt',
      commitLimit draw limit = .ok (commitment, salt) →
      commitLimit draw limit' = .ok (commitment', salt') →
      salt = salt' ∧ (commitment = commitment' ↔ limit ≡ limit' [ZMOD scalarField])
      ∧ (limit < scalarField → limit' < scalarField → commitment = commitment' →
        limit = limit') := by
  refine ⟨fun draw limit => ?_, fun draw limit limit' c c' salt salt' hrun hrun' => ?_⟩
  · simp only [commitLimit_eq_ok]
    refine ⟨fun ⟨_, _, h, saltbuf, hdraw, _⟩ => ⟨h, by simp [hdraw]⟩, fun ⟨h, hdraw⟩ => ?_⟩
    obtain ⟨saltbuf, rfl⟩ := Option.ne_none_iff_exists'.1 hdraw
    exact ⟨_, _, h, saltbuf, rfl, rfl, mimc7HashWith_eq tableOf_mimc7Consts _ _⟩
  · obtain ⟨h, saltbuf, rfl, rfl, hash⟩ := commitLimit_eq_ok.1 hrun
    obtain ⟨h', _, hdraw, rfl, hash'⟩ := commitLimit_eq_ok.1 hrun'
    obtain rfl := Option.some.inj hdraw
    have hiff : c = c' ↔ limit ≡ limit' [ZMOD scalarField] := by
      rw [← mimc7HashWith_eq_iff (k := saltOf saltbuf) tableOf_mimc7Consts, ← mimc7Hash,
        ← mimc7Hash,
        hash, hash', Except.ok.injEq]
    refine ⟨rfl, hiff, fun hr hr' heq => ?_⟩
    have hmod := hiff.1 heq
    rwa [Int.ModEq, Int.emod_eq_of_lt h hr, Int.emod_eq_of_lt h' hr'] at hmod

theorem commitLimit_binding_five :
    commitLimit (some (Block.fill 31 1)) 5 ≠ commitLimit (some (Block.fill 31 1)) 6 := by
  intro heq
  obtain ⟨c, salt, hrun⟩ := (commitLimit_binding.1 (some (Block.fill 31 1)) 5).2 (by simp)
  obtain ⟨-, -, hinj⟩ := commitLimit_binding.2 _ 5 6 c c salt salt hrun (heq ▸ hrun)
  have h : (5 : ℤ) = 6 := hinj (by simp [scalarField]) (by simp [scalarField]) rfl
  omega

/-- A limit and the same limit plus the modulus. -/
theorem commitLimit_not_binding : ∃ commitment salt,
    commitLimit (some (Block.fill 31 1)) 5 = .ok (commitment, salt)
    ∧ commitLimit (some (Block.fill 31 1)) (5 + scalarField) = .ok (commitment, salt)
    ∧ (5 : ℤ) ≠ 5 + scalarField := by
  have hash : mimc7Hash 5 (saltOf (Block.fill 31 1))
      = mimc7Hash (5 + scalarField) (saltOf (Block.fill 31 1)) :=
    (mimc7HashWith_eq_iff tableOf_mimc7Consts).2 (by simp [Int.ModEq])
  have h5 := mimc7HashWith_eq tableOf_mimc7Consts 5 (saltOf (Block.fill 31 1))
  refine ⟨_, _, commitLimit_eq_ok.2 ⟨by simp, _, rfl, rfl, h5⟩,
    commitLimit_eq_ok.2 ⟨by simp [scalarField], _, rfl, rfl, hash.symm.trans h5⟩, ?_⟩
  simp [scalarField]

end Commitment

end BonsaiChain
