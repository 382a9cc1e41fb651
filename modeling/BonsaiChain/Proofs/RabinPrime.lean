import BonsaiChain.Lib.Search
import BonsaiChain.Proofs.Rabin
import BonsaiChain.RabinPrime
import Mathlib.FieldTheory.Finite.Basic
import Mathlib.NumberTheory.LSeries.PrimesInAP

/-!
# The search ends at the least candidate

Neither loop passes over a number that is 3 modulo 4, has no small factor and passes the Fermat
tests, and the search ends at one. It does end, as there is a prime that is 3 modulo 4 above every
number.
-/

namespace BonsaiChain

open Lib

section Gcd

theorem euclidLoop_eq (a b : ℕ) : euclidLoop a b = a.gcd b := by
  induction a, b using euclidLoop.induct with
  | case1 a =>
    rw [euclidLoop, if_pos rfl, Nat.gcd_zero_right]
  | case2 a b hb ih =>
    rw [euclidLoop, if_neg hb, ih, Nat.gcd_comm, ← Nat.gcd_rec, Nat.gcd_comm]

theorem bnGcdEuclid_eq (a b : ℕ) : bnGcdEuclid a b = a.gcd b := by
  unfold bnGcdEuclid
  split_ifs
  · rw [euclidLoop_eq, Nat.gcd_comm]
  · exact euclidLoop_eq a b

end Gcd

section Candidates

/-- No factor among the small primes. -/
def NoSmallFactor (p : ℕ) : Prop := Nat.gcd p (3 * 5 * 7 * 11 * 13 * 17 * 19 * 23 * 29) = 1

instance (p : ℕ) : Decidable (NoSmallFactor p) := inferInstanceAs (Decidable (_ = _))

/-- The power that the Fermat test to a base is about. -/
def PassesFermat (p : ℕ) (bases : List ℕ) : Prop := ∀ a ∈ bases, a ^ (p - 1) ≡ 1 [MOD p]

/-- What the search accepts above a number that is 3 modulo 4. -/
structure IsCandidate (p : ℕ) : Prop where
  noSmallFactor : NoSmallFactor p
  passesFermat : PassesFermat p [2, 3, 5, 17]

variable {laps i p q : ℕ}

theorem coprimeLap_eq : coprimeLap i p = if NoSmallFactor p then .inl p else .inr (p + 4) := by
  unfold coprimeLap
  rw [bnGcdEuclid_eq]
  rfl

theorem fermatTests_eq (hp : p % 4 = 3) : ∀ bases : List ℕ,
    (fermatTests p bases = .ok true ∧ PassesFermat p bases)
      ∨ fermatTests p bases = .ok false ∧ ¬PassesFermat p bases
  | [] => .inl ⟨rfl, by simp [PassesFermat]⟩
  | a :: bases => by
    have hone : 1 % p = 1 := Nat.mod_eq_of_lt (by omega)
    have hbase : a ^ (p - 1) % p = 1 ↔ a ^ (p - 1) ≡ 1 [MOD p] := by rw [Nat.ModEq, hone]
    unfold fermatTests PassesFermat
    rw [bnModExpSecret_odd (show p % 2 = 1 by omega), ok_bind, List.forall_mem_cons, ← hbase]
    split_ifs with h
    · have ih := fermatTests_eq hp bases
      unfold PassesFermat at ih
      simpa only [h, true_and] using ih
    · exact .inr ⟨rfl, fun hall => h hall.1⟩

/-- A lap of the outer loop ends at a candidate or goes on behind a number that is none. -/
theorem nextPrimeLap_cases (hp : p % 4 = 3) :
    (nextPrimeLap laps i p = .inl none ∧ ∃ q, loop coprimeLap laps 0 p = .inr q)
      ∨ ∃ q, Skips 4 IsCandidate p q ∧ loop coprimeLap laps 0 p = .inl q
        ∧ (nextPrimeLap laps i p = .inl (some (.ok q)) ∧ IsCandidate q
          ∨ nextPrimeLap laps i p = .inr (q + 4) ∧ ¬IsCandidate q) := by
  unfold nextPrimeLap
  rcases h : loop coprimeLap laps 0 p with q | q
  · obtain ⟨j, p', -, hreach, hend⟩ := loop_eq_inl.1 h
    rw [coprimeLap_eq] at hend
    obtain ⟨hfactor, rfl⟩ : NoSmallFactor p' ∧ p' = q := by
      split_ifs at hend with hf
      exact ⟨hf, Sum.inl.inj hend⟩
    have hskip : Skips 4 NoSmallFactor p p' := by
      refine hreach.skips fun i n n' _ hn => ?_
      rw [coprimeLap_eq] at hn
      split_ifs at hn with hf
      rw [← Sum.inr.inj hn]
      exact .step hf
    have hmod : p' % 4 = 3 := by rw [hskip.mod_eq, hp]
    refine .inr ⟨p', hskip.mono fun n hn => hn.noSmallFactor, rfl, ?_⟩
    rcases fermatTests_eq hmod [2, 3, 5, 17] with ⟨htest, hpass⟩ | ⟨htest, hfail⟩
    · simp only [htest]
      exact .inl ⟨trivial, hfactor, hpass⟩
    · simp only [htest]
      exact .inr ⟨trivial, fun hc => hfail hc.passesFermat⟩
  · exact .inl ⟨rfl, q, rfl⟩

theorem nextPrimeLap_skips (hp : p % 4 = 3) {j : ℕ} (t : Reaches (nextPrimeLap laps) i p j q) :
    Skips 4 IsCandidate p q := by
  refine t.skips fun i n n' hn hstep => ?_
  rcases nextPrimeLap_cases (hn.trans hp) with ⟨hlap, -⟩ | ⟨q, hq, -, ⟨hlap, -⟩ | ⟨hlap, hnot⟩⟩
  · rw [hlap] at hstep
    cases hstep
  · rw [hlap] at hstep
    cases hstep
  · rw [hlap] at hstep
    rw [← Sum.inr.inj hstep]
    exact hq.trans (.step hnot)

/-- What the outer loop returns is the first candidate. -/
theorem rabinCalcNextPrime_eq_some (hp : p % 4 = 3) {r : Except Err ℕ}
    (h : rabinCalcNextPrime laps p = some r) :
    ∃ q, r = .ok q ∧ Skips 4 IsCandidate p q ∧ IsCandidate q := by
  unfold rabinCalcNextPrime at h
  rw [Option.join_eq_some_iff, Sum.getLeft?_eq_some_iff, loop_eq_inl] at h
  obtain ⟨j, p', -, hreach, hend⟩ := h
  have hskip := nextPrimeLap_skips hp hreach
  rcases nextPrimeLap_cases (hskip.mod_eq.trans hp)
    with ⟨hlap, -⟩ | ⟨q, hq, -, ⟨hlap, hc⟩ | ⟨hlap, -⟩⟩
  · rw [hlap] at hend
    cases hend
  · rw [hlap] at hend
    simp only [Sum.inl.injEq, Option.some.injEq] at hend
    exact ⟨q, hend.symm, hskip.trans hq, hc⟩
  · rw [hlap] at hend
    cases hend

end Candidates

section Ends

variable {laps i p c : ℕ}

/-- A number in the same residue class below another is a step below it. -/
theorem add_four_le (hmod : p % 4 = c % 4) (hle : p ≤ c) (hne : p ≠ c) : p + 4 ≤ c := by omega

theorem loop_coprimeLap_ends (hc : NoSmallFactor c) (hle : p ≤ c) (hmod : p % 4 = c % 4)
    (hlaps : c - p < laps) : ∃ q, loop coprimeLap laps 0 p = .inl q := by
  refine loop_ends_below (fun i n n' hn hres hstep => ?_) hle hmod hlaps
  rw [coprimeLap_eq] at hstep
  split_ifs at hstep with hf
  have hne : n ≠ c := by
    rintro rfl
    exact hf hc
  have := add_four_le hres hn hne
  rw [← Sum.inr.inj hstep]
  omega

/-- The search ends where there is a candidate above. -/
theorem rabinCalcNextPrime_ends (hc : IsCandidate c) (hcmod : c % 4 = 3) (hle : p ≤ c)
    (hp : p % 4 = 3) (hlaps : c - p < laps) : ∃ r, rabinCalcNextPrime laps p = some r := by
  have hmod : p % 4 = c % 4 := hp.trans hcmod.symm
  obtain ⟨b, hb⟩ : ∃ b, loop (nextPrimeLap laps) laps 0 p = .inl b := by
    refine loop_ends_below (fun i n n' hn hres hstep => ?_) hle hmod hlaps
    rcases nextPrimeLap_cases (hres.trans hcmod)
      with ⟨hlap, -⟩ | ⟨q, hq, -, ⟨hlap, -⟩ | ⟨hlap, hnot⟩⟩
    · rw [hlap] at hstep
      cases hstep
    · rw [hlap] at hstep
      cases hstep
    · have hqc := hq.le_of_mem hn hres.symm hc
      have hqmod := hq.mod_eq
      have hnq := hq.le
      have hne : q ≠ c := by
        rintro rfl
        exact hnot hc
      have := add_four_le (hqmod.trans hres) hqc hne
      rw [hlap] at hstep
      rw [← Sum.inr.inj hstep]
      omega
  obtain ⟨j, p', -, hreach, hend⟩ := loop_eq_inl.1 hb
  have hskip := nextPrimeLap_skips hp hreach
  have hp' := hskip.le
  have hpc := hskip.le_of_mem hle hmod.symm hc
  have hmod' := hskip.mod_eq
  obtain ⟨q', hq'⟩ := loop_coprimeLap_ends hc.noSmallFactor hpc (hmod'.trans hmod)
    (show c - p' < laps by omega)
  rcases nextPrimeLap_cases (hmod'.trans hp)
    with ⟨-, q, hinner⟩ | ⟨q, -, -, ⟨hlap, -⟩ | ⟨hlap, -⟩⟩
  · rw [hq'] at hinner
    cases hinner
  · refine ⟨.ok q, ?_⟩
    rw [rabinCalcNextPrime, hb, ← hend, hlap]
    rfl
  · rw [hlap] at hend
    cases hend

/-- A prime above the small primes is a candidate. -/
theorem isCandidate_of_prime (hp : p.Prime) (h : 3 * 5 * 7 * 11 * 13 * 17 * 19 * 23 * 29 < p) :
    IsCandidate p := by
  refine ⟨?_, fun a ha => ?_⟩
  · rw [NoSmallFactor, ← Nat.coprime_iff_gcd_eq_one, hp.coprime_iff_not_dvd]
    intro hdvd
    have := Nat.le_of_dvd (by norm_num) hdvd
    omega
  · have hsmall : 0 < a ∧ a < p := by
      simp only [List.mem_cons, List.not_mem_nil, or_false] at ha
      omega
    have hcop : a.Coprime p := (Nat.coprime_of_lt_prime hsmall.1.ne' hsmall.2 hp).symm
    rw [← Nat.totient_prime hp]
    exact Nat.ModEq.pow_totient hcop

theorem exists_candidate (start : ℕ) : ∃ c, start ≤ c ∧ c % 4 = 3 ∧ IsCandidate c := by
  obtain ⟨c, hgt, hprime, hmod⟩ := Nat.forall_exists_prime_gt_and_modEq
    (max start (3 * 5 * 7 * 11 * 13 * 17 * 19 * 23 * 29)) (show (4 : ℕ) ≠ 0 by decide)
    (show Nat.Coprime 3 4 by decide)
  rw [gt_iff_lt, max_lt_iff] at hgt
  exact ⟨c, hgt.1.le, hmod, isCandidate_of_prime hprime hgt.2⟩

end Ends

section Search

variable {laps p q : ℕ}

theorem loop_residueLap_eq_inl (h : loop residueLap laps 0 p = .inl q) :
    Skips 1 (· % 4 = 3) p q ∧ q % 4 = 3 := by
  obtain ⟨j, p', -, hreach, hend⟩ := loop_eq_inl.1 h
  have hskip : Skips 1 (· % 4 = 3) p p' := by
    refine hreach.skips fun i n n' _ hn => ?_
    unfold residueLap at hn
    split_ifs at hn with hres
    rw [← Sum.inr.inj hn]
    exact .step hres
  unfold residueLap at hend
  split_ifs at hend with hres
  rw [← Sum.inl.inj hend]
  exact ⟨hskip, hres⟩

theorem loop_residueLap_ends (hlaps : 3 < laps) : ∃ q, loop residueLap laps 0 p = .inl q := by
  have htop : (p + (3 - p % 4)) % 4 = 3 := by omega
  refine loop_ends_below (fun i n n' hn _ hstep => ?_) (Nat.le_add_right p (3 - p % 4))
    (Nat.mod_one _ |>.trans (Nat.mod_one _).symm) (by omega)
  unfold residueLap at hstep
  split_ifs at hstep with hres
  have hne : n ≠ p + (3 - p % 4) := by
    rintro rfl
    exact hres htop
  rw [← Sum.inr.inj hstep]
  omega

/-- The search returns the least number from the start on that is 3 modulo 4, has no factor among
the small primes and passes the Fermat tests; and it ends. -/
theorem rabinGetPrimeNumber_least (start : ℕ) :
    (∀ laps r, rabinGetPrimeNumber laps start = some r →
      ∃ p, r = .ok p ∧ IsLeast {n | start ≤ n ∧ n % 4 = 3 ∧ IsCandidate n} p)
    ∧ ∃ enough, ∀ laps ≥ enough, ∃ p, rabinGetPrimeNumber laps start = some (.ok p) := by
  have hresult : ∀ laps r, rabinGetPrimeNumber laps start = some r →
      ∃ p, r = .ok p ∧ IsLeast {n | start ≤ n ∧ n % 4 = 3 ∧ IsCandidate n} p := by
    intro laps r h
    unfold rabinGetPrimeNumber at h
    rcases hres : loop residueLap laps 0 start with q | q
    · rw [hres] at h
      obtain ⟨hskip, hq⟩ := loop_residueLap_eq_inl hres
      obtain ⟨p, rfl, hnext, hc⟩ := rabinCalcNextPrime_eq_some hq h
      refine ⟨p, rfl, ⟨hskip.le.trans hnext.le, hnext.mod_eq.trans hq, hc⟩, fun n hn => ?_⟩
      have hqn := hskip.le_of_mem hn.1 (Nat.mod_one _ |>.trans (Nat.mod_one _).symm) hn.2.1
      exact hnext.le_of_mem hqn (hn.2.1.trans hq.symm) hn.2.2
    · rw [hres] at h
      cases h
  refine ⟨hresult, ?_⟩
  obtain ⟨c, hle, hmod, hc⟩ := exists_candidate (start + 4)
  refine ⟨c + 4, fun laps hlaps => ?_⟩
  obtain ⟨q, hq⟩ : ∃ q, loop residueLap laps 0 start = .inl q :=
    loop_residueLap_ends (by omega)
  obtain ⟨hskip, hqmod⟩ := loop_residueLap_eq_inl hq
  have hqc : q ≤ c := hskip.le_of_mem (by omega) (Nat.mod_one _ |>.trans (Nat.mod_one _).symm) hmod
  obtain ⟨r, hr⟩ := rabinCalcNextPrime_ends hc hmod hqc hqmod (show c - q < laps by omega)
  have hrun : rabinGetPrimeNumber laps start = some r := by
    rw [rabinGetPrimeNumber, hq]
    exact hr
  obtain ⟨p, rfl, -⟩ := hresult laps r hrun
  exact ⟨p, hrun⟩

/-- The small primes are passed over. -/
theorem rabinGetPrimeNumber_least_five :
    IsLeast {n | 5 ≤ n ∧ n % 4 = 3 ∧ IsCandidate n} 31 := by
  obtain ⟨p, hp, hleast⟩ := (rabinGetPrimeNumber_least 5).1 9 (.ok 31) (by decide +kernel)
  rwa [Except.ok.inj hp]

end Search

end BonsaiChain
