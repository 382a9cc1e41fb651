import BonsaiChain.Rabin

/-!
# The primes of a Rabin key

`bn_gcd_euclid`, `rabin_calc_next_prime` and `rabin_get_prime_number` of `crypto/rabin.c`. No loop
of the search has a bound, so each is run for a number of laps.
-/

namespace BonsaiChain

open Lib

section Gcd

/-- The loop of `bn_gcd_euclid`. -/
def euclidLoop (a b : ℕ) : ℕ := if b = 0 then a else euclidLoop b (a % b)
termination_by b
decreasing_by exact Nat.mod_lt _ (Nat.pos_of_ne_zero ‹_›)

def bnGcdEuclid (a b : ℕ) : ℕ := if a < b then euclidLoop b a else euclidLoop a b

end Gcd

section Search

def smallPrimesProduct : ℕ := 3234846615

/-- A lap of the inner loop: the candidate has a small factor or not. -/
def coprimeLap (_ : ℕ) (p : ℕ) : ℕ ⊕ ℕ :=
  if bnGcdEuclid p smallPrimesProduct = 1 then .inl p else .inr (p + 4)

/-- The Fermat tests, up to the first that fails. -/
def fermatTests (p : ℕ) : List ℕ → Except Err Bool
  | [] => .ok true
  | a :: bases => do
    let r ← bnModExpSecret a (p - 1) p
    if r = 1 then fermatTests p bases else return false

/-- A lap of the outer loop; `none` when the inner one has not ended. -/
def nextPrimeLap (laps : ℕ) (_ : ℕ) (p : ℕ) : Option (Except Err ℕ) ⊕ ℕ :=
  match loop coprimeLap laps 0 p with
  | .inr _ => .inl none
  | .inl p =>
    match fermatTests p [2, 3, 5, 17] with
    | .error e => .inl (some (.error e))
    | .ok true => .inl (some (.ok p))
    | .ok false => .inr (p + 4)

def rabinCalcNextPrime (laps : ℕ) (p : ℕ) : Option (Except Err ℕ) :=
  (loop (nextPrimeLap laps) laps 0 p).getLeft?.join

/-- A lap of the loop that looks for the residue. -/
def residueLap (_ : ℕ) (p : ℕ) : ℕ ⊕ ℕ := if p % 4 = 3 then .inl p else .inr (p + 1)

def rabinGetPrimeNumber (laps : ℕ) (p : ℕ) : Option (Except Err ℕ) :=
  match loop residueLap laps 0 p with
  | .inr _ => none
  | .inl p => rabinCalcNextPrime laps p

end Search

end BonsaiChain
