import Mathlib.Data.Set.Insert
import Mathlib.Logic.Function.Basic
import Mathlib.Order.Basic

/-!
# A register behind a ledger

Clients share a register that holds the place of a record in a ledger. To add a record a client
follows the one it loaded, and the ledger takes one follower of each record; then the client stores
the new place, and later settles it. A power cut leaves any place that the register held since it
was last settled, and no client. No lock is needed: the places are stored in their order, by one
client at a time, and none is ever left that is before a settled one.
-/

namespace BonsaiChain.Lib

/-- How far a client is, with its place. -/
inductive LedgerPhase where
  | loaded (place : ℕ)
  | won (place : ℕ)
  | stored (place : ℕ)
  | settled (place : ℕ)

/-- The last place of the ledger, the place in the register and those a power cut may leave, and the
settled places. -/
structure LedgerRegister (ι : Type*) where
  last : ℕ
  now : ℕ
  kept : Set ℕ
  done : Set ℕ
  phase : ι → Option LedgerPhase

namespace LedgerRegister

open Function

variable {ι : Type*} [DecidableEq ι]

/-- A client goes on, or leaves. -/
def enter (s : LedgerRegister ι) (i : ι) (phase : Option LedgerPhase) : LedgerRegister ι :=
  { s with phase := update s.phase i phase }

inductive Step (s : LedgerRegister ι) : LedgerRegister ι → Prop
  | load (i : ι) : Step s (s.enter i (some (.loaded s.now)))
  | win (i : ι) (h : s.phase i = some (.loaded s.last)) :
    Step s ({ s with last := s.last + 1 }.enter i (some (.won (s.last + 1))))
  | store (i : ι) (place : ℕ) (h : s.phase i = some (.won place)) :
    Step s ({ s with now := place, kept := insert place s.kept }.enter i (some (.stored place)))
  | settle (i : ι) (place : ℕ) (h : s.phase i = some (.stored place)) :
    Step s ({ s with kept := {s.now}, done := insert place s.done }.enter i
      (some (.settled place)))
  | leave (i : ι) : Step s (s.enter i none)
  | cut (place : ℕ) (h : place ∈ s.kept) :
    Step s { s with now := place, kept := {place}, phase := fun _ => none }

/-- What the place of a client says. -/
def Fits (s : LedgerRegister ι) : LedgerPhase → Prop
  | .loaded k | .stored k => k ≤ s.now
  | .won k => k = s.last ∧ s.now < s.last
  | .settled k => k ∈ s.done

structure Inv (s : LedgerRegister ι) : Prop where
  now_mem : s.now ∈ s.kept
  kept_le : ∀ k ∈ s.kept, k ≤ s.now
  now_le : s.now ≤ s.last
  done_le : ∀ k ∈ s.kept, ∀ j ∈ s.done, j ≤ k
  phases : ∀ i q, s.phase i = some q → s.Fits q
  one_won : ∀ i j k l, s.phase i = some (.won k) → s.phase j = some (.won l) → i = j

variable {s s' : LedgerRegister ι} {i j : ι} {p : Option LedgerPhase} {q : LedgerPhase} {k : ℕ}

theorem enter_phase (h : (s.enter i p).phase j = some q) :
    (j = i ∧ p = some q) ∨ (j ≠ i ∧ s.phase j = some q) := by
  rcases eq_or_ne j i with rfl | hne
  · exact .inl ⟨rfl, by simpa [enter] using h⟩
  · exact .inr ⟨hne, by simpa [enter, hne] using h⟩

/-- Only the client that enters a phase can come to have won. -/
theorem Inv.one_won_enter (h : s.Inv) (hp : ∀ k, p ≠ some (.won k)) (j j' : ι) (k l : ℕ)
    (hi : (s.enter i p).phase j = some (.won k)) (hj : (s.enter i p).phase j' = some (.won l)) :
    j = j' := by
  rcases enter_phase hi with ⟨-, rfl⟩ | ⟨-, hi⟩
  · exact absurd rfl (hp k)
  · rcases enter_phase hj with ⟨-, rfl⟩ | ⟨-, hj⟩
    · exact absurd rfl (hp l)
    · exact h.one_won _ _ _ _ hi hj

omit [DecidableEq ι] in
/-- A client that loaded the last record finds nobody else about to store one. -/
theorem Inv.none_won (h : s.Inv) (hi : s.phase i = some (.loaded s.last)) :
    s.now = s.last ∧ ∀ j l, s.phase j ≠ some (.won l) := by
  have hlast : s.last ≤ s.now := h.phases i _ hi
  refine ⟨le_antisymm h.now_le hlast, fun j l hj => ?_⟩
  exact absurd (h.phases j _ hj).2 (not_lt_of_ge hlast)

theorem Inv.step (h : s.Inv) (hs : s.Step s') : s'.Inv := by
  cases hs with
  | load i =>
    refine ⟨h.now_mem, h.kept_le, h.now_le, h.done_le, fun j q hj => ?_,
      h.one_won_enter (by simp)⟩
    rcases enter_phase hj with ⟨-, hq⟩ | ⟨-, hj⟩
    · obtain rfl := Option.some.inj hq
      exact le_rfl
    · exact h.phases j q hj
  | win i hi =>
    obtain ⟨hnow, hnone⟩ := h.none_won hi
    have hlt : s.now < s.last + 1 := by omega
    refine ⟨h.now_mem, h.kept_le, hlt.le, h.done_le, fun j q hj => ?_, fun j j' k l hj hj' => ?_⟩
    · rcases enter_phase hj with ⟨-, hq⟩ | ⟨-, hj⟩
      · obtain rfl := Option.some.inj hq
        exact ⟨rfl, hlt⟩
      · cases q with
        | won l => exact absurd hj (hnone j l)
        | loaded | stored | settled => exact h.phases j _ hj
    · rcases enter_phase hj with ⟨rfl, -⟩ | ⟨-, hj⟩
      · rcases enter_phase hj' with ⟨rfl, -⟩ | ⟨-, hj'⟩
        · rfl
        · exact absurd hj' (hnone j' l)
      · exact absurd hj (hnone j k)
  | store i place hi =>
    obtain ⟨rfl, hlt⟩ := h.phases i _ hi
    refine ⟨Set.mem_insert _ _, fun k hk => ?_, le_rfl, fun k hk j hj => ?_, fun j q hj => ?_,
      h.one_won_enter (i := i) (p := some (.stored s.last)) (by simp)⟩
    · rcases hk with rfl | hk
      · exact le_rfl
      · exact (h.kept_le k hk).trans hlt.le
    · have hjnow : j ≤ s.now := h.done_le _ h.now_mem j hj
      rcases hk with rfl | hk
      · exact hjnow.trans hlt.le
      · exact h.done_le k hk j hj
    · rcases enter_phase hj with ⟨-, hq⟩ | ⟨hne, hj⟩
      · obtain rfl := Option.some.inj hq
        exact le_rfl
      · cases q with
        | won l => exact absurd (h.one_won j i l _ hj hi) hne
        | loaded k | stored k => exact (h.phases j _ hj).trans hlt.le
        | settled k => exact h.phases j _ hj
  | settle i place hi =>
    have hplace : place ≤ s.now := h.phases i _ hi
    refine ⟨rfl, fun k hk => hk.le, h.now_le, fun k hk j hj => ?_, fun j q hj => ?_,
      h.one_won_enter (i := i) (p := some (.settled place)) (by simp)⟩
    · obtain rfl : k = s.now := hk
      rcases hj with rfl | hj
      · exact hplace
      · exact h.done_le _ h.now_mem j hj
    · rcases enter_phase hj with ⟨-, hq⟩ | ⟨-, hj⟩
      · obtain rfl := Option.some.inj hq
        exact Set.mem_insert _ _
      · cases q with
        | settled k => exact .inr (h.phases j _ hj)
        | loaded | won | stored => exact h.phases j _ hj
  | leave i =>
    refine ⟨h.now_mem, h.kept_le, h.now_le, h.done_le, fun j q hj => ?_,
      h.one_won_enter (by simp)⟩
    rcases enter_phase hj with ⟨-, hq⟩ | ⟨-, hj⟩
    · exact nomatch hq
    · exact h.phases j q hj
  | cut place hmem =>
    refine ⟨rfl, fun k hk => hk.le, (h.kept_le _ hmem).trans h.now_le, fun k hk j hj => ?_, nofun,
      nofun⟩
    obtain rfl : k = place := hk
    exact h.done_le k hmem j hj

end LedgerRegister

end BonsaiChain.Lib
