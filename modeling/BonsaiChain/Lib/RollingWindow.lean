import BonsaiChain.Lib.Runs
import Mathlib.Algebra.BigOperators.Group.List.Basic
import Mathlib.Algebra.Order.Ring.Defs
import Mathlib.Data.List.Induction
import Mathlib.Tactic.Linarith

/-!
# Rolling windows

A meter grants positive amounts into a window of a fixed duration, up to a limit, and may open a new
window once the last one is as old as that duration. What a window holds is at most the limit, and
as two openings are a duration apart, a shorter interval of time meets two windows at most.
-/

namespace BonsaiChain.Lib

variable {α : Type*}

/-- An amount granted at a time; `opens` marks the grants that open a window. -/
structure Grant (α : Type*) where
  amount : α
  now : α
  opens : Bool
  deriving DecidableEq, Repr

section Totals

variable [AddCommMonoid α]

def granted (gs : List (Grant α)) : α := (gs.map Grant.amount).sum

@[simp] theorem granted_nil : granted ([] : List (Grant α)) = 0 := rfl

@[simp] theorem granted_cons (g : Grant α) (gs : List (Grant α)) :
    granted (g :: gs) = g.amount + granted gs := by
  simp [granted]

@[simp] theorem granted_append (gs hs : List (Grant α)) :
    granted (gs ++ hs) = granted gs + granted hs := by
  simp [granted]

end Totals

section Intervals

variable [LinearOrder α]

/-- The grants of a time interval. -/
def within (a b : α) (gs : List (Grant α)) : List (Grant α) :=
  gs.filter fun g => a ≤ g.now ∧ g.now ≤ b

theorem within_append (a b : α) (gs hs : List (Grant α)) :
    within a b (gs ++ hs) = within a b gs ++ within a b hs := List.filter_append ..

theorem within_eq_nil {a b : α} {gs : List (Grant α)} (h : ∀ g ∈ gs, g.now < a) :
    within a b gs = [] := by
  unfold within
  rw [List.filter_eq_nil_iff]
  intro g hg
  have := h g hg
  simp [not_le_of_gt this]

theorem within_singleton (a b : α) (g : Grant α) :
    within a b [g] = if a ≤ g.now ∧ g.now ≤ b then [g] else [] := by
  simp [within, List.filter_cons]

end Intervals

variable [CommRing α] [LinearOrder α]

/-- The grants a meter may have made, with the start of its current window and what that has
spent. -/
inductive Metered (limit duration : α) : List (Grant α) → Option (α × α) → Prop
  | nil : Metered limit duration [] none
  | opening {gs : List (Grant α)} {window : Option (α × α)} {amount now : α}
      (h : Metered limit duration gs window) (hold : ∀ w ∈ window, duration ≤ now - w.1)
      (hpos : 0 < amount) (hle : amount ≤ limit) :
    Metered limit duration (gs ++ [⟨amount, now, true⟩]) (some (now, amount))
  | adding {gs : List (Grant α)} {start spent amount now : α}
      (h : Metered limit duration gs (some (start, spent))) (hpos : 0 < amount)
      (hle : spent + amount ≤ limit) :
    Metered limit duration (gs ++ [⟨amount, now, false⟩]) (some (start, spent + amount))

namespace Metered

variable {limit duration : α} {gs : List (Grant α)} {window : Option (α × α)}

theorem init {g : Grant α} (h : Metered limit duration (gs ++ [g]) window) :
    ∃ window', Metered limit duration gs window' := by
  generalize hall : gs ++ [g] = all at h
  cases h with
  | nil => simp at hall
  | opening h _ _ _ =>
    obtain ⟨rfl, -⟩ := List.append_inj' hall rfl
    exact ⟨_, h⟩
  | adding h _ _ =>
    obtain ⟨rfl, -⟩ := List.append_inj' hall rfl
    exact ⟨_, h⟩

/-- A meter's earlier grants are those of a meter. -/
theorem of_append {post : List (Grant α)} :
    ∀ {window : Option (α × α)}, Metered limit duration (gs ++ post) window →
      ∃ window', Metered limit duration gs window' := by
  induction post using List.reverseRecOn with
  | nil =>
    intro window h
    rw [List.append_nil] at h
    exact ⟨_, h⟩
  | append_singleton post g ih =>
    intro window h
    rw [← List.append_assoc] at h
    obtain ⟨_, h'⟩ := h.init
    exact ih h'

theorem eq_nil (h : Metered limit duration gs none) : gs = [] := by
  cases h
  rfl

/-- A window starts with one of the grants. -/
theorem start_mem {start spent : α} (h : Metered limit duration gs (some (start, spent))) :
    ∃ g ∈ gs, g.now = start := by
  generalize hw : some (start, spent) = window at h
  induction h generalizing start spent with
  | nil => simp at hw
  | opening h hold hpos hle ih =>
    simp only [Option.some.injEq, Prod.mk.injEq] at hw
    exact ⟨_, List.mem_append_right _ (List.mem_singleton_self _), hw.1.symm⟩
  | adding h hpos hle ih =>
    simp only [Option.some.injEq, Prod.mk.injEq] at hw
    obtain ⟨g, hg, hnow⟩ := ih rfl
    exact ⟨g, List.mem_append_left _ hg, hnow.trans hw.1.symm⟩

theorem amount_pos (h : Metered limit duration gs window) : ∀ g ∈ gs, 0 < g.amount := by
  induction h with
  | nil => exact fun _ hg => nomatch hg
  | opening h hold hpos hle ih =>
    rw [List.forall_mem_append, List.forall_mem_singleton]
    exact ⟨ih, hpos⟩
  | adding h hpos hle ih =>
    rw [List.forall_mem_append, List.forall_mem_singleton]
    exact ⟨ih, hpos⟩

theorem granted_within_snoc_of_lt {a b : α} {g : Grant α} (h : b < g.now) :
    granted (within a b (gs ++ [g])) = granted (within a b gs) := by
  rw [within_append, within_singleton, if_neg fun hg => absurd hg.2 (not_le_of_gt h)]
  simp

variable [IsStrictOrderedRing α]

theorem spent_pos_le {start spent : α} (h : Metered limit duration gs (some (start, spent))) :
    0 < spent ∧ spent ≤ limit := by
  generalize hw : some (start, spent) = window at h
  induction h generalizing start spent with
  | nil => simp at hw
  | opening h hold hpos hle ih =>
    simp only [Option.some.injEq, Prod.mk.injEq] at hw
    obtain ⟨-, rfl⟩ := hw
    exact ⟨hpos, hle⟩
  | adding h hpos hle ih =>
    simp only [Option.some.injEq, Prod.mk.injEq] at hw
    obtain ⟨-, rfl⟩ := hw
    have := ih rfl
    exact ⟨by linarith, hle⟩

/-- The grants since one are in the window of that one, or in one of theirs. -/
theorem granted_suffix {pre seg : List (Grant α)} {g : Grant α} (hseg : ∀ s ∈ seg, s.opens = false)
    (h : Metered limit duration (pre ++ g :: seg) window) :
    ∃ start spent, window = some (start, spent) ∧ granted (g :: seg) ≤ spent
      ∧ (g.opens = true → start = g.now) := by
  generalize hall : pre ++ g :: seg = all at h
  induction h generalizing seg with
  | nil => simp at hall
  | opening h hold hpos hle ih =>
    rcases List.eq_nil_or_concat' seg with rfl | ⟨seg, s, rfl⟩
    · obtain ⟨rfl, hg⟩ := List.append_inj' hall rfl
      obtain rfl := List.singleton_inj.mp hg
      exact ⟨_, _, rfl, by simp, fun _ => rfl⟩
    · rw [← List.cons_append, ← List.append_assoc] at hall
      obtain ⟨-, hs⟩ := List.append_inj' hall rfl
      obtain rfl := List.singleton_inj.mp hs
      have := hseg _ (List.mem_append_right _ (List.mem_singleton_self _))
      exact nomatch this
  | @adding gs start spent amount now h hpos hle ih =>
    rcases List.eq_nil_or_concat' seg with rfl | ⟨seg, s, rfl⟩
    · obtain ⟨rfl, hg⟩ := List.append_inj' hall rfl
      obtain rfl := List.singleton_inj.mp hg
      have := h.spent_pos_le
      refine ⟨_, _, rfl, ?_, fun hopens => nomatch hopens⟩
      rw [granted_cons, granted_nil]
      linarith
    · rw [← List.cons_append, ← List.append_assoc] at hall
      obtain ⟨rfl, hs⟩ := List.append_inj' hall rfl
      obtain rfl := List.singleton_inj.mp hs
      obtain ⟨_, _, hw, hle', hopens⟩ :=
        ih (fun s hs => hseg s (List.mem_append_left _ hs)) rfl
      simp only [Option.some.injEq, Prod.mk.injEq] at hw
      obtain ⟨rfl, rfl⟩ := hw
      refine ⟨_, _, rfl, ?_, hopens⟩
      rw [← List.cons_append, granted_append, granted_cons ⟨amount, now, false⟩, granted_nil]
      linarith

theorem granted_within_snoc_le {a b : α} {g : Grant α} (hpos : 0 < g.amount) :
    granted (within a b (gs ++ [g])) ≤ granted (within a b gs) + g.amount := by
  rw [within_append, within_singleton, granted_append]
  split_ifs
  · simp
  · simpa using hpos.le

/-- What an interval shorter than the duration was granted: one window's worth while the current
window is older than the interval, two while it started inside. -/
structure WithinBounds (limit a b start spent total : α) : Prop where
  older : start < a → total ≤ spent
  inside : start ≤ b → total ≤ limit + spent
  always : total ≤ 2 * limit

theorem withinBounds {a b : α} (hab : b - a < duration)
    (h : Metered limit duration gs window) : (gs.Pairwise fun g g' => g.now ≤ g'.now) →
    ∀ w ∈ window, WithinBounds limit a b w.1 w.2 (granted (within a b gs)) := by
  induction h with
  | nil => exact fun _ _ hw => nomatch hw
  | @opening gs window amount now h hold hpos hle ih =>
    rintro hsorted _ ⟨⟩
    rw [List.pairwise_append] at hsorted
    obtain ⟨hsorted, -, hlast⟩ := hsorted
    have hnow : ∀ g ∈ gs, g.now ≤ now := fun g hg => hlast g hg _ (List.mem_singleton_self _)
    have hadd : granted (within a b (gs ++ [⟨amount, now, true⟩]))
      ≤ granted (within a b gs) + amount :=
      granted_within_snoc_le hpos
    have holder : now < a → granted (within a b (gs ++ [⟨amount, now, true⟩])) = 0 := by
      intro hlt
      rw [within_eq_nil, granted_nil]
      intro g hg
      rcases List.mem_append.mp hg with hg | hg
      · exact (hnow g hg).trans_lt hlt
      · rw [List.mem_singleton.mp hg]
        exact hlt
    -- what was granted before: a whole window's worth if the interval reaches up to this opening
    have hbefore : now ≤ b → granted (within a b gs) ≤ limit := by
      intro hle'
      rcases window with _ | ⟨start, spent⟩
      · rw [h.eq_nil]
        simp only [within, List.filter_nil, granted_nil]
        linarith
      · have hstart := hold _ rfl
        have hbound := (ih hsorted _ rfl).older (by linarith)
        exact hbound.trans h.spent_pos_le.2
    refine ⟨fun hlt => ?_, fun hle' => ?_, ?_⟩
    · rw [holder hlt]
      exact hpos.le
    · have := hbefore hle'
      linarith
    · by_cases hle' : now ≤ b
      · have := hbefore hle'
        linarith
      · rw [granted_within_snoc_of_lt (lt_of_not_ge hle')]
        rcases window with _ | w
        · rw [h.eq_nil]
          simp only [within, List.filter_nil, granted_nil]
          linarith
        · exact (ih hsorted w rfl).always
  | @adding gs start spent amount now h hpos hle ih =>
    rintro hsorted _ ⟨⟩
    rw [List.pairwise_append] at hsorted
    obtain ⟨hsorted, -, hlast⟩ := hsorted
    obtain ⟨g, hg, hstart⟩ := h.start_mem
    have hnow : start ≤ now := hstart ▸ hlast g hg _ (List.mem_singleton_self _)
    have hadd : granted (within a b (gs ++ [⟨amount, now, false⟩]))
        ≤ granted (within a b gs) + amount := granted_within_snoc_le hpos
    obtain ⟨holder, hinside, halways⟩ := ih hsorted _ rfl
    refine ⟨fun hlt => ?_, fun hle' => ?_, ?_⟩
    · have := holder hlt
      linarith
    · have := hinside hle'
      linarith
    · by_cases hle' : start ≤ b
      · have := hinside hle'
        linarith
      · rw [granted_within_snoc_of_lt ((lt_of_not_ge hle').trans_le hnow)]
        exact halways

/-- An interval shorter than the duration is granted two windows' worth at most. -/
theorem granted_within_le {a b : α} (hab : b - a < duration)
    (hsorted : gs.Pairwise fun g g' => g.now ≤ g'.now) (h : Metered limit duration gs window) :
    granted (within a b gs) ≤ 2 * max 0 limit := by
  have hmax : limit ≤ max 0 limit := le_max_right _ _
  rcases window with _ | w
  · rw [h.eq_nil]
    have : 0 ≤ max 0 limit := le_max_left _ _
    simp only [within, List.filter_nil, granted_nil]
    linarith
  · have := (h.withinBounds hab hsorted w rfl).always
    linarith

/-- What is granted from one opening up to the next stays within the limit. -/
theorem granted_window_le {pre seg post : List (Grant α)} {g : Grant α}
    (hseg : ∀ s ∈ seg, s.opens = false)
    (h : Metered limit duration (pre ++ g :: seg ++ post) window) : granted (g :: seg) ≤ limit := by
  obtain ⟨_, h'⟩ := h.of_append
  obtain ⟨start, spent, rfl, hle, -⟩ := h'.granted_suffix hseg
  exact hle.trans h'.spent_pos_le.2

/-- Two consecutive openings are a duration apart. -/
theorem opens_apart {pre seg post : List (Grant α)} {g g' : Grant α}
    (hseg : ∀ s ∈ seg, s.opens = false) (hg : g.opens = true) (hg' : g'.opens = true)
    (h : Metered limit duration (pre ++ g :: seg ++ g' :: post) window) :
    duration ≤ g'.now - g.now := by
  rw [show pre ++ g :: seg ++ g' :: post = (pre ++ g :: seg ++ [g']) ++ post by simp] at h
  obtain ⟨_, hrun⟩ := h.of_append
  clear h
  generalize hall : pre ++ g :: seg ++ [g'] = all at hrun
  cases hrun with
  | nil => simp at hall
  | opening h hold hpos hle =>
    obtain ⟨rfl, hs⟩ := List.append_inj' hall rfl
    obtain rfl := List.singleton_inj.mp hs
    obtain ⟨start, spent, rfl, -, hstart⟩ := h.granted_suffix hseg
    have := hold _ rfl
    rwa [hstart hg] at this
  | adding h hpos hle =>
    obtain ⟨rfl, hs⟩ := List.append_inj' hall rfl
    obtain rfl := List.singleton_inj.mp hs
    exact nomatch hg'

end Metered

section Budget

variable {limit duration start spent total amount now horizon : ℤ}

/-- A total that the windows up to the current one can hold, whatever the order of the times: each
window starts a duration after the one before it. -/
structure Budget (limit duration start spent total : ℤ) : Prop where
  spent_nonneg : 0 ≤ spent
  spent_le : spent ≤ limit
  total_le : total ≤ limit * (start / duration) + spent

namespace Budget

/-- One more amount, in the window of its time. -/
theorem charge (hduration : 0 < duration) (h : Budget limit duration start spent total)
    (hamount : 0 < amount) (hle : (if now - start ≥ duration then 0 else spent) + amount ≤ limit) :
    Budget limit duration (if now - start ≥ duration then now else start)
      ((if now - start ≥ duration then 0 else spent) + amount) (total + amount) := by
  obtain ⟨hnonneg, hspent, htotal⟩ := h
  split_ifs at hle ⊢ with hroll
  · have hwindow : start / duration + 1 ≤ now / duration := by
      rw [Int.le_ediv_iff_mul_le hduration]
      have := Int.ediv_mul_le start hduration.ne'
      linarith
    have hlimit : limit * (start / duration + 1) ≤ limit * (now / duration) :=
      mul_le_mul_of_nonneg_left hwindow (hnonneg.trans hspent)
    exact ⟨by linarith, hle, by linarith⟩
  · exact ⟨by linarith, hle, by linarith⟩

variable {σ ε : Type*} (windowStart windowSpent : σ → ℤ) (charged time : ε → ℤ)
  (step : σ → ε → σ) {s : σ} {es : List ε}

/-- A step of a machine that leaves its window alone, or charges it with an amount. -/
def Meters (limit duration : ℤ) (s : σ) (e : ε) : Prop :=
  charged e = 0 ∧ windowStart (step s e) = windowStart s ∧ windowSpent (step s e) = windowSpent s
    ∨ 0 < charged e ∧ windowSpent (step s e) ≤ limit
      ∧ windowStart (step s e)
        = (if time e - windowStart s ≥ duration then time e else windowStart s)
      ∧ windowSpent (step s e)
        = (if time e - windowStart s ≥ duration then 0 else windowSpent s) + charged e

end Budget

end Budget

end BonsaiChain.Lib
