import BonsaiChain.Proofs.AgentTea
import BonsaiChain.WindowRun

/-!
# The window accountant

A charge is granted exactly when the covenant would execute it as an action, and what is granted
over a run is what a rolling window grants.
-/

namespace BonsaiChain

open Lib

namespace WindowAccountant

variable {env : AuthorizationEnvelope} {acc : WindowAccountant} {amount now : Int}

/-- The gates of a charge, in the order of the source. -/
theorem charge_allowed_iff : (acc.charge env amount now).1.allowed = true ↔
    0 < amount ∧ amount ≤ env.perCall ∧ (acc.rolled env now).2 + amount ≤ env.perWindow := by
  unfold charge
  by_cases hpos : amount ≤ 0
  · rw [if_pos hpos]
    simp only [deny, Bool.false_eq_true, false_iff]
    omega
  rw [if_neg hpos]
  by_cases hcall : amount > env.perCall
  · rw [if_pos hcall]
    simp only [deny, Bool.false_eq_true, false_iff]
    omega
  rw [if_neg hcall]
  by_cases hwindow : (acc.rolled env now).2 + amount > env.perWindow
  · simp only [hwindow, if_true, Bool.false_eq_true, false_iff]
    omega
  · simp only [hwindow, if_false, true_iff]
    omega

theorem charge_of_allowed (h : (acc.charge env amount now).1.allowed = true) :
    (acc.charge env amount now).2
      = ⟨(acc.rolled env now).2 + amount, (acc.rolled env now).1, true⟩ := by
  obtain ⟨hpos, hcall, hwindow⟩ := charge_allowed_iff.mp h
  have hwindow' : ¬(acc.rolled env now).2 + amount > env.perWindow := by omega
  unfold charge
  rw [if_neg (by omega), if_neg (by omega)]
  simp only [hwindow', if_false]

/-- A denied charge commits nothing. -/
theorem charge_of_denied (h : (acc.charge env amount now).1.allowed = false) :
    (acc.charge env amount now).2 = acc := by
  unfold charge at h ⊢
  split_ifs at h ⊢ with hpos hcall
  · rfl
  · rfl
  · by_cases hwindow : (acc.rolled env now).2 + amount > env.perWindow
    · simp only [hwindow, if_true]
    · simp only [hwindow, if_false, Bool.true_eq_false] at h

theorem rolled_eq : acc.rolled env now
    = if acc.opens env now then (now, 0) else (acc.windowStart, acc.spentInWindow) := by
  unfold rolled opens
  simp only [Bool.or_eq_true, decide_eq_true_eq]

/-- The window the accountant stands in. -/
def window (acc : WindowAccountant) : Option (ℤ × ℤ) :=
  if acc.started then some (acc.windowStart, acc.spentInWindow) else none

end WindowAccountant

section Bounds

variable {env : AuthorizationEnvelope}

/-- What an accountant has granted are the grants of a rolling window. -/
structure WindowRun.Meters (env : AuthorizationEnvelope) (r : WindowRun) : Prop where
  grants : Metered env.perWindow env.windowDuration r.grants r.acc.window
  unstarted : r.acc.started = false → r.acc = .init

theorem WindowRun.Meters.step {r : WindowRun} (h : r.Meters env) (c : ChargeCall) :
    (r.step env c).Meters env := by
  unfold WindowRun.step
  by_cases hallowed : (r.acc.charge env c.amount c.now).1.allowed = true
  · obtain ⟨hpos, -, hwindow⟩ := WindowAccountant.charge_allowed_iff.mp hallowed
    have hacc := WindowAccountant.charge_of_allowed hallowed
    simp only [hallowed, if_true, hacc]
    refine ⟨?_, fun hstarted => nomatch hstarted⟩
    have hgrants := h.grants
    unfold WindowAccountant.window at hgrants ⊢
    rw [WindowAccountant.rolled_eq] at hwindow ⊢
    by_cases hopens : r.acc.opens env c.now = true
    · simp only [hopens, if_true, zero_add] at hwindow ⊢
      refine hgrants.opening ?_ hpos hwindow
      intro w hw
      unfold WindowAccountant.opens at hopens
      split_ifs at hw with hstarted
      · obtain rfl := Option.some.inj hw
        simpa [hstarted] using hopens
      · exact nomatch hw
    · have hstarted : r.acc.started = true := by
        unfold WindowAccountant.opens at hopens
        rw [Bool.or_eq_true, not_or] at hopens
        simpa using hopens.1
      rw [Bool.not_eq_true] at hopens
      rw [if_pos hstarted] at hgrants
      simp only [hopens, Bool.false_eq_true, if_false, if_true] at hwindow ⊢
      exact hgrants.adding hpos hwindow
  · rw [Bool.not_eq_true] at hallowed
    simp only [hallowed, WindowAccountant.charge_of_denied hallowed, Bool.false_eq_true, if_false]
    exact h

theorem WindowRun.meters (env : AuthorizationEnvelope) (cs : List ChargeCall) :
    (WindowRun.after env cs).Meters env :=
  run_inv (I := WindowRun.Meters env) (P := fun _ => True) (fun _ c _ h => h.step c) cs _
    (fun _ _ => trivial) ⟨.nil, fun _ => rfl⟩

/-- The clock readings of the grants are among those of the calls, in their order. -/
theorem WindowRun.grants_sublist (env : AuthorizationEnvelope) (cs : List ChargeCall) :
    ((WindowRun.after env cs).grants.map Grant.now).Sublist (cs.map ChargeCall.now) := by
  induction cs using List.reverseRecOn with
  | nil => exact .slnil
  | append_singleton cs c ih =>
    unfold WindowRun.after at ih ⊢
    rw [run_snoc, List.map_append]
    unfold WindowRun.step
    dsimp only
    split_ifs
    · rw [List.map_append]
      exact ih.append (List.Sublist.refl _)
    · exact ih.trans (List.sublist_append_left ..)

theorem WindowRun.spent_bounds (cs : List ChargeCall) :
    0 ≤ (WindowRun.after env cs).acc.spentInWindow
      ∧ (WindowRun.after env cs).acc.spentInWindow ≤ max 0 env.perWindow := by
  obtain ⟨hgrants, hunstarted⟩ := WindowRun.meters env cs
  rcases hstarted : (WindowRun.after env cs).acc.started with _ | _
  · rw [hunstarted hstarted]
    exact ⟨le_rfl, le_max_left _ _⟩
  · unfold WindowAccountant.window at hgrants
    rw [if_pos hstarted] at hgrants
    obtain ⟨hpos, hle⟩ := hgrants.spent_pos_le
    exact ⟨hpos.le, hle.trans (le_max_right _ _)⟩

/-- The run bounds of the accountant. The grants of a window are those from one that opens it up to
the next that opens one. -/
theorem WindowRun.bounds (env : AuthorizationEnvelope) (cs : List ChargeCall) :
    (0 ≤ (WindowRun.after env cs).acc.spentInWindow
      ∧ (WindowRun.after env cs).acc.spentInWindow ≤ max 0 env.perWindow)
    ∧ (∀ (pre : List (Grant ℤ)) (g : Grant ℤ) (seg post : List (Grant ℤ)),
      (WindowRun.after env cs).grants = pre ++ g :: seg ++ post → (∀ s ∈ seg, s.opens = false) →
        granted (g :: seg) ≤ env.perWindow)
    ∧ (∀ c : ChargeCall,
      ((WindowRun.after env cs).acc.charge env c.amount c.now).1.allowed = false →
        (WindowRun.after env (cs ++ [c])).acc = (WindowRun.after env cs).acc)
    ∧ ((cs.map ChargeCall.now).Pairwise (· ≤ ·) →
      (∀ (pre : List (Grant ℤ)) (g : Grant ℤ) (seg : List (Grant ℤ)) (g' : Grant ℤ)
          (post : List (Grant ℤ)),
        (WindowRun.after env cs).grants = pre ++ g :: seg ++ g' :: post →
          (∀ s ∈ seg, s.opens = false) → g.opens = true → g'.opens = true →
            env.windowDuration ≤ g'.now - g.now)
      ∧ ∀ a b : ℤ, 0 < env.windowDuration → b - a < env.windowDuration →
        granted (within a b (WindowRun.after env cs).grants) ≤ 2 * max 0 env.perWindow) := by
  have hmeters := (WindowRun.meters env cs).grants
  refine ⟨WindowRun.spent_bounds cs, fun pre g seg post heq hseg => ?_, fun c hdenied => ?_,
    fun hclock => ⟨fun pre g seg g' post heq hseg hg hg' => ?_, fun a b _ hab => ?_⟩⟩
  · rw [heq] at hmeters
    exact hmeters.granted_window_le hseg
  · unfold WindowRun.after at hdenied ⊢
    rw [run_snoc]
    exact WindowAccountant.charge_of_denied hdenied
  · rw [heq] at hmeters
    exact hmeters.opens_apart hseg hg hg'
  · have hsorted := hclock.sublist (WindowRun.grants_sublist env cs)
    rw [List.pairwise_map] at hsorted
    exact hmeters.granted_within_le hab hsorted

/-- The limits of the tests, with a window of a day. -/
def exampleEnvelope : AuthorizationEnvelope := ⟨100, 250, 86400, []⟩

/-- Two charges, a denied one, and one a day after the first. -/
def exampleCharges : List ChargeCall := [⟨100, 90000⟩, ⟨100, 90001⟩, ⟨100, 90002⟩, ⟨100, 176400⟩]

theorem WindowRun.bounds_day :
    (WindowRun.after exampleEnvelope exampleCharges).grants
        = [⟨100, 90000, true⟩] ++ ⟨100, 90001, false⟩ :: [⟨100, 176400, true⟩]
      ∧ granted ((⟨100, 90000, true⟩ : Grant ℤ) :: [⟨100, 90001, false⟩]) ≤ 250
      ∧ (86400 : ℤ) ≤ 176400 - 90000
      ∧ granted (within 90001 176400 (WindowRun.after exampleEnvelope exampleCharges).grants)
          ≤ 2 * max 0 250 := by
  obtain ⟨-, hwindow, -, hclock⟩ := WindowRun.bounds exampleEnvelope exampleCharges
  obtain ⟨hopens, hinterval⟩ := hclock (by decide)
  exact ⟨by decide,
    hwindow [] ⟨100, 90000, true⟩ [⟨100, 90001, false⟩] [⟨100, 176400, true⟩] (by decide)
      (by decide),
    hopens [] ⟨100, 90000, true⟩ [⟨100, 90001, false⟩] ⟨100, 176400, true⟩ []
      (by decide) (by decide) rfl
      rfl,
    hinterval 90001 176400 (by decide) (by decide)⟩

/-- With a negative limit nothing is granted, which is more than twice the limit. -/
theorem WindowRun.negative_limit :
    ∃ env : AuthorizationEnvelope, ∃ cs : List ChargeCall, ∃ a b : ℤ,
      (cs.map ChargeCall.now).Pairwise (· ≤ ·) ∧ 0 < env.windowDuration
        ∧ b - a < env.windowDuration
        ∧ ¬granted (within a b (WindowRun.after env cs).grants) ≤ 2 * env.perWindow :=
  ⟨⟨10, -1, 5, []⟩, [⟨1, 0⟩], 0, 0, by decide, by decide, by decide, by decide⟩

end Bounds

section Simulation

open Covenant (AgentTea.spent AgentTea.windowStart)

variable {env : AuthorizationEnvelope} {agent : AgentTea} {ricardian : RicardianTea}
  {r : MeteredRun}

/-- The accountant stands where the state of the AgentTea stands, and the two contracts keep
step. -/
structure MeteredRun.Simulates (agent : AgentTea) (ricardian : RicardianTea) (r : MeteredRun) :
    Prop where
  params : r.agent.params = agent.params
  ricardianParams : r.ricardian.params = ricardian.params
  spent : r.acc.spentInWindow = r.agent.state.spentInWindow
  windowStart : r.acc.windowStart = r.agent.state.windowStart
  unstarted : r.acc.started = false → r.acc = .init
  ricardianTxCount : r.ricardian.state.txCount = r.agent.state.txCount
  ricardianSpent : r.ricardian.state.spentInWindow = r.agent.state.spentInWindow
  ricardianWindowStart : r.ricardian.state.windowStart = r.agent.state.windowStart
  ricardianTier : r.ricardian.state.tier = r.agent.state.tier

/-- Both windows roll together. A window that never started rolls in the covenant as well, as it
stands at time zero there. -/
theorem MeteredRun.Simulates.rolled (hlimits : SameLimits env agent.params ricardian.params)
    (h : r.Simulates agent ricardian) {now : ℤ} (hnow : env.windowDuration ≤ now) (amount : ℤ) :
    (r.acc.rolled env now).1 = AgentTea.windowStart agent.params r.agent.state now
      ∧ (r.acc.rolled env now).2 + amount
        = AgentTea.spent agent.params r.agent.state amount now := by
  have hrolls : r.acc.opens env now = true
      ↔ now - r.agent.state.windowStart ≥ agent.params.windowDuration := by
    unfold WindowAccountant.opens
    rw [hlimits.windowDuration, ← h.windowStart]
    rcases hstarted : r.acc.started with _ | _
    · rw [h.unstarted hstarted]
      simp only [WindowAccountant.init, Bool.not_false, Bool.true_or, true_iff]
      omega
    · simp
  rw [WindowAccountant.rolled_eq]
  unfold AgentTea.windowStart AgentTea.spent
  by_cases hopens : r.acc.opens env now = true
  · rw [if_pos hopens, if_pos (hrolls.mp hopens), if_pos (hrolls.mp hopens)]
    exact ⟨rfl, rfl⟩
  · have hrolls' := mt hrolls.mpr hopens
    rw [if_neg hopens, if_neg hrolls', if_neg hrolls', ← h.windowStart, ← h.spent]
    exact ⟨rfl, rfl⟩

theorem MeteredRun.Simulates.step (hlimits : SameLimits env agent.params ricardian.params)
    (h : r.Simulates agent ricardian) {c : ChargeCall} (hnow : env.windowDuration ≤ c.now) :
    (r.step env c).Simulates agent ricardian := by
  unfold MeteredRun.step
  by_cases hallowed : (r.acc.charge env c.amount c.now).1.allowed = true
  · obtain ⟨hstart, hspent⟩ := h.rolled hlimits hnow c.amount
    simp only [hallowed, if_true, WindowAccountant.charge_of_allowed hallowed]
    have hduration : r.ricardian.params.windowDuration = r.agent.params.windowDuration := by
      rw [h.ricardianParams, h.params, hlimits.ricardianWindowDuration, hlimits.windowDuration]
    have hgraduation : r.ricardian.params.graduationThreshold
        = r.agent.params.graduationThreshold := by
      rw [h.ricardianParams, h.params, hlimits.graduationThreshold]
    refine ⟨h.params, h.ricardianParams, ?_, ?_, (fun hstarted => nomatch hstarted), ?_, ?_, ?_, ?_⟩
    · rw [hspent, ← h.params]
      rfl
    · rw [hstart, ← h.params]
      rfl
    · simp only [ricardianTeaApplyAction, agentTeaApplyAction, h.ricardianTxCount]
    · simp only [ricardianTeaApplyAction, agentTeaApplyAction, h.ricardianWindowStart,
        h.ricardianSpent, hduration]
    · simp only [ricardianTeaApplyAction, agentTeaApplyAction, h.ricardianWindowStart, hduration]
    · simp only [ricardianTeaApplyAction, agentTeaApplyAction, h.ricardianTxCount, h.ricardianTier,
        hgraduation]
  · rw [Bool.not_eq_true] at hallowed
    simp only [hallowed, Bool.false_eq_true, if_false, WindowAccountant.charge_of_denied hallowed]
    exact h

theorem MeteredRun.simulates (hlimits : SameLimits env agent.params ricardian.params)
    (cs : List ChargeCall) (hcs : ∀ c ∈ cs, env.windowDuration ≤ c.now) :
    (MeteredRun.after env agent ricardian cs).Simulates agent ricardian := by
  have hstart : (MeteredRun.start agent ricardian).Simulates agent ricardian :=
    ⟨rfl, rfl, rfl, rfl, fun _ => rfl, rfl, rfl, rfl, rfl⟩
  exact run_inv (I := MeteredRun.Simulates agent ricardian)
    (P := fun c => env.windowDuration ≤ c.now)
    (fun _ _ hnow h => h.step hlimits hnow) cs _ hcs hstart

/-- The accountant grants what the covenant's guards let through at the state its earlier grants
lead to, and the two agree on the window after each grant. -/
theorem MeteredRun.charge_simulates (hlimits : SameLimits env agent.params ricardian.params)
    (cs : List ChargeCall) (c : ChargeCall) (hcs : ∀ c' ∈ cs ++ [c], env.windowDuration ≤ c'.now) :
    (((MeteredRun.after env agent ricardian cs).acc.charge env c.amount c.now).1.allowed = true
      ↔ c.amount > 0 ∧ c.amount ≤ agent.params.perTxLimit
        ∧ AgentTea.spent agent.params (MeteredRun.after env agent ricardian cs).agent.state c.amount
            c.now ≤ agent.params.dailyLimit)
    ∧ (((MeteredRun.after env agent ricardian cs).acc.charge env c.amount c.now).1.allowed = true →
      (MeteredRun.after env agent ricardian (cs ++ [c])).acc.spentInWindow
          = (MeteredRun.after env agent ricardian (cs ++ [c])).agent.state.spentInWindow
        ∧ (MeteredRun.after env agent ricardian (cs ++ [c])).acc.windowStart
          = (MeteredRun.after env agent ricardian (cs ++ [c])).agent.state.windowStart)
    ∧ (MeteredRun.after env agent ricardian (cs ++ [c])).ricardian.state.txCount
        = (MeteredRun.after env agent ricardian (cs ++ [c])).agent.state.txCount
    ∧ (MeteredRun.after env agent ricardian (cs ++ [c])).ricardian.state.spentInWindow
        = (MeteredRun.after env agent ricardian (cs ++ [c])).agent.state.spentInWindow
    ∧ (MeteredRun.after env agent ricardian (cs ++ [c])).ricardian.state.windowStart
        = (MeteredRun.after env agent ricardian (cs ++ [c])).agent.state.windowStart
    ∧ (MeteredRun.after env agent ricardian (cs ++ [c])).ricardian.state.tier
        = (MeteredRun.after env agent ricardian (cs ++ [c])).agent.state.tier := by
  have hall := MeteredRun.simulates hlimits (cs ++ [c]) hcs
  rw [List.forall_mem_append, List.forall_mem_singleton] at hcs
  obtain ⟨-, hspent⟩ := (MeteredRun.simulates hlimits cs hcs.1).rolled hlimits hcs.2 c.amount
  refine ⟨?_, fun _ => ⟨hall.spent, hall.windowStart⟩, hall.ricardianTxCount, hall.ricardianSpent,
    hall.ricardianWindowStart, hall.ricardianTier⟩
  rw [WindowAccountant.charge_allowed_iff, hspent, hlimits.perTxLimit, hlimits.dailyLimit]

def exampleMeteredAgent : AgentTea :=
  { TeaMethod.exampleAgentTea with
    params := { TeaMethod.exampleAgentTea.params with perTxLimit := 100, dailyLimit := 250 } }

def exampleMeteredRicardian : RicardianTea where
  artifact := exampleMeteredAgent.artifact
  params := ⟨List.replicate 33 3, List.replicate 33 2, List.replicate 32 0x11, 100, 250, 86400, 5,
    50000,
    35, 77, 1000, 6, List.replicate 32 0⟩
  state := ⟨0, 0, 0, 1, List.replicate 32 0⟩

/-- The charge that a second window opens with. -/
theorem MeteredRun.charge_simulates_day :
    ((MeteredRun.after exampleEnvelope exampleMeteredAgent exampleMeteredRicardian
        [⟨100, 90000⟩, ⟨100, 90001⟩, ⟨100, 90002⟩]).acc.charge exampleEnvelope 100 176400).1.allowed
          = true
      ∧ (MeteredRun.after exampleEnvelope exampleMeteredAgent exampleMeteredRicardian
        exampleCharges).acc.windowStart = 176400
      ∧ (MeteredRun.after exampleEnvelope exampleMeteredAgent exampleMeteredRicardian
        exampleCharges).ricardian.state.txCount = 3 := by
  have hlimits : SameLimits exampleEnvelope exampleMeteredAgent.params
      exampleMeteredRicardian.params := ⟨rfl, rfl, rfl, rfl, rfl⟩
  obtain ⟨hallowed, hwindow, htxCount, -⟩ := MeteredRun.charge_simulates hlimits
    [⟨100, 90000⟩, ⟨100, 90001⟩, ⟨100, 90002⟩] ⟨100, 176400⟩ (by decide)
  have hgranted := hallowed.mpr (by decide +kernel)
  refine ⟨hgranted, (hwindow hgranted).2.trans ?_, htxCount.trans ?_⟩
  · decide +kernel
  · decide +kernel

end Simulation

end BonsaiChain
