import Mathlib.Data.List.Forall2
import Mathlib.Data.Set.Function

/-!
# Codes that delimit themselves

A code delimits the values of a set when its codes tell a value from whatever follows: two lists
that start with codes and are equal start with the code of one value, and go on alike. Codes of one
length do, and so does a list that comes after its length, and then so do several of them in a row.
Pieces of known lengths are told apart without codes, and one among them may be of any length.
-/

namespace BonsaiChain.Lib

variable {α β : Type*}

/-- Two lists that start with codes of the set and are equal start with the same one. -/
def Delimits (code : α → List β) (S : Set α) : Prop :=
  ∀ a ∈ S, ∀ b ∈ S, ∀ r s, code a ++ r = code b ++ s → a = b ∧ r = s

namespace Delimits

variable {code : α → List β} {S : Set α}

theorem injOn (h : Delimits code S) : Set.InjOn code S := by
  intro a ha b hb heq
  exact (h a ha b hb [] [] (by rw [heq])).1

/-- Codes that are all as long delimit what they tell apart. -/
theorem of_length {n : ℕ} (hlen : ∀ a ∈ S, (code a).length = n) (hinj : Set.InjOn code S) :
    Delimits code S := by
  intro a ha b hb r s heq
  obtain ⟨hcode, hrest⟩ := List.append_inj heq ((hlen a ha).trans (hlen b hb).symm)
  exact ⟨hinj ha hb hcode, hrest⟩

/-- A list after the code of its length. -/
theorem sized {size : ℕ → List β} {L : Set ℕ} (h : Delimits size L) :
    Delimits (fun l : List β => size l.length ++ l) {l | l.length ∈ L} := by
  intro a ha b hb r s heq
  rw [List.append_assoc, List.append_assoc] at heq
  obtain ⟨hlen, hrest⟩ := h _ ha _ hb _ _ heq
  exact List.append_inj hrest hlen

/-- As many codes in a row. -/
theorem flatMap (h : Delimits code S) (n : ℕ) :
    Delimits (List.flatMap code) {as | as.length = n ∧ ∀ a ∈ as, a ∈ S} := by
  induction n with
  | zero =>
    intro as has bs hbs r s heq
    obtain rfl := List.length_eq_zero_iff.1 has.1
    obtain rfl := List.length_eq_zero_iff.1 hbs.1
    exact ⟨rfl, heq⟩
  | succ n ih =>
    intro as has bs hbs r s heq
    obtain ⟨a, as, rfl⟩ := List.exists_cons_of_length_eq_add_one has.1
    obtain ⟨b, bs, rfl⟩ := List.exists_cons_of_length_eq_add_one hbs.1
    obtain ⟨halen, ha⟩ := has
    obtain ⟨hblen, hb⟩ := hbs
    rw [List.forall_mem_cons] at ha hb
    rw [List.flatMap_cons, List.flatMap_cons, List.append_assoc, List.append_assoc] at heq
    obtain ⟨rfl, hmore⟩ := h a ha.1 b hb.1 _ _ heq
    obtain ⟨rfl, hrest⟩ := ih as ⟨Nat.succ.inj halen, ha.2⟩ bs ⟨Nat.succ.inj hblen, hb.2⟩ _ _ hmore
    exact ⟨rfl, hrest⟩

end Delimits

section Widths

variable {ws : List (Option ℕ)} {ps qs : List (List β)}

/-- The length of a piece is known, or nothing is. -/
def HasWidth (p : List β) (w : Option ℕ) : Prop := ∀ n ∈ w, p.length = n

theorem length_flatten_eq (hp : List.Forall₂ HasWidth ps ws) (hq : List.Forall₂ HasWidth qs ws)
    (hknown : none ∉ ws) : ps.flatten.length = qs.flatten.length := by
  induction hp generalizing qs with
  | nil => rw [List.forall₂_nil_right_iff.1 hq]
  | @cons p w ps ws hpw _ ih =>
    obtain ⟨q, qs, hqw, hqs, rfl⟩ := List.forall₂_cons_right_iff.1 hq
    rw [List.mem_cons, not_or] at hknown
    obtain ⟨n, rfl⟩ := Option.ne_none_iff_exists'.1 (Ne.symm hknown.1)
    rw [List.flatten_cons, List.flatten_cons, List.length_append, List.length_append,
      ih hqs hknown.2, hpw n rfl, hqw n rfl]

/-- Where at most one length is not known, the pieces can be cut from both ends. -/
theorem eq_of_flatten_eq (hp : List.Forall₂ HasWidth ps ws) (hq : List.Forall₂ HasWidth qs ws)
    (hone : ws.count none ≤ 1) (h : ps.flatten = qs.flatten) : ps = qs := by
  induction hp generalizing qs with
  | nil => exact (List.forall₂_nil_right_iff.1 hq).symm
  | @cons p w ps ws hpw hps ih =>
    obtain ⟨q, qs, hqw, hqs, rfl⟩ := List.forall₂_cons_right_iff.1 hq
    rw [List.flatten_cons, List.flatten_cons] at h
    rcases w with _ | n
    · have hknown : none ∉ ws := by
        rw [List.count_cons_self] at hone
        exact List.count_eq_zero.1 (by omega)
      obtain ⟨rfl, hrest⟩ := List.append_inj' h (length_flatten_eq hps hqs hknown)
      rw [ih hqs (by rw [List.count_eq_zero.2 hknown]; omega) hrest]
    · rw [List.count_cons_of_ne (by simp)] at hone
      obtain ⟨rfl, hrest⟩ := List.append_inj h ((hpw n rfl).trans (hqw n rfl).symm)
      rw [ih hqs hone hrest]

end Widths

end BonsaiChain.Lib
