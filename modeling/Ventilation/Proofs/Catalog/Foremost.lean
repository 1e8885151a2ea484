import Mathlib.Data.List.Pairwise
import Mathlib.Order.Bounds.Basic
import Ventilation.Catalog.Basic

/-!
The foremost element of a list is one of its elements, and where it is chosen by a key it has the
least one. A choice does not depend on the order of the list if no two elements tie.
-/

set_option autoImplicit false
set_option relaxedAutoImplicit false

namespace Ventilation

variable {β κ : Type} [LinearOrder κ] {precedes : β → β → Bool} {xs ys : List β} {x : β}

private theorem foldl_foremost_mem (xs : List β) (x : β) :
    xs.foldl (fun best y ↦ if precedes y best then y else best) x ∈ x :: xs := by
  induction xs generalizing x with
  | nil => exact List.mem_cons_self
  | cons y ys ih =>
    rw [List.foldl_cons]
    rcases List.mem_cons.1 (ih (if precedes y x then y else x)) with h | h
    · rw [h]
      by_cases hyx : precedes y x = true
      · rw [if_pos hyx]
        exact List.mem_cons_of_mem _ List.mem_cons_self
      · rw [if_neg hyx]
        exact List.mem_cons_self
    · exact List.mem_cons_of_mem _ (List.mem_cons_of_mem _ h)

theorem mem_of_foremost? (h : foremost? precedes xs = some x) : x ∈ xs := by
  cases xs with
  | nil => cases h
  | cons y ys =>
    obtain rfl := Option.some.inj h
    exact foldl_foremost_mem ys y

theorem exists_foremost? (hx : x ∈ xs) : ∃ y, foremost? precedes xs = some y := by
  cases xs with
  | nil => cases hx
  | cons y ys => exact ⟨_, rfl⟩

theorem foremost?_eq_none_iff : foremost? precedes xs = none ↔ xs = [] := by
  cases xs with
  | nil => exact ⟨fun _ ↦ rfl, fun _ ↦ rfl⟩
  | cons y ys => simp [foremost?]

private theorem key_foldl_le {key : β → κ} (xs : List β) (x : β)
    (hkey : ∀ a ∈ x :: xs, ∀ b ∈ x :: xs, precedes a b = decide (key a < key b)) :
    ∀ y ∈ x :: xs,
      key (xs.foldl (fun best y ↦ if precedes y best then y else best) x) ≤ key y := by
  induction xs generalizing x with
  | nil =>
    intro y hy
    rw [List.mem_singleton.1 hy]
    exact le_rfl
  | cons z zs ih =>
    have hz : z ∈ x :: z :: zs := List.mem_cons_of_mem _ List.mem_cons_self
    have hbest : ∃ w ∈ x :: z :: zs, (if precedes z x then z else x) = w ∧
        key w ≤ key x ∧ key w ≤ key z := by
      by_cases hlt : key z < key x
      · refine ⟨z, hz, ?_, le_of_lt hlt, le_rfl⟩
        rw [hkey z hz x List.mem_cons_self, decide_eq_true hlt, if_pos rfl]
      · refine ⟨x, List.mem_cons_self, ?_, le_rfl, not_lt.1 hlt⟩
        rw [hkey z hz x List.mem_cons_self, decide_eq_false hlt, if_neg (by simp)]
    obtain ⟨w, hw, hstep, hwx, hwz⟩ := hbest
    have hsub : ∀ a ∈ w :: zs, a ∈ x :: z :: zs := by
      intro a ha
      rcases List.mem_cons.1 ha with rfl | ha
      · exact hw
      · exact List.mem_cons_of_mem _ (List.mem_cons_of_mem _ ha)
    have hle := ih w fun a ha b hb ↦ hkey a (hsub a ha) b (hsub b hb)
    intro y hy
    rw [List.foldl_cons, hstep]
    rcases List.mem_cons.1 hy with rfl | hy
    · exact le_trans (hle w List.mem_cons_self) hwx
    · rcases List.mem_cons.1 hy with rfl | hy
      · exact le_trans (hle w List.mem_cons_self) hwz
      · exact hle y (List.mem_cons_of_mem _ hy)

/-- The foremost element by a key has the least key. -/
theorem key_le_of_foremost? (key : β → κ)
    (hkey : ∀ a ∈ xs, ∀ b ∈ xs, precedes a b = decide (key a < key b))
    (h : foremost? precedes xs = some x) : ∀ y ∈ xs, key x ≤ key y := by
  cases xs with
  | nil => cases h
  | cons z zs =>
    obtain rfl := Option.some.inj h
    exact key_foldl_le zs z hkey

theorem exists_least_key (key : β → κ) (hx : x ∈ xs) :
    ∃ least, foremost? (fun a b ↦ decide (a < b)) (xs.map key) = some least :=
  exists_foremost? (List.mem_map_of_mem hx)

theorem isLeast_of_foremost? {keys : List κ} {least : κ}
    (h : foremost? (fun a b ↦ decide (a < b)) keys = some least) : IsLeast {k | k ∈ keys} least :=
  ⟨mem_of_foremost? h, fun k hk ↦ key_le_of_foremost? id (fun _ _ _ _ ↦ rfl) h k hk⟩

/-- Lists of the same elements have foremost elements of the same key. -/
theorem map_key_foremost?_of_perm (key : β → κ)
    (hkey : ∀ a ∈ xs, ∀ b ∈ xs, precedes a b = decide (key a < key b)) (h : xs.Perm ys) :
    (foremost? precedes xs).map key = (foremost? precedes ys).map key := by
  have hkey' : ∀ a ∈ ys, ∀ b ∈ ys, precedes a b = decide (key a < key b) :=
    fun a ha b hb ↦ hkey a (h.mem_iff.2 ha) b (h.mem_iff.2 hb)
  cases hx : foremost? precedes xs with
  | none =>
    rw [foremost?_eq_none_iff] at hx
    subst hx
    rw [List.nil_perm] at h
    rw [h]
    rfl
  | some x =>
    have hmem := h.mem_iff.1 (mem_of_foremost? hx)
    have hfound : ∃ y, foremost? precedes ys = some y := exists_foremost? hmem
    obtain ⟨y, hy⟩ := hfound
    have hxy : key x ≤ key y :=
      key_le_of_foremost? key hkey hx y (h.mem_iff.2 (mem_of_foremost? hy))
    have hyx : key y ≤ key x := key_le_of_foremost? key hkey' hy x hmem
    rw [hy, Option.map_some, Option.map_some, le_antisymm hxy hyx]

/-- Without ties the foremost element does not depend on the order of the list. -/
theorem foremost?_eq_of_perm (key : β → κ)
    (hkey : ∀ a ∈ xs, ∀ b ∈ xs, precedes a b = decide (key a < key b))
    (hties : ∀ a ∈ xs, ∀ b ∈ xs, key a = key b → a = b) (h : xs.Perm ys) :
    foremost? precedes xs = foremost? precedes ys := by
  have hkeys := map_key_foremost?_of_perm key hkey h
  cases hx : foremost? precedes xs with
  | none =>
    rw [hx, Option.map_none, eq_comm, Option.map_eq_none_iff] at hkeys
    exact hkeys.symm
  | some x =>
    rw [hx, Option.map_some, eq_comm, Option.map_eq_some_iff] at hkeys
    obtain ⟨y, hy, hyx⟩ := hkeys
    rw [hy, hties y (h.mem_iff.2 (mem_of_foremost? hy)) x (mem_of_foremost? hx) hyx]

/-! ### Lists without two elements alike -/

section Alike

variable {alike : β → β → Prop} {p : β → Bool}

theorem filter_eq_singleton (hxs : xs.Pairwise fun a b ↦ ¬ alike a b)
    (halike : ∀ a ∈ xs, ∀ b ∈ xs, p a = true → p b = true → alike a b)
    (hx : x ∈ xs) (hp : p x = true) : xs.filter p = [x] := by
  induction xs with
  | nil => cases hx
  | cons y ys ih =>
    obtain ⟨hy, hys⟩ := List.pairwise_cons.1 hxs
    have hrest : ∀ a ∈ ys, ∀ b ∈ ys, p a = true → p b = true → alike a b := fun a ha b hb ↦
      halike a (List.mem_cons_of_mem _ ha) b (List.mem_cons_of_mem _ hb)
    rcases List.mem_cons.1 hx with rfl | hx
    · have hnone : ys.filter p = [] := by
        rw [List.filter_eq_nil_iff]
        intro a ha hpa
        exact hy a ha (halike x List.mem_cons_self a (List.mem_cons_of_mem _ ha) hp hpa)
      rw [List.filter_cons_of_pos hp, hnone]
    · have hyp : ¬ p y = true := fun hpy ↦
        hy x hx (halike y List.mem_cons_self x (List.mem_cons_of_mem _ hx) hpy hp)
      rw [List.filter_cons_of_neg hyp]
      exact ih hys hrest hx

/-- A choice that at most one element meets has the same outcome in any order. -/
theorem filter_eq_of_perm (hxs : xs.Pairwise fun a b ↦ ¬ alike a b)
    (halike : ∀ a ∈ xs, ∀ b ∈ xs, p a = true → p b = true → alike a b) (h : xs.Perm ys) :
    xs.filter p = ys.filter p := by
  have hfilter : (xs.filter p).Perm (ys.filter p) := h.filter p
  cases hfound : xs.filter p with
  | nil =>
    rw [hfound, List.nil_perm] at hfilter
    exact hfilter.symm
  | cons x rest =>
    obtain ⟨hx, hp⟩ := List.mem_filter.1 (hfound ▸ List.mem_cons_self : x ∈ xs.filter p)
    have hsingle : xs.filter p = [x] := filter_eq_singleton hxs halike hx hp
    rw [hsingle, List.singleton_perm] at hfilter
    rw [← hfound, hsingle, hfilter]

theorem find?_eq_of_perm (hxs : xs.Pairwise fun a b ↦ ¬ alike a b)
    (halike : ∀ a ∈ xs, ∀ b ∈ xs, p a = true → p b = true → alike a b) (h : xs.Perm ys) :
    xs.find? p = ys.find? p := by
  rw [← List.head?_filter, ← List.head?_filter, filter_eq_of_perm hxs halike h]

theorem eq_of_alike (hsymm : ∀ a b, alike a b → alike b a)
    (hxs : xs.Pairwise fun a b ↦ ¬ alike a b) {a b : β} (ha : a ∈ xs) (hb : b ∈ xs)
    (hab : alike a b) : a = b := by
  have : Std.Symm fun a b ↦ ¬ alike a b := ⟨fun a b h hba ↦ h (hsymm b a hba)⟩
  by_contra hne
  exact hxs.forall ha hb hne hab

end Alike

end Ventilation
