import Junjo.Core.Layers

/-!
# Walks in a relation without cycles

How long walks get, lists that order a relation topologically, and what replacing the successors
of one element does to cycles.
-/

namespace Junjo

variable {α : Type*} {R R' : α → α → Prop} {x y z : α} {n m : ℕ}

/-- No element is its own ancestor. -/
def Acyclic (R : α → α → Prop) : Prop := ∀ x, ¬ Relation.TransGen R x x

/-- No walk has more than `n` steps. -/
def WalksWithin (R : α → α → Prop) (n : ℕ) : Prop := ∀ x y m, y ∈ WalkTo R {x} m → m ≤ n

/-- The longest walk from `x` has `n` steps. -/
def IsHeight (R : α → α → Prop) (x : α) (n : ℕ) : Prop :=
  (∃ y, y ∈ WalkTo R {x} n) ∧ ∀ y m, y ∈ WalkTo R {x} m → m ≤ n

/-! ### Walks -/

/-- A walk by its first step. -/
lemma mem_walkTo_succ : y ∈ WalkTo R {x} (n + 1) ↔ ∃ p, R x p ∧ y ∈ WalkTo R {p} n := by
  induction n generalizing y with
  | zero => simp [WalkTo]
  | succ n ih =>
    constructor
    · rintro ⟨w, hw, hwy⟩
      obtain ⟨p, hp, hpw⟩ := ih.mp hw
      exact ⟨p, hp, w, hpw, hwy⟩
    · rintro ⟨p, hp, w, hpw, hwy⟩
      exact ⟨w, ih.mpr ⟨p, hp, hpw⟩, hwy⟩

lemma mem_walkTo_add (hxy : y ∈ WalkTo R {x} n) (hyz : z ∈ WalkTo R {y} m) :
    z ∈ WalkTo R {x} (n + m) := by
  induction m generalizing z with
  | zero =>
    obtain rfl : z = y := hyz
    exact hxy
  | succ m ih =>
    obtain ⟨w, hw, hwz⟩ := hyz
    exact ⟨w, ih hw, hwz⟩

/-- A walk through an element in its middle. -/
lemma exists_mem_walkTo_add (hxz : z ∈ WalkTo R {x} (n + m)) :
    ∃ y ∈ WalkTo R {x} n, z ∈ WalkTo R {y} m := by
  induction m generalizing z with
  | zero => exact ⟨z, hxz, rfl⟩
  | succ m ih =>
    obtain ⟨w, hw, hwz⟩ := hxz
    obtain ⟨y, hy, hyw⟩ := ih hw
    exact ⟨y, hy, w, hyw, hwz⟩

/-- Where every element has one successor at most, walks of one length end at one element. -/
lemma walkTo_unique (hfun : ∀ a b b', R a b → R a b' → b = b') (hy : y ∈ WalkTo R {x} n)
    (hz : z ∈ WalkTo R {x} n) : y = z := by
  induction n generalizing y z with
  | zero => exact Eq.trans hy (Eq.symm hz)
  | succ n ih =>
    obtain ⟨v, hv, hvy⟩ := hy
    obtain ⟨w, hw, hwz⟩ := hz
    obtain rfl := ih hv hw
    exact hfun v y z hvy hwz

/-- A walk from a set starts at one of its elements. -/
lemma exists_mem_walkTo {S : Set α} (h : y ∈ WalkTo R S n) : ∃ x ∈ S, y ∈ WalkTo R {x} n := by
  induction n generalizing y with
  | zero => exact ⟨y, h, rfl⟩
  | succ n ih =>
    obtain ⟨w, hw, hwy⟩ := h
    obtain ⟨x, hx, hxw⟩ := ih hw
    exact ⟨x, hx, w, hxw, hwy⟩

/-- A walk stays where its steps stay, and is a walk of every relation that has these steps. -/
lemma walkTo_of_closed {P : α → Prop} (h : ∀ a b, P a → R a b → P b ∧ R' a b) (hx : P x)
    (hy : y ∈ WalkTo R {x} n) : P y ∧ y ∈ WalkTo R' {x} n := by
  induction n generalizing y with
  | zero =>
    obtain rfl : y = x := hy
    exact ⟨hx, rfl⟩
  | succ n ih =>
    obtain ⟨w, hw, hwy⟩ := hy
    obtain ⟨hPw, hwalk⟩ := ih hw
    obtain ⟨hPy, hstep⟩ := h w y hPw hwy
    exact ⟨hPy, w, hwalk, hstep⟩

lemma walkTo_mono (h : ∀ a b, R a b → R' a b) (hy : y ∈ WalkTo R {x} n) :
    y ∈ WalkTo R' {x} n :=
  (@walkTo_of_closed _ R R' x y n (fun _ => True) (fun a b _ hab => ⟨trivial, h a b hab⟩)
    trivial hy).2

lemma WalksWithin.mono (h : WalksWithin R' n) (hsub : ∀ a b, R a b → R' a b) : WalksWithin R n :=
  fun x y m hy => h x y m (walkTo_mono hsub hy)

lemma transGen_iff_walkTo : Relation.TransGen R x y ↔ ∃ n, y ∈ WalkTo R {x} (n + 1) := by
  constructor
  · intro h
    induction h with
    | single h => exact ⟨0, x, rfl, h⟩
    | tail _ hbc ih =>
      obtain ⟨n, hn⟩ := ih
      exact ⟨n + 1, _, hn, hbc⟩
  · rintro ⟨n, hn⟩
    induction n generalizing y with
    | zero =>
      obtain ⟨w, hw, hwy⟩ := hn
      obtain rfl : w = x := hw
      exact .single hwy
    | succ n ih =>
      obtain ⟨w, hw, hwy⟩ := hn
      exact (ih hw).tail hwy

/-- Where every element has one successor at most and there are no cycles, walks between two
elements have one length. -/
lemma Acyclic.walk_length_eq (h : Acyclic R) (hfun : ∀ a b b', R a b → R a b' → b = b')
    (hn : y ∈ WalkTo R {x} n) (hm : y ∈ WalkTo R {x} m) : n = m := by
  have hle : ∀ n m, y ∈ WalkTo R {x} n → y ∈ WalkTo R {x} m → n ≤ m := by
    intro n m hn hm
    by_contra hlt
    obtain ⟨k, rfl⟩ := Nat.exists_eq_add_of_lt (not_le.mp hlt)
    obtain ⟨w, hw, hwy⟩ := exists_mem_walkTo_add (Nat.add_assoc m k 1 ▸ hn)
    obtain rfl := walkTo_unique hfun hw hm
    exact h w (transGen_iff_walkTo.mpr ⟨k, hwy⟩)
  exact le_antisymm (hle n m hn hm) (hle m n hm hn)

/-- Going around a cycle again and again makes walks of any length. -/
lemma WalksWithin.acyclic (h : WalksWithin R n) : Acyclic R := by
  intro x hx
  obtain ⟨k, hk⟩ := transGen_iff_walkTo.mp hx
  have hround : ∀ i, ∃ m, i ≤ m ∧ x ∈ WalkTo R {x} m := by
    intro i
    induction i with
    | zero => exact ⟨0, le_rfl, rfl⟩
    | succ i ih =>
      obtain ⟨m, him, hm⟩ := ih
      exact ⟨m + (k + 1), by omega, mem_walkTo_add hm hk⟩
  obtain ⟨m, hm, hwalk⟩ := hround (n + 1)
  exact absurd (h x x m hwalk) (by omega)

/-! ### Heights -/

lemma IsHeight.unique (hn : IsHeight R x n) (hm : IsHeight R x m) : n = m :=
  le_antisymm (hm.2 _ n hn.1.choose_spec) (hn.2 _ m hm.1.choose_spec)

/-- The height of an element, from the heights of its successors. -/
lemma isHeight_of_successors (hle : ∀ p, R x p → ∃ k < n, IsHeight R p k)
    (hreach : n = 0 ∨ ∃ p k, R x p ∧ IsHeight R p k ∧ n = k + 1) : IsHeight R x n := by
  constructor
  · rcases hreach with rfl | ⟨p, k, hp, hk, rfl⟩
    · exact ⟨x, rfl⟩
    · obtain ⟨y, hy⟩ := hk.1
      exact ⟨y, mem_walkTo_succ.mpr ⟨p, hp, hy⟩⟩
  · intro y m hy
    cases m with
    | zero => exact Nat.zero_le n
    | succ m =>
      obtain ⟨p, hp, hpy⟩ := mem_walkTo_succ.mp hy
      obtain ⟨k, hk, hheight⟩ := hle p hp
      exact (Nat.succ_le_succ (hheight.2 y m hpy)).trans hk

/-! ### Topological orders -/

/-- Every element comes before its successors, which are all listed. -/
def Topological (R : α → α → Prop) : List α → Prop
  | [] => True
  | x :: l => x ∉ l ∧ (∀ y, R x y → y ∈ l) ∧ Topological R l

lemma Topological.nodup {l : List α} (h : Topological R l) : l.Nodup := by
  induction l with
  | nil => exact List.nodup_nil
  | cons x l ih => exact List.nodup_cons.mpr ⟨h.1, ih h.2.2⟩

lemma Topological.mem_of_rel {l : List α} (h : Topological R l) (hx : x ∈ l) (hxy : R x y) :
    y ∈ l := by
  induction l with
  | nil => exact absurd hx (by simp)
  | cons z l ih =>
    rcases List.mem_cons.mp hx with rfl | hx
    · exact List.mem_cons_of_mem _ (h.2.1 y hxy)
    · exact List.mem_cons_of_mem _ (ih h.2.2 hx)

/-- Walks from the listed elements have fewer steps than there are elements. -/
lemma Topological.walk_lt {l : List α} (h : Topological R l) (hx : x ∈ l)
    (hy : y ∈ WalkTo R {x} n) : n < l.length := by
  induction l generalizing x n with
  | nil => exact absurd hx (by simp)
  | cons z l ih =>
    rcases List.mem_cons.mp hx with rfl | hx
    · cases n with
      | zero => simp
      | succ n =>
        obtain ⟨p, hp, hpy⟩ := mem_walkTo_succ.mp hy
        simpa using ih h.2.2 (h.2.1 p hp) hpy
    · exact (ih h.2.2 hx hy).trans (by simp)

/-- A relation whose elements with successors are all listed has no cycle. -/
lemma Topological.acyclic {l : List α} (h : Topological R l) (hall : ∀ a b, R a b → a ∈ l) :
    Acyclic R := by
  have hwithin : WalksWithin R l.length := by
    intro x y n hy
    cases n with
    | zero => exact Nat.zero_le _
    | succ n =>
      obtain ⟨p, hp, -⟩ := mem_walkTo_succ.mp hy
      exact (h.walk_lt (hall x p hp) hy).le
  exact hwithin.acyclic

/-! ### Replacing the successors of one element -/

section Repoint

variable {p : α}

/-- Steps of `R'` are steps of `R`, except that the only successor of `x` is `p`. -/
def Repoints (R R' : α → α → Prop) (x p : α) : Prop :=
  ∀ a b, R' a b → a = x ∧ b = p ∨ a ≠ x ∧ R a b

/-- A walk after the replacement is an old one, or reaches `x` and goes on from `p`. -/
lemma Repoints.transGen (h : Repoints R R' x p) {a b : α} (hab : Relation.TransGen R' a b) :
    Relation.TransGen R a b ∨
      Relation.ReflTransGen R a x ∧ Relation.ReflTransGen R' p b := by
  have hstep : ∀ b c, R' b c → Relation.ReflTransGen R a b →
      Relation.TransGen R a c ∨ Relation.ReflTransGen R a x ∧ Relation.ReflTransGen R' p c := by
    intro b c hbc hab
    rcases h b c hbc with ⟨rfl, rfl⟩ | ⟨-, hold⟩
    · exact .inr ⟨hab, .refl⟩
    · exact .inl (Relation.TransGen.tail' hab hold)
  induction hab with
  | single hab => exact hstep a _ hab .refl
  | tail _ hbc ih =>
    rcases ih with hold | ⟨hx, hp⟩
    · exact hstep _ _ hbc hold.to_reflTransGen
    · exact .inr ⟨hx, hp.tail hbc⟩

/-- The replacement closes no cycle when `p` does not lead to `x`. -/
lemma Acyclic.repoint (hR : Acyclic R) (h : Repoints R R' x p)
    (hp : ¬ Relation.ReflTransGen R p x) : Acyclic R' := by
  intro a ha
  rcases h.transGen ha with hold | ⟨hax, hpa⟩
  · exact hR a hold
  · rcases Relation.reflTransGen_iff_eq_or_transGen.mp hpa with rfl | hpa
    · exact hp hax
    · rcases h.transGen hpa with hold | ⟨hpx, -⟩
      · exact hp (hold.to_reflTransGen.trans hax)
      · exact hp hpx

/-- When `p` leads to `x` and the other steps stay, the new step closes a cycle. -/
lemma not_acyclic_of_repoint (hstay : ∀ a b, a ≠ x → R a b → R' a b) (hnew : R' x p)
    (hp : Relation.ReflTransGen R p x) : ¬ Acyclic R' := by
  have hback : Relation.ReflTransGen R' p x := by
    clear hnew
    induction hp using Relation.ReflTransGen.head_induction_on with
    | refl => exact .refl
    | @head a b hab _ ih =>
      by_cases ha : a = x
      · exact ha ▸ .refl
      · exact .head (hstay a b ha hab) ih
  exact fun hacyclic => hacyclic x (Relation.TransGen.head' hnew hback)

end Repoint

end Junjo
