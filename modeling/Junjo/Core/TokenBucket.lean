import Junjo.Core.Lists

/-!
# Token buckets

A bucket refills at a constant rate up to its capacity, and each request that finds a whole token
takes one. Only what is left of the last visit is stored: a bucket that was never touched is full.
-/

namespace Junjo

namespace TokenBucket

variable {K : Type*} [Field K] [LinearOrder K]

/-- How much a bucket holds and how fast it refills. -/
structure Shape (K : Type*) where
  capacity : K
  rate : K

/-- What a visit left, and when. -/
structure Bucket (K : Type*) where
  tokens : K
  visitedAt : K

namespace Shape

variable (p : Shape K)

/-- The tokens of a bucket at a time. -/
def level : Option (Bucket K) → K → K
  | none, _ => p.capacity
  | some b, now => min p.capacity (b.tokens + (now - b.visitedAt) * p.rate)

/-- What a request leaves of a bucket that holds a token. -/
def take (b : Option (Bucket K)) (now : K) : Bucket K := ⟨p.level b now - 1, now⟩

/-- A request at a time: whether it is served, and what it leaves. -/
def serve (b : Option (Bucket K)) (now : K) : Bool × Option (Bucket K) :=
  if p.level b now < 1 then (false, b) else (true, some (p.take b now))

/-- How many of the requests at these times are served. -/
def served (b : Option (Bucket K)) : List K → ℕ
  | [] => 0
  | now :: times => (p.serve b now).1.toNat + served (p.serve b now).2 times

/-- How many of them are served between two times. -/
def servedBetween (start stop : K) (b : Option (Bucket K)) : List K → ℕ
  | [] => 0
  | now :: times =>
    (if start ≤ now ∧ now ≤ stop then (p.serve b now).1.toNat else 0) +
      servedBetween start stop (p.serve b now).2 times

/-- Two buckets with the same tokens from a time on. -/
def SameFrom (now : K) (b b' : Option (Bucket K)) : Prop :=
  ∀ later, now ≤ later → p.level b later = p.level b' later

variable {p} {now later : K} {b b' : Option (Bucket K)}

@[simp] lemma level_none (now : K) : p.level none now = p.capacity := rfl

lemma level_le_capacity (b : Option (Bucket K)) (now : K) : p.level b now ≤ p.capacity := by
  cases b with
  | none => exact le_rfl
  | some b => exact min_le_left _ _

lemma SameFrom.refl (now : K) (b : Option (Bucket K)) : p.SameFrom now b b := fun _ _ => rfl

lemma SameFrom.mono (h : p.SameFrom now b b') (hle : now ≤ later) : p.SameFrom later b b' :=
  fun _ hlater => h _ (hle.trans hlater)

lemma SameFrom.serve_eq (h : p.SameFrom now b b') : (p.serve b now).1 = (p.serve b' now).1 := by
  unfold serve
  rw [h now le_rfl]
  split_ifs <;> rfl

/-- Buckets with the same tokens stay so when both are asked. -/
lemma SameFrom.serve (h : p.SameFrom now b b') :
    p.SameFrom now (p.serve b now).2 (p.serve b' now).2 := by
  unfold Shape.serve take
  rw [h now le_rfl]
  split_ifs
  · exact h
  · exact SameFrom.refl _ _

variable [IsStrictOrderedRing K]

/-- A bucket never gains faster than its rate. -/
lemma level_le_add (hrate : 0 ≤ p.rate) (b : Option (Bucket K)) (hle : now ≤ later) :
    p.level b later ≤ p.level b now + (later - now) * p.rate := by
  have hgain : 0 ≤ (later - now) * p.rate := mul_nonneg (sub_nonneg.mpr hle) hrate
  cases b with
  | none => simpa using hgain
  | some b =>
    rw [level, level, ← min_add_add_right]
    refine le_min ((min_le_left _ _).trans (by simpa using hgain)) ((min_le_right _ _).trans ?_)
    exact le_of_eq (by ring)

lemma level_mono (hrate : 0 ≤ p.rate) (b : Option (Bucket K)) (hle : now ≤ later) :
    p.level b now ≤ p.level b later := by
  cases b with
  | none => exact le_rfl
  | some b =>
    have hgain : (now - b.visitedAt) * p.rate ≤ (later - b.visitedAt) * p.rate :=
      mul_le_mul_of_nonneg_right (by simpa using hle) hrate
    exact min_le_min le_rfl (by simpa using hgain)

/-- A bucket that is full is like one that was never touched. -/
lemma sameFrom_none_of_full (hrate : 0 ≤ p.rate) (hfull : p.capacity ≤ p.level b now) :
    p.SameFrom now b none := by
  intro later hlater
  exact le_antisymm (level_le_capacity b later) (hfull.trans (level_mono hrate b hlater))

/-- A refused request is served once the missing part of a token has come in. -/
lemma one_le_level_of_wait (hcap : 1 ≤ p.capacity) (hrate : 0 < p.rate)
    (hwait : (1 - p.level b now) / p.rate ≤ later - now) : 1 ≤ p.level b later := by
  cases b with
  | none => exact hcap
  | some b =>
    rw [div_le_iff₀ hrate] at hwait
    refine le_min hcap ?_
    have hlevel : p.level (some b) now ≤ b.tokens + (now - b.visitedAt) * p.rate :=
      min_le_right _ _
    calc 1 ≤ p.level (some b) now + (later - now) * p.rate := by linarith
      _ ≤ b.tokens + (now - b.visitedAt) * p.rate + (later - now) * p.rate := by linarith
      _ = b.tokens + (later - b.visitedAt) * p.rate := by ring

omit [IsStrictOrderedRing K] in
lemma level_take_le (b : Option (Bucket K)) (now : K) :
    p.level (some (p.take b now)) now ≤ p.level b now - 1 := by
  refine (min_le_right _ _).trans ?_
  simp [take]

/-- Between two times a bucket serves at most what it holds and what comes in. -/
lemma served_le (hcap : 0 ≤ p.capacity) (hrate : 0 ≤ p.rate) {times : List K} {start stop : K}
    (hsorted : times.Pairwise (· ≤ ·)) (hstart : ∀ t ∈ times, start ≤ t)
    (hstop : ∀ t ∈ times, t ≤ stop) (hlevel : 0 ≤ p.level b start) (hle : start ≤ stop) :
    (p.served b times : K) ≤ p.level b start + (stop - start) * p.rate := by
  induction times generalizing b start with
  | nil =>
    have hgain : 0 ≤ (stop - start) * p.rate := mul_nonneg (sub_nonneg.mpr hle) hrate
    simpa [served] using add_nonneg hlevel hgain
  | cons now times ih =>
    obtain ⟨hnow, hsorted⟩ := List.pairwise_cons.mp hsorted
    have hfrom : start ≤ now := hstart now List.mem_cons_self
    have hto : now ≤ stop := hstop now List.mem_cons_self
    have hrest : ∀ t ∈ times, t ≤ stop := fun t ht => hstop t (List.mem_cons_of_mem _ ht)
    rw [served]
    unfold serve
    split_ifs with hless
    · have hih := ih hsorted (fun t ht => hfrom.trans (hnow t ht)) hrest hlevel hle
      simpa using hih
    · have hone : 1 ≤ p.level b now := not_lt.mp hless
      have hleft : 0 ≤ p.level (some (p.take b now)) now := by
        refine le_min hcap ?_
        simpa [take] using hone
      have hih := ih hsorted hnow hrest hleft hto
      have hgain := level_le_add hrate b hfrom
      have hleave := level_take_le (p := p) b now
      push_cast [Bool.toNat_true]
      calc (1 : K) + p.served (some (p.take b now)) times
          ≤ 1 + (p.level b now - 1 + (stop - now) * p.rate) := by linarith
        _ ≤ 1 + (p.level b start + (now - start) * p.rate - 1 + (stop - now) * p.rate) := by
          linarith
        _ = p.level b start + (stop - start) * p.rate := by ring

/-- A request leaves no debt. -/
lemma level_serve_nonneg (hcap : 0 ≤ p.capacity) (hlevel : 0 ≤ p.level b now) :
    0 ≤ p.level (p.serve b now).2 now := by
  unfold serve
  split_ifs with hless
  · exact hlevel
  · have hone : 1 ≤ p.level b now := not_lt.mp hless
    refine le_min hcap ?_
    simpa [take] using hone

/-- Requests from the start on count until the stop. -/
lemma servedBetween_le_served {start stop : K} {times : List K} (hsorted : times.Pairwise (· ≤ ·)) :
    p.servedBetween start stop b times ≤ p.served b (times.takeWhile (· ≤ stop)) := by
  induction times generalizing b with
  | nil => exact le_rfl
  | cons now times ih =>
    obtain ⟨hnow, hsorted⟩ := List.pairwise_cons.mp hsorted
    by_cases hstop : now ≤ stop
    · rw [servedBetween, List.takeWhile_cons_of_pos (by simpa using hstop), served]
      refine Nat.add_le_add ?_ (ih hsorted)
      split_ifs
      · exact le_rfl
      · exact Nat.zero_le _
    · have hlate : ∀ (times : List K) (b : Option (Bucket K)), (∀ t ∈ times, ¬ t ≤ stop) →
          p.servedBetween start stop b times = 0 := by
        intro times
        induction times with
        | nil => exact fun _ _ => rfl
        | cons t times ih =>
          intro b hall
          rw [servedBetween, if_neg (fun h => hall t List.mem_cons_self h.2),
            ih _ fun t ht => hall t (List.mem_cons_of_mem _ ht)]
      rw [hlate (now :: times) b]
      · exact Nat.zero_le _
      · intro t ht hle
        rcases List.mem_cons.mp ht with rfl | ht
        · exact hstop hle
        · exact hstop ((hnow t ht).trans hle)

/-- In any window a bucket serves at most its capacity and what comes in meanwhile. -/
lemma servedBetween_le (hcap : 0 ≤ p.capacity) (hrate : 0 ≤ p.rate) {times : List K}
    {start stop first : K} (hsorted : times.Pairwise (· ≤ ·)) (hfirst : ∀ t ∈ times, first ≤ t)
    (hlevel : 0 ≤ p.level b first) (hle : start ≤ stop) :
    (p.servedBetween start stop b times : K) ≤ p.capacity + (stop - start) * p.rate := by
  have hgain : 0 ≤ (stop - start) * p.rate := mul_nonneg (sub_nonneg.mpr hle) hrate
  induction times generalizing b first with
  | nil => simpa [servedBetween] using add_nonneg hcap hgain
  | cons now times ih =>
    have hsplit := List.pairwise_cons.mp hsorted
    have hnow : first ≤ now := hfirst now List.mem_cons_self
    have hat : 0 ≤ p.level b now := hlevel.trans (level_mono hrate b hnow)
    by_cases hbefore : now < start
    · rw [servedBetween, if_neg (fun h => not_le.mpr hbefore h.1), zero_add]
      exact ih hsplit.2 hsplit.1 (level_serve_nonneg hcap hat)
    · have hfrom : start ≤ now := not_lt.mp hbefore
      by_cases hstop : now ≤ stop
      · have hcount : p.servedBetween start stop b (now :: times)
            ≤ p.served b ((now :: times).takeWhile (· ≤ stop)) := servedBetween_le_served hsorted
        have hsub : ((now :: times).takeWhile (· ≤ stop)).Sublist (now :: times) :=
          List.takeWhile_sublist _
        have hbound : (p.served b ((now :: times).takeWhile (· ≤ stop)) : K)
            ≤ p.level b now + (stop - now) * p.rate := by
          refine served_le hcap hrate (hsorted.sublist hsub) (fun t ht => ?_) (fun t ht => ?_) hat
            hstop
          · rcases List.mem_cons.mp (hsub.subset ht) with rfl | ht
            · exact le_rfl
            · exact hsplit.1 t ht
          · simpa using List.mem_takeWhile_imp ht
        have hfull : p.level b now ≤ p.capacity := level_le_capacity b now
        have hlate : (stop - now) * p.rate ≤ (stop - start) * p.rate :=
          mul_le_mul_of_nonneg_right (by linarith) hrate
        calc (p.servedBetween start stop b (now :: times) : K)
            ≤ p.served b ((now :: times).takeWhile (· ≤ stop)) := by exact_mod_cast hcount
          _ ≤ p.level b now + (stop - now) * p.rate := hbound
          _ ≤ p.capacity + (stop - start) * p.rate := add_le_add hfull hlate
      · rw [servedBetween, if_neg (fun h => hstop h.2), zero_add]
        exact ih hsplit.2 hsplit.1 (level_serve_nonneg hcap hat)

end Shape

end TokenBucket

end Junjo
