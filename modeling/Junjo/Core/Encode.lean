import Junjo.Core.Text

/-!
# Length-prefixed texts

`lengthPrefixed` writes a text after its length in decimal, as keys built from caller-supplied
strings do. The length says where the text ends, so concatenations can be read back and keys of
different parts differ.
-/

namespace Junjo

/-- `:` -/
def colon : CodeUnit := 58

/-- A digit. -/
def digitUnit (d : ℕ) : CodeUnit := Fin.ofNat _ (48 + d)

/-- A number in decimal. -/
def decimal (n : ℕ) : Text := if n = 0 then [digitUnit 0] else (Nat.digits 10 n).reverse.map digitUnit

/-- The length of a text, a colon, then the text. -/
def lengthPrefixed (part : Text) : Text := decimal part.length ++ colon :: part

lemma digitUnit_val {d : ℕ} (h : d < 10) : (digitUnit d).val = 48 + d := by
  change (48 + d) % 65536 = 48 + d
  omega

lemma colon_not_mem_decimal (n : ℕ) : colon ∉ decimal n := by
  have hdigit : ∀ d < 10, digitUnit d ≠ colon := by
    intro d hd h
    have hval := congrArg Fin.val h
    rw [digitUnit_val hd] at hval
    change 48 + d = 58 at hval
    omega
  unfold decimal
  split_ifs
  · simp only [List.mem_singleton]
    exact fun h => hdigit 0 (by omega) h.symm
  · simp only [List.mem_map, List.mem_reverse, not_exists, not_and]
    exact fun d hd => hdigit d (Nat.digits_lt_base (by omega) hd)

/-- The number a decimal text stands for. -/
private def readDecimal (s : Text) : ℕ := Nat.ofDigits 10 (s.reverse.map fun c => c.val - 48)

private lemma readDecimal_decimal (n : ℕ) : readDecimal (decimal n) = n := by
  unfold readDecimal decimal
  split_ifs with hn
  · simp [hn, digitUnit_val]
  · have hdigits : ((Nat.digits 10 n).reverse.map digitUnit).reverse.map (fun c => c.val - 48)
        = Nat.digits 10 n := by
      rw [← List.map_reverse, List.reverse_reverse, List.map_map]
      conv_rhs => rw [← List.map_id (Nat.digits 10 n)]
      apply List.map_congr_left
      intro d hd
      have hlt : d < 10 := Nat.digits_lt_base (by omega) hd
      simp [digitUnit_val hlt]
    rw [hdigits, Nat.ofDigits_digits]

lemma decimal_injective : Function.Injective decimal :=
  Function.LeftInverse.injective readDecimal_decimal

/-- A text up to its first colon. -/
private lemma takeWhile_colon {s x : Text} (h : colon ∉ s) :
    (s ++ colon :: x).takeWhile (· ≠ colon) = s := by
  rw [List.takeWhile_append_of_pos]
  · simp
  · intro c hc
    simpa using fun hcolon : c = colon => h (hcolon ▸ hc)

/-- A length-prefixed text can be read back from the front. -/
lemma lengthPrefixed_append_inj {a b x y : Text}
    (h : lengthPrefixed a ++ x = lengthPrefixed b ++ y) : a = b ∧ x = y := by
  simp only [lengthPrefixed, List.append_assoc, List.cons_append] at h
  have hdecimal := congrArg (List.takeWhile (· ≠ colon)) h
  rw [takeWhile_colon (colon_not_mem_decimal _), takeWhile_colon (colon_not_mem_decimal _)]
    at hdecimal
  have hlength : a.length = b.length := decimal_injective hdecimal
  rw [hlength] at h
  exact List.append_inj (List.tail_eq_of_cons_eq (List.append_cancel_left h)) hlength

/-- A part of a key. -/
def keyPart (p : Text) : Text := text "|" ++ lengthPrefixed p

lemma flatMap_keyPart_inj {l l' : List Text} (hlen : l.length = l'.length)
    (h : l.flatMap keyPart = l'.flatMap keyPart) : l = l' := by
  induction l generalizing l' with
  | nil => exact (List.length_eq_zero_iff.mp hlen.symm).symm
  | cons p l ih =>
    cases l' with
    | nil => simp at hlen
    | cons p' l' =>
      simp only [List.flatMap_cons, keyPart, List.append_assoc] at h
      obtain ⟨rfl, hrest⟩ := lengthPrefixed_append_inj (List.append_cancel_left h)
      rw [ih (by simpa using hlen) hrest]

end Junjo
