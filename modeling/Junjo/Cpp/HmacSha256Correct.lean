import Junjo.Cpp.HmacSha256

/-!
# The C++ hash functions are the standard's

Between updates the hasher holds the hash value of the whole blocks of what it has taken, and the
rest in its buffer. Its result only depends on the message, however it was cut into updates.
-/

namespace Junjo.Cpp

open Fips180 (Byte Word)

/-! ### Compression -/

lemma rotr_eq {value : Word} {n : ℕ} (hn : n < 32) : rotr value n = value.rotateRight n := by
  rw [BitVec.rotateRight_def, Nat.mod_eq_of_lt hn]
  rfl

lemma readWord_eq (block : List Byte) (t : ℕ) : readWord block t = Fips180.wordAt block t := by
  unfold readWord Fips180.wordAt
  generalize block.getD (4 * t) 0 = b₀
  generalize block.getD (4 * t + 1) 0 = b₁
  generalize block.getD (4 * t + 2) 0 = b₂
  generalize block.getD (4 * t + 3) 0 = b₃
  apply BitVec.eq_of_getLsbD_eq
  intro i hi
  simp only [BitVec.getLsbD_or, BitVec.getLsbD_shiftLeft, BitVec.getLsbD_setWidth,
    BitVec.getLsbD_append]
  interval_cases i <;> simp

lemma kRoundConstants_eq : kRoundConstants = Fips180.roundConstants := by decide +kernel

/-- The schedule after some of its words are added. -/
lemma schedule_spec (block : List Byte) (n : ℕ) :
    ((List.range' 16 n).foldl extendSchedule ((List.range 16).map (readWord block))).length
        = 16 + n ∧
      ∀ t < 16 + n,
        ((List.range' 16 n).foldl extendSchedule ((List.range 16).map (readWord block))).getD t 0
          = Fips180.schedule block t := by
  induction n with
  | zero =>
    refine ⟨by simp, fun t ht => ?_⟩
    rw [Fips180.schedule, if_pos (by omega), ← readWord_eq]
    simp [show t < 16 by omega]
  | succ n ih =>
    obtain ⟨hlength, hget⟩ := ih
    rw [List.range'_concat, List.foldl_append, List.foldl_cons, List.foldl_nil, Nat.one_mul]
    generalize (List.range' 16 n).foldl extendSchedule ((List.range 16).map (readWord block))
      = words at hlength hget
    refine ⟨by simp [extendSchedule, hlength]; omega, fun t ht => ?_⟩
    unfold extendSchedule
    dsimp only
    by_cases hlast : t = 16 + n
    · subst hlast
      have hword : ∀ w : Word, (words ++ [w]).getD (16 + n) 0 = w := by
        intro w
        rw [List.getD_append_right _ _ _ _ hlength.le, hlength]
        simp
      rw [hword, hget _ (by omega), hget _ (by omega), hget _ (by omega), hget _ (by omega),
        Fips180.schedule.eq_def block (16 + n), if_neg (by omega),
        rotr_eq (by omega), rotr_eq (by omega), rotr_eq (by omega), rotr_eq (by omega)]
      unfold Fips180.smallSigma0 Fips180.smallSigma1
      ac_rfl
    · rw [List.getD_append _ _ _ _ (by omega)]
      exact hget t (by omega)

/-- The variables of the rounds, under the names of the standard. -/
def Registers.working (r : Registers) : Fips180.Working := ⟨r.a, r.b, r.c, r.d, r.e, r.f, r.g, r.h⟩

lemma working_round (block : List Byte) (r : Registers) {t : ℕ} (ht : t < 64) :
    (round (schedule block) r t).working
      = Fips180.round r.working (Fips180.roundConstants.getD t 0) (Fips180.schedule block t) := by
  have hword : (schedule block).getD t 0 = Fips180.schedule block t :=
    (schedule_spec block 48).2 t ht
  unfold round
  rw [hword, kRoundConstants_eq, rotr_eq (by omega), rotr_eq (by omega), rotr_eq (by omega),
    rotr_eq (by omega), rotr_eq (by omega), rotr_eq (by omega)]
  rfl

lemma working_compress (state : Registers) (block : List Byte) :
    (compress state block).working = Fips180.compress state.working block := by
  have hrounds : ∀ (l : List ℕ) (r : Registers), (∀ t ∈ l, t < 64) →
      (l.foldl (round (schedule block)) r).working
        = l.foldl (fun v t => Fips180.round v (Fips180.roundConstants.getD t 0)
            (Fips180.schedule block t)) r.working := by
    intro l
    induction l with
    | nil => intro _ _; rfl
    | cons t l ih =>
      intro r hl
      rw [List.foldl_cons, List.foldl_cons, ← working_round block r (hl t List.mem_cons_self)]
      exact ih _ fun t' ht' => hl t' (List.mem_cons_of_mem _ ht')
  have hall := hrounds (List.range 64) state fun t ht => List.mem_range.mp ht
  unfold Fips180.compress
  rw [← hall]
  unfold compress Registers.working
  simp only [BitVec.add_comm]

/-! ### Updates -/

namespace Sha256

/-- What the hasher holds of the bytes it has taken: the hash value of the whole blocks, the rest in
its buffer, and their number. -/
structure Holds (s : Sha256) (taken : List Byte) : Prop where
  size : s.buffer.length = 64
  buffered_lt : s.buffered < 64
  split : ∃ blocks, taken = blocks ++ s.buffer.take s.buffered ∧ blocks.length % 64 = 0 ∧
    s.state.working = Fips180.hashBlocks Fips180.initial blocks

variable {s : Sha256} {taken bytes : List Byte}

lemma length_memcpy {buffer : List Byte} {offset : ℕ}
    (h : offset + bytes.length ≤ buffer.length) :
    (memcpy buffer offset bytes).length = buffer.length := by
  unfold memcpy
  simp only [List.length_append, List.length_take, List.length_drop]
  omega

lemma take_memcpy {buffer : List Byte} {offset : ℕ}
    (h : offset + bytes.length ≤ buffer.length) :
    (memcpy buffer offset bytes).take (offset + bytes.length) = buffer.take offset ++ bytes := by
  unfold memcpy
  apply List.take_left'
  rw [List.length_append, List.length_take]
  omega

lemma Holds.buffered_eq (h : Holds s taken) : s.buffered = taken.length % 64 := by
  obtain ⟨blocks, htaken, hblocks, -⟩ := h.split
  have hsize := h.size
  have hlt := h.buffered_lt
  rw [htaken, List.length_append, List.length_take]
  omega

lemma holds_new : Holds {} [] := by
  refine ⟨by decide, by decide, [], rfl, rfl, ?_⟩
  rw [Fips180.hashBlocks, if_neg (by simp)]
  decide

/-- Bytes that fit into the buffer. -/
lemma Holds.fill (h : Holds s taken) (hfit : s.buffered + bytes.length ≤ 64) :
    Holds (s.fill bytes) (taken ++ bytes) := by
  obtain ⟨hsize, hlt, blocks, rfl, hblocks, hstate⟩ := h
  have hfit' : s.buffered + bytes.length ≤ s.buffer.length := by omega
  have htake := take_memcpy hfit'
  have hlength := length_memcpy hfit'
  unfold Sha256.fill
  dsimp only
  split_ifs with hfull
  · have hblock : memcpy s.buffer s.buffered bytes = s.buffer.take s.buffered ++ bytes := by
      rw [← htake, List.take_of_length_le (by omega)]
    refine ⟨hlength.trans hsize, Nat.zero_lt_succ 63,
      blocks ++ (s.buffer.take s.buffered ++ bytes), ?_, ?_, ?_⟩
    · simp
    · rw [← hblock, List.length_append, hlength]
      omega
    · dsimp only
      rw [working_compress, hstate, Fips180.hashBlocks_append _ _ _ hblocks, ← hblock]
      exact (Fips180.hashBlocks_block _ (hlength.trans hsize)).symm
  · refine ⟨hlength.trans hsize, ?_, blocks, ?_, hblocks, hstate⟩
    · dsimp only
      omega
    · dsimp only
      rw [htake, List.append_assoc]

/-- The loop of an update takes all bytes. -/
lemma Holds.absorb {fuel : ℕ} (h : Holds s taken) (hfuel : bytes.length ≤ fuel) :
    Holds (absorb fuel s bytes) (taken ++ bytes) ∧
      (Sha256.absorb fuel s bytes).totalBytes = s.totalBytes := by
  induction fuel generalizing s taken bytes with
  | zero =>
    obtain rfl : bytes = [] := List.length_eq_zero_iff.mp (Nat.le_zero.mp hfuel)
    rw [List.append_nil]
    exact ⟨h, rfl⟩
  | succ fuel ih =>
    rw [Sha256.absorb]
    split_ifs with hempty
    · rw [List.isEmpty_iff.mp hempty, List.append_nil]
      exact ⟨h, rfl⟩
    · dsimp only
      have hlt := h.buffered_lt
      have hpos : 0 < bytes.length := List.length_pos_iff.mpr (by simpa using hempty)
      generalize htake : (if bytes.length < 64 - s.buffered then bytes.length
        else 64 - s.buffered) = take
      have hbound : 0 < take ∧ take ≤ bytes.length ∧ s.buffered + take ≤ 64 := by
        split_ifs at htake <;> omega
      have hfill : Holds (s.fill (bytes.take take)) (taken ++ bytes.take take) :=
        h.fill (by rw [List.length_take]; omega)
      have hdrop : (bytes.drop take).length ≤ fuel := by
        rw [List.length_drop]
        omega
      obtain ⟨hholds, htotal⟩ := ih hfill hdrop
      rw [List.append_assoc, List.take_append_drop] at hholds
      refine ⟨hholds, htotal.trans ?_⟩
      unfold Sha256.fill
      dsimp only
      split_ifs <;> rfl

lemma Holds.update (h : Holds s taken) : Holds (s.update bytes) (taken ++ bytes) := by
  have hstart : Holds { s with totalBytes := s.totalBytes + BitVec.ofNat 64 bytes.length } taken :=
    ⟨h.size, h.buffered_lt, h.split⟩
  exact (hstart.absorb le_rfl).1

lemma Holds.totalBytes_update (h : Holds s taken) :
    (s.update bytes).totalBytes = s.totalBytes + BitVec.ofNat 64 bytes.length := by
  have hstart : Holds { s with totalBytes := s.totalBytes + BitVec.ofNat 64 bytes.length } taken :=
    ⟨h.size, h.buffered_lt, h.split⟩
  exact (hstart.absorb le_rfl).2

/-- Updates one after the other take what one update of all their bytes takes. -/
lemma Holds.updates {chunks : List (List Byte)} (h : Holds s taken)
    (htotal : s.totalBytes = BitVec.ofNat 64 taken.length) :
    Holds (chunks.foldl Sha256.update s) (taken ++ chunks.flatten) ∧
      (chunks.foldl Sha256.update s).totalBytes
        = BitVec.ofNat 64 (taken ++ chunks.flatten).length := by
  induction chunks generalizing s taken with
  | nil => simpa using ⟨h, htotal⟩
  | cons chunk chunks ih =>
    have htotal' : (s.update chunk).totalBytes = BitVec.ofNat 64 (taken ++ chunk).length := by
      rw [h.totalBytes_update, htotal, List.length_append, BitVec.ofNat_add]
    have hrest := ih h.update htotal'
    rw [List.append_assoc] at hrest
    exact hrest

/-! ### The end -/

/-- The zeros end where eight bytes are left of a block. -/
lemma Holds.padZeros {fuel zeros : ℕ} (h : Holds s taken) (hfuel : zeros ≤ fuel)
    (hzeros : zeros < 64) (hend : (taken.length + zeros) % 64 = 56) :
    Holds (padZeros fuel s) (taken ++ List.replicate zeros 0) ∧
      (Sha256.padZeros fuel s).buffered = 56 := by
  have hbuffered := h.buffered_eq
  induction zeros generalizing fuel s taken with
  | zero =>
    have hs : Sha256.padZeros fuel s = s := by
      cases fuel with
      | zero => rfl
      | succ fuel =>
        rw [Sha256.padZeros, if_neg]
        omega
    rw [hs, List.replicate_zero, List.append_nil]
    exact ⟨h, by omega⟩
  | succ zeros ih =>
    obtain ⟨fuel, rfl⟩ : ∃ n, fuel = n + 1 := ⟨fuel - 1, by omega⟩
    rw [Sha256.padZeros, if_pos (by omega)]
    have hnext : Holds (s.update [0x00]) (taken ++ [0x00]) := h.update
    have hend' : ((taken ++ [0x00]).length + zeros) % 64 = 56 := by
      rw [List.length_append, List.length_singleton]
      omega
    have hrest := ih hnext (Nat.le_of_succ_le_succ hfuel) (by omega) hend' hnext.buffered_eq
    rwa [List.append_assoc, List.singleton_append] at hrest

lemma lengthBytes_eq (n : ℕ) :
    lengthBytes (BitVec.ofNat 64 n * 8) = Fips180.lengthBytes (8 * n) := by
  unfold lengthBytes Fips180.lengthBytes
  apply List.map_congr_left
  intro i hi
  rw [List.mem_range] at hi
  apply BitVec.eq_of_toNat_eq
  have hbits : (BitVec.ofNat 64 n * 8).toNat = 8 * n % 2 ^ 64 := by
    rw [BitVec.toNat_mul, BitVec.toNat_ofNat, show (8 : BitVec 64).toNat = 8 from rfl]
    omega
  rw [BitVec.toNat_setWidth, BitVec.toNat_ushiftRight, hbits, BitVec.toNat_ofNat,
    Nat.shiftRight_eq_div_pow]
  interval_cases i <;> omega

lemma stateBytes_eq (x : Word) : stateBytes x = Fips180.wordBytes x := by
  unfold stateBytes Fips180.wordBytes
  have hbyte : ∀ n, (x >>> n).setWidth 8 = x.extractLsb' n 8 := by
    intro n
    apply BitVec.eq_of_getLsbD_eq
    intro i hi
    simp [hi]
  rw [hbyte, hbyte, hbyte, ← hbyte 0]
  simp

/-- The digest of a hasher is that of the bytes it has taken. -/
lemma Holds.finish (h : Holds s taken) (htotal : s.totalBytes = BitVec.ofNat 64 taken.length) :
    s.finish = Fips180.sha256 taken := by
  have hone : Holds (s.update [0x80]) (taken ++ [0x80]) := h.update
  have hmod : Fips180.zeroBytes taken.length < 64 :=
    Nat.mod_lt (119 - taken.length % 64) (Nat.zero_lt_succ 63)
  have hend : ((taken ++ [0x80]).length + Fips180.zeroBytes taken.length) % 64 = 56 := by
    rw [List.length_append, List.length_singleton, Fips180.zeroBytes]
    omega
  obtain ⟨hpadded, h56⟩ := hone.padZeros hmod.le hmod hend
  obtain ⟨hsize, -, blocks, hsplit, hblocks, hstate⟩ := hpadded
  have hbytes : (lengthBytes (s.totalBytes * 8)).length = 8 := by simp [lengthBytes]
  have hfit : (Sha256.padZeros 64 (s.update [0x80])).buffered
      + (lengthBytes (s.totalBytes * 8)).length
      = (Sha256.padZeros 64 (s.update [0x80])).buffer.length := by omega
  have hblock := take_memcpy hfit.le
  rw [List.take_of_length_le (by rw [length_memcpy hfit.le, hfit])] at hblock
  have hpad : Fips180.pad taken = blocks ++ memcpy (Sha256.padZeros 64 (s.update [0x80])).buffer
      (Sha256.padZeros 64 (s.update [0x80])).buffered (lengthBytes (s.totalBytes * 8)) := by
    rw [hblock, ← List.append_assoc, ← hsplit, htotal, lengthBytes_eq]
    simp [Fips180.pad]
  have hhash : Fips180.hashBlocks Fips180.initial (Fips180.pad taken)
      = (compress (Sha256.padZeros 64 (s.update [0x80])).state
          (memcpy (Sha256.padZeros 64 (s.update [0x80])).buffer
            (Sha256.padZeros 64 (s.update [0x80])).buffered
            (lengthBytes (s.totalBytes * 8)))).working := by
    rw [hpad, Fips180.hashBlocks_append _ _ _ hblocks, ← hstate, working_compress]
    exact Fips180.hashBlocks_block _ ((length_memcpy hfit.le).trans hsize)
  have hstateBytes : stateBytes = Fips180.wordBytes := funext stateBytes_eq
  unfold Sha256.finish Fips180.sha256 Fips180.digest
  rw [hhash, hstateBytes]
  rfl

/-- Any updates of a new hasher. -/
lemma finish_updates (chunks : List (List Byte)) :
    (chunks.foldl Sha256.update {}).finish = Fips180.sha256 chunks.flatten := by
  obtain ⟨hholds, htotal⟩ := Holds.updates holds_new rfl
  exact hholds.finish htotal

end Sha256

lemma sha256_eq (data : List Byte) : sha256 data = Fips180.sha256 data := by
  have h := Sha256.finish_updates [data]
  rwa [List.flatten_singleton] at h

lemma paddedKey_eq (key : List Byte) : paddedKey key = Fips180.hmacKey Fips180.sha256 64 key := by
  have hpad : ∀ k : List Byte, memcpy (List.replicate blockSize 0) 0 k
      = k ++ List.replicate (64 - k.length) 0 := by
    intro k
    simp only [memcpy, List.take_zero, List.nil_append, Nat.zero_add, List.drop_replicate,
      blockSize]
  unfold paddedKey Fips180.hmacKey
  rw [hpad, sha256_eq]
  rfl

/-- The inner hash may take its message in any updates. -/
lemma outerDigest_eq (key : List Byte) (chunks : List (List Byte)) :
    outerDigest key (chunks.foldl Sha256.update (Sha256.update {} (innerPad key)))
      = Fips180.hmac Fips180.sha256 64 key chunks.flatten := by
  have hinner := Sha256.finish_updates (innerPad key :: chunks)
  rw [List.foldl_cons, List.flatten_cons] at hinner
  have houter := Sha256.finish_updates [outerPad key, Fips180.sha256 (innerPad key ++ chunks.flatten)]
  rw [List.foldl_cons, List.foldl_cons, List.foldl_nil] at houter
  unfold outerDigest
  rw [hinner, houter, outerPad, innerPad, paddedKey_eq]
  simp [Fips180.hmac]

/-- However a message is cut into updates, the hasher gives its SHA-256, and over any key its
HMAC-SHA256. -/
theorem sha256_correct :
    (∀ chunks : List (List Byte),
      (chunks.foldl Sha256.update {}).finish = Fips180.sha256 chunks.flatten) ∧
    (∀ message, sha256 message = Fips180.sha256 message) ∧
    (∀ key message, hmacSha256 key message = Fips180.hmac Fips180.sha256 64 key message) ∧
    ∀ key (chunks : List (List Byte)),
      outerDigest key (chunks.foldl Sha256.update (Sha256.update {} (innerPad key)))
        = Fips180.hmac Fips180.sha256 64 key chunks.flatten := by
  refine ⟨Sha256.finish_updates, sha256_eq, fun key message => ?_, outerDigest_eq⟩
  have h := outerDigest_eq key [message]
  rwa [List.flatten_singleton] at h

end Junjo.Cpp
