import AcousticNode.Proofs.Checksum.Register
import AcousticNode.Wire.Limits

/-!
# Patterns of corrupted bits

Corruption adds a pattern of bits to a frame, and by linearity the register ends up with what the
pattern alone leaves in it, its syndrome.  A syndrome that is not zero gives the corruption away.

* `syndrome_ne_zero_of_burst` : bits within sixteen places, since the generator has a constant
  term;
* `syndrome_ne_zero_of_odd` : an odd number of bits, since `x + 1` divides the generator;
* `syndrome_ne_zero_of_two` : two bits, since the order of `x` exceeds the length of a packet;
* `syndrome_ne_zero_of_count` : hence up to three bits.
-/

set_option autoImplicit false

namespace AcousticNode.Checksum

/-- What a pattern of bits leaves in a register that was empty. -/
def syndrome (es : List Bool) : BitVec 16 := es.foldl step 0#16

theorem eq_replicate_of_not_mem {es : List Bool} (h : true ∉ es) :
    es = List.replicate es.length false :=
  List.eq_replicate_of_mem fun b hb => by
    cases b with
    | false => rfl
    | true => exact absurd hb h

/-- Leading zeros leave the register empty. -/
theorem syndrome_append_of_not_mem {as es : List Bool} (h : true ∉ as) :
    syndrome (as ++ es) = syndrome es := by
  rw [eq_replicate_of_not_mem h, syndrome, List.foldl_append, foldl_step_replicate,
    iterate_mulX_zero, syndrome]

/-- Trailing zeros do not empty the register. -/
theorem syndrome_append_ne_zero {es bs : List Bool} (h : true ∉ bs) (hes : syndrome es ≠ 0#16) :
    syndrome (es ++ bs) ≠ 0#16 := by
  rw [eq_replicate_of_not_mem h, syndrome, List.foldl_append, foldl_step_replicate]
  exact fun hzero => hes (eq_zero_of_iterate_mulX hzero)

/-! ## Bursts -/

theorem load_ne_zero {es : List Bool} (hlen : es.length ≤ 16) (h : true ∈ es) :
    load es ≠ 0#16 := by
  obtain ⟨i, hi⟩ := List.mem_iff_getElem?.mp h
  obtain ⟨hlt, _⟩ := List.getElem?_eq_some_iff.mp hi
  intro hzero
  have hbit := getLsbD_load es (15 - i) (by omega)
  rw [hzero, show 15 - (15 - i) = i by omega, List.getD_eq_getElem?_getD, hi] at hbit
  simp at hbit

theorem syndrome_ne_zero_of_length_le {es : List Bool} (hlen : es.length ≤ 16) (h : true ∈ es) :
    syndrome es ≠ 0#16 := by
  rw [syndrome, foldl_step_eq_iterate es hlen, BitVec.zero_xor]
  exact fun hzero => load_ne_zero hlen h (eq_zero_of_iterate_mulX hzero)

/-- The pattern is cut in front of the burst and behind it. -/
theorem syndrome_ne_zero_of_burst {es : List Bool} {k : Nat} (h : true ∈ es)
    (hburst : ∀ i, es[i]? = some true → k ≤ i ∧ i < k + 16) : syndrome es ≠ 0#16 := by
  have hcut : es = es.take k ++ ((es.drop k).take 16 ++ (es.drop k).drop 16) := by
    rw [List.take_append_drop, List.take_append_drop]
  have hbefore : true ∉ es.take k := by
    intro hmem
    obtain ⟨i, hi⟩ := List.mem_iff_getElem?.mp hmem
    rw [List.getElem?_take] at hi
    split at hi
    · have := (hburst i hi).1
      omega
    · cases hi
  have hbehind : true ∉ (es.drop k).drop 16 := by
    intro hmem
    obtain ⟨i, hi⟩ := List.mem_iff_getElem?.mp hmem
    rw [List.getElem?_drop, List.getElem?_drop] at hi
    have := (hburst _ hi).2
    omega
  have hwithin : true ∈ (es.drop k).take 16 := by
    rw [hcut] at h
    rcases List.mem_append.mp h with h | h
    · exact absurd h hbefore
    · rcases List.mem_append.mp h with h | h
      · exact h
      · exact absurd h hbehind
  rw [hcut, syndrome_append_of_not_mem hbefore]
  exact syndrome_append_ne_zero hbehind
    (syndrome_ne_zero_of_length_le (List.length_take_le _ _) hwithin)

/-! ## Odd numbers of bits -/

/-- The sum of the `n` low bits of a register. -/
def parity : Nat → BitVec 16 → Bool
  | 0, _ => false
  | n + 1, c => c.getLsbD n ^^ parity n c

theorem parity_xor (n : Nat) (a b : BitVec 16) :
    parity n (a ^^^ b) = (parity n a ^^ parity n b) := by
  induction n with
  | zero => rfl
  | succ n ih =>
    rw [parity, parity, parity, BitVec.getLsbD_xor, ih]
    cases a.getLsbD n <;> cases b.getLsbD n <;> cases parity n a <;> simp

theorem parity_shiftLeft (n : Nat) (hn : n < 16) (c : BitVec 16) :
    parity (n + 1) (c <<< 1) = parity n c := by
  induction n with
  | zero => simp [parity]
  | succ n ih =>
    rw [parity, ih (by omega), parity, BitVec.getLsbD_shiftLeft]
    simp only [hn, decide_true, Bool.true_and, Nat.add_sub_cancel]
    rfl

/-- The generator has four terms, so a step keeps the sum of the register's bits. -/
theorem parity_mulX (c : BitVec 16) : parity 16 (mulX c) = parity 16 c := by
  have hmsb : parity 16 c = (c.msb ^^ parity 15 c) := by
    rw [parity, BitVec.msb_eq_getLsbD_last]
  have hgenerator : parity 16 generator.toBitVec = true := by decide
  rw [hmsb, mulX]
  cases c.msb with
  | false => simp [parity_shiftLeft]
  | true => simp [parity_xor, parity_shiftLeft, hgenerator]

theorem parity_top (bit : Bool) : parity 16 (top bit) = bit := by
  cases bit <;> decide

theorem parity_foldl_step (es : List Bool) (c : BitVec 16) :
    parity 16 (es.foldl step c) = (parity 16 c ^^ decide (es.count true % 2 = 1)) := by
  induction es generalizing c with
  | nil => simp
  | cons e es ih =>
    rw [List.foldl_cons, ih, step, parity_mulX, parity_xor, parity_top, List.count_cons]
    cases e with
    | false => simp
    | true =>
      have hodd : decide ((es.count true + 1) % 2 = 1) = !decide (es.count true % 2 = 1) := by
        rw [← decide_not, decide_eq_decide]
        omega
      simp [hodd]

theorem syndrome_ne_zero_of_odd {es : List Bool} (h : es.count true % 2 = 1) :
    syndrome es ≠ 0#16 := by
  intro hzero
  have hparity := parity_foldl_step es 0#16
  rw [← syndrome, hzero, h] at hparity
  exact absurd hparity (by decide)

/-! ## Two bits -/

/-- Whether `n` multiplications by `x` all avoid a value. -/
def avoids (goal : BitVec 16) : Nat → BitVec 16 → Bool
  | 0, _ => true
  | n + 1, c => mulX c != goal && avoids goal n (mulX c)

theorem iterate_ne_of_avoids {goal : BitVec 16} {n : Nat} {c : BitVec 16}
    (h : avoids goal n c = true) : ∀ d, d < n → mulX^[d + 1] c ≠ goal := by
  induction n generalizing c with
  | zero => exact fun d hd => absurd hd (Nat.not_lt_zero d)
  | succ n ih =>
    simp only [avoids, Bool.and_eq_true, bne_iff_ne] at h
    intro d hd
    cases d with
    | zero => exact h.1
    | succ d => exact ih h.2 d (Nat.lt_of_succ_lt_succ hd)

/-- The places of two bits in a packet differ by less than the order of `x`. -/
theorem iterate_top_ne_top {d : Nat} (h : d + 1 < 8 * Limits.maxPacketSize) :
    mulX^[d + 1] (top true) ≠ top true := by
  have havoids : avoids (top true) 2719 (top true) = true := by decide +kernel
  exact iterate_ne_of_avoids havoids d (Nat.lt_of_succ_lt_succ h)

theorem exists_of_count_succ {es : List Bool} {n : Nat} (h : es.count true = n + 1) :
    ∃ as bs, es = as ++ true :: bs ∧ true ∉ as ∧ bs.count true = n := by
  have hmem : true ∈ es := List.count_pos_iff.mp (by omega)
  obtain ⟨as, bs, rfl, has⟩ := List.eq_append_cons_of_mem hmem
  refine ⟨as, bs, rfl, has, ?_⟩
  rw [List.count_append, List.count_cons_self, List.count_eq_zero.mpr has] at h
  omega

theorem syndrome_ne_zero_of_two {es : List Bool} (hlen : es.length ≤ 8 * Limits.maxPacketSize)
    (h : es.count true = 2) : syndrome es ≠ 0#16 := by
  obtain ⟨as, tail, rfl, has, htail⟩ := exists_of_count_succ h
  obtain ⟨bs, cs, rfl, hbs, hcs⟩ := exists_of_count_succ htail
  have hrest : true ∉ cs := List.count_eq_zero.mp hcs
  have hclose : bs.length + 1 < 8 * Limits.maxPacketSize := by
    simp only [List.length_append, List.length_cons] at hlen
    omega
  have htwo : syndrome (true :: (bs ++ [true])) ≠ 0#16 := by
    rw [syndrome, List.foldl_cons, List.foldl_append, eq_replicate_of_not_mem hbs,
      foldl_step_replicate, List.foldl_cons, List.foldl_nil]
    intro hzero
    have hsum := eq_zero_of_mulX hzero
    rw [step, BitVec.zero_xor, ← Function.iterate_succ_apply] at hsum
    exact iterate_top_ne_top hclose (BitVec.xor_eq_zero_iff.mp hsum)
  have hcut : true :: (bs ++ true :: cs) = true :: (bs ++ [true]) ++ cs := by simp
  rw [syndrome_append_of_not_mem has, hcut]
  exact syndrome_append_ne_zero hrest htwo

theorem syndrome_ne_zero_of_count {es : List Bool}
    (hlen : es.length ≤ 8 * Limits.maxPacketSize) (h : true ∈ es) (hcount : es.count true ≤ 3) :
    syndrome es ≠ 0#16 := by
  have hpos : 0 < es.count true := List.count_pos_iff.mpr h
  by_cases htwo : es.count true = 2
  · exact syndrome_ne_zero_of_two hlen htwo
  · exact syndrome_ne_zero_of_odd (by omega)

end AcousticNode.Checksum
