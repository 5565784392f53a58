import AcousticNode.Wire.Checksum
import Mathlib.Logic.Function.Iterate

/-!
# The checksum register

The register holds a polynomial over two elements modulo the generator, its most significant bit
the highest power.  Without input a step multiplies by `x`; a bit of input is added at the top
before the step.  Everything that the register does is linear.

* `foldl_step_xor` : the register after a sum of inputs;
* `foldl_step_eq_iterate` : up to sixteen bits may be added to the register all at once;
* `residue_eq_zero_of_verify` : a frame that verifies leaves nothing in the register.
-/

set_option autoImplicit false

namespace AcousticNode.Checksum

/-! ## One step -/

/-- Multiplication by `x` modulo the generator. -/
def mulX (c : BitVec 16) : BitVec 16 :=
  if c.msb then (c <<< 1) ^^^ generator.toBitVec else c <<< 1

/-- A bit of input, where it is added. -/
def top (bit : Bool) : BitVec 16 := if bit then 0x8000#16 else 0#16

/-- `shift` on bit vectors. -/
def step (c : BitVec 16) (bit : Bool) : BitVec 16 := mulX (c ^^^ top bit)

theorem mulX_zero : mulX 0#16 = 0#16 := by decide

theorem mulX_top (bit : Bool) : mulX (top bit) = if bit then generator.toBitVec else 0#16 := by
  cases bit <;> decide

theorem mulX_xor (a b : BitVec 16) : mulX (a ^^^ b) = mulX a ^^^ mulX b := by
  unfold mulX
  simp only [BitVec.msb_xor, BitVec.shiftLeft_xor_distrib]
  cases a.msb <;> cases b.msb <;>
    simp only [Bool.xor_false, Bool.xor_true, Bool.not_false, Bool.not_true, if_true, if_false,
      Bool.false_eq_true]
  · ac_rfl
  · ac_rfl
  · rw [BitVec.xor_comm (b <<< 1), ← BitVec.xor_assoc, BitVec.xor_assoc (a <<< 1),
      BitVec.xor_self, BitVec.xor_zero]

theorem iterate_mulX_zero (n : Nat) : mulX^[n] 0#16 = 0#16 := by
  rw [Function.iterate_fixed mulX_zero]

/-- The generator has a constant term, so nothing but zero becomes zero. -/
theorem eq_zero_of_mulX {c : BitVec 16} (h : mulX c = 0#16) : c = 0#16 := by
  have hlow : (mulX c).getLsbD 0 = c.msb := by
    unfold mulX
    cases c.msb <;> simp [generator]
  have hmsb : c.msb = false := by
    rw [← hlow, h]
    rfl
  rw [mulX, hmsb] at h
  apply BitVec.eq_of_getLsbD_eq
  intro i hi
  by_cases htop : i = 15
  · subst htop
    rw [BitVec.msb_eq_getLsbD_last] at hmsb
    simpa using hmsb
  · have hbit := congrArg (fun v : BitVec 16 => v.getLsbD (i + 1)) h
    simp only [Bool.false_eq_true, if_false, BitVec.getLsbD_shiftLeft] at hbit
    simpa [show i + 1 < 16 by omega] using hbit

theorem eq_zero_of_iterate_mulX {n : Nat} {c : BitVec 16} (h : mulX^[n] c = 0#16) : c = 0#16 := by
  induction n generalizing c with
  | zero => exact h
  | succ n ih => exact eq_zero_of_mulX (ih h)

theorem msb_eq_beq (r : UInt16) : (r >>> 15 == 1) = r.toBitVec.msb := by
  have hdiv : (r >>> 15).toNat = r.toNat / 2 ^ 15 := by
    rw [UInt16.toNat_shiftRight]
    exact Nat.shiftRight_eq_div_pow _ _
  have hlt := r.toNat_lt
  rw [BitVec.msb_eq_decide, UInt16.toNat_toBitVec, Bool.eq_iff_iff, beq_iff_eq,
    ← UInt16.toNat_inj, hdiv, decide_eq_true_iff, show (1 : UInt16).toNat = 1 from rfl]
  omega

theorem toBitVec_shift (r : UInt16) (bit : Bool) :
    (shift r bit).toBitVec = step r.toBitVec bit := by
  rw [step, mulX_xor, mulX_top, mulX, shift, msb_eq_beq]
  cases bit <;> cases r.toBitVec.msb
  case true.true =>
    -- the top bit of the register and the input bit cancel, and so do the two generators
    show r.toBitVec <<< 1 = r.toBitVec <<< 1 ^^^ generator.toBitVec ^^^ generator.toBitVec
    rw [BitVec.xor_assoc, BitVec.xor_self, BitVec.xor_zero]
  all_goals simp

theorem toBitVec_foldl_shift (r : UInt16) (bits : List Bool) :
    (bits.foldl shift r).toBitVec = bits.foldl step r.toBitVec := by
  induction bits generalizing r with
  | nil => rfl
  | cons bit bits ih => rw [List.foldl_cons, List.foldl_cons, ih, toBitVec_shift]

/-! ## Many steps -/

theorem top_xor (a b : Bool) : top (a ^^ b) = top a ^^^ top b := by
  cases a <;> cases b <;> decide

theorem step_xor (c d : BitVec 16) (a b : Bool) :
    step (c ^^^ d) (a ^^ b) = step c a ^^^ step d b := by
  rw [step, step, step, ← mulX_xor, top_xor]
  congr 1
  ac_rfl

theorem foldl_step_xor (as bs : List Bool) (h : as.length = bs.length) (c d : BitVec 16) :
    (List.zipWith xor as bs).foldl step (c ^^^ d) = as.foldl step c ^^^ bs.foldl step d := by
  induction as generalizing bs c d with
  | nil =>
    cases bs with
    | nil => rfl
    | cons b bs => cases h
  | cons a as ih =>
    cases bs with
    | nil => cases h
    | cons b bs =>
      rw [List.zipWith_cons_cons, List.foldl_cons, step_xor, ih bs (Nat.succ.inj h)]
      rfl

theorem foldl_step_replicate (n : Nat) (c : BitVec 16) :
    (List.replicate n false).foldl step c = mulX^[n] c := by
  induction n generalizing c with
  | zero => rfl
  | succ n ih =>
    rw [List.replicate_succ, List.foldl_cons, ih, Function.iterate_succ_apply, step,
      show top false = 0#16 from rfl, BitVec.xor_zero]

/-! ## Up to sixteen bits at once -/

/-- Bits as a register, the first of them at the top. -/
def load : List Bool → BitVec 16
  | [] => 0#16
  | bit :: bits => top bit ^^^ (load bits >>> 1)

theorem getLsbD_top (bit : Bool) (i : Nat) :
    (top bit).getLsbD i = (decide (i = 15) && bit) := by
  cases bit with
  | false => simp [top]
  | true =>
    rw [top, if_pos rfl, show (0x8000#16) = BitVec.twoPow 16 15 by decide, BitVec.getLsbD_twoPow]
    by_cases h : i = 15
    · simp [h]
    · simp [h, Ne.symm h]

theorem getLsbD_load (bits : List Bool) (i : Nat) (hi : i < 16) :
    (load bits).getLsbD i = bits.getD (15 - i) false := by
  induction bits generalizing i with
  | nil => simp [load]
  | cons bit bits ih =>
    rw [load, BitVec.getLsbD_xor, getLsbD_top, BitVec.getLsbD_ushiftRight]
    by_cases htop : i = 15
    · subst htop
      rw [BitVec.getLsbD_of_ge _ _ (by omega)]
      simp
    · rw [ih (1 + i) (by omega), show 15 - i = (15 - (1 + i)) + 1 by omega]
      simp [htop]

theorem mulX_ushiftRight {c : BitVec 16} (h : c.getLsbD 0 = false) : mulX (c >>> 1) = c := by
  have hmsb : (c >>> 1).msb = false := by
    rw [BitVec.msb_eq_getLsbD_last, BitVec.getLsbD_ushiftRight]
    exact BitVec.getLsbD_of_ge _ _ (by decide)
  rw [mulX, hmsb, if_neg Bool.false_ne_true]
  apply BitVec.eq_of_getLsbD_eq
  intro i hi
  rw [BitVec.getLsbD_shiftLeft, BitVec.getLsbD_ushiftRight]
  cases i with
  | zero => simpa using h.symm
  | succ i => simp [hi, Nat.add_comm 1 i]

theorem foldl_step_eq_iterate (bits : List Bool) (h : bits.length ≤ 16) (c : BitVec 16) :
    bits.foldl step c = mulX^[bits.length] (c ^^^ load bits) := by
  induction bits generalizing c with
  | nil => simp [load]
  | cons bit bits ih =>
    rw [List.length_cons] at h
    have hlow : (load bits).getLsbD 0 = false := by
      rw [getLsbD_load bits 0 (by decide), List.getD_eq_getElem?_getD,
        List.getElem?_eq_none (by omega), Option.getD_none]
    have hstep : step c bit ^^^ load bits = mulX (c ^^^ load (bit :: bits)) := by
      rw [load, ← BitVec.xor_assoc, mulX_xor, mulX_ushiftRight hlow, step]
    rw [List.foldl_cons, ih (by omega), hstep]
    rfl

/-! ## What a frame leaves in the register -/

/-- The register after a whole frame, checksum included. -/
def residue (frame : Bytes) : BitVec 16 := frame.bits.foldl step start.toBitVec

theorem length_bits (bs : Bytes) : (Bytes.bits bs).length = 8 * bs.length := by
  induction bs with
  | nil => rfl
  | cons b bs ih =>
    have hcons : Bytes.bits (b :: bs) = octetBits b ++ Bytes.bits bs := rfl
    rw [hcons, List.length_append, ih, List.length_cons]
    simp only [octetBits, List.length_map, List.length_cons, List.length_nil]
    omega

theorem testBit_octet (n i : Nat) (hi : i < 8) : (UInt8.ofNat n).toNat.testBit i = n.testBit i := by
  rw [UInt8.toNat_ofNat', Nat.testBit_mod_two_pow, decide_eq_true hi, Bool.true_and]

theorem bits_toBytes (c : UInt16) :
    (toBytes c).bits = (List.range 16).map fun i => c.toNat.testBit (15 - i) := by
  have hbytes : toBytes c = [UInt8.ofNat (c.toNat / 256), UInt8.ofNat c.toNat] := rfl
  have hhigh : ∀ i, i < 8 → (UInt8.ofNat (c.toNat / 256)).toNat.testBit i =
      c.toNat.testBit (i + 8) := by
    intro i hi
    rw [testBit_octet _ i hi, show 256 = 2 ^ 8 from rfl, Nat.testBit_div_two_pow]
  have hlow : ∀ i, i < 8 → (UInt8.ofNat c.toNat).toNat.testBit i = c.toNat.testBit i :=
    testBit_octet c.toNat
  rw [hbytes]
  simp only [Bytes.bits, List.flatMap_cons, List.flatMap_nil, octetBits, List.map_cons,
    List.map_nil, hhigh, hlow, Nat.reduceLT]
  rfl

theorem load_bits_toBytes (c : UInt16) : load (toBytes c).bits = c.toBitVec := by
  apply BitVec.eq_of_getLsbD_eq
  intro i hi
  have hplace : 15 - i < 16 := by omega
  rw [getLsbD_load _ i hi, bits_toBytes, List.getD_eq_getElem?_getD, List.getElem?_map,
    List.getElem?_range hplace, Option.map_some, show 15 - (15 - i) = i by omega]
  rfl

theorem residue_append (body trailer : Bytes) (h : trailer.length = Limits.checksumSize) :
    residue (body ++ trailer) =
      mulX^[16] ((compute body).toBitVec ^^^ load trailer.bits) := by
  have hregister : body.bits.foldl step start.toBitVec = (compute body).toBitVec :=
    (toBitVec_foldl_shift start body.bits).symm
  have hlen : trailer.bits.length = 16 := by
    rw [length_bits, h]
    rfl
  have hbits : (body ++ trailer).bits = body.bits ++ trailer.bits := List.flatMap_append
  rw [residue, hbits, List.foldl_append, hregister,
    foldl_step_eq_iterate _ (Nat.le_of_eq hlen), hlen]

/-- A frame verifies if and only if it leaves nothing in the register. -/
theorem residue_append_eq_zero_iff {body trailer : Bytes}
    (h : trailer.length = Limits.checksumSize) :
    residue (body ++ trailer) = 0#16 ↔ compute body = ofBytes trailer := by
  have hload : load trailer.bits = (ofBytes trailer).toBitVec := by
    rw [← load_bits_toBytes, toBytes_ofBytes h]
  rw [residue_append body trailer h, hload]
  constructor
  · intro hzero
    have hxor := eq_zero_of_iterate_mulX hzero
    exact UInt16.toBitVec_inj.mp (BitVec.xor_eq_zero_iff.mp hxor)
  · intro heq
    rw [heq, BitVec.xor_self, iterate_mulX_zero]

theorem residue_eq_zero_of_verify {frame : Bytes} (h : verify frame = true) :
    residue frame = 0#16 := by
  obtain ⟨body, rfl⟩ := eq_append_of_verify h
  exact (residue_append_eq_zero_iff (length_toBytes _)).mpr (ofBytes_toBytes _).symm

end AcousticNode.Checksum
